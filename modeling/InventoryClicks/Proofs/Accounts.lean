import InventoryClicks.Session.Basic
import InventoryClicks.Proofs.Atomicity
import InventoryClicks.Proofs.Balance

/-!
# Accounts of a session

What a call adds to the weight of a session, and what it throws into the world. A call that may only apply outcomes
that gain what they throw leaves the sum of both as it was (`Session.Move.weight`), and so does a run of such calls
(`Session.runEach_weight`). With the check on, outcomes gain what they throw whatever menus and rules made them, which is
`Session.checked_calls_conserve`.
-/

namespace InventoryClicks

/-- What an effect hands to the world. -/
def Effect.weight (w : Weight) : Effect → Int
  | .drop _ s => s.weight w
  | .resync _ => 0
  | .applied .. => 0

def Report.weight (w : Weight) (r : Report) : Int := (r.effects.map (·.weight w)).sum

namespace Turn

variable {w : Weight} {g : Setting} {sent action : Action} {processed outcome : Outcome}

theorem sum_map_drop (player : Nat) (l : List Stack) :
    ((l.map (Effect.drop player)).map (·.weight w)).sum = (l.map (·.weight w)).sum := by
  rw [List.map_map]
  rfl

theorem Setting.weight_effects :
    ((g.effects sent action processed outcome).map (·.weight w)).sum = outcome.thrownWeight w := by
  unfold effects
  rw [List.map_append, List.map_append, List.sum_append, List.sum_append, sum_map_drop]
  split <;> simp [Effect.weight, Outcome.thrownWeight]

/-- Whatever is applied when a packet means `decoded` gains what it throws. -/
def Setting.Balances (g : Setting) (w : Weight) (decoded : Except Fault (Option Action)) : Prop :=
  ∀ sent action processed outcome, decoded = .ok (some sent) → g.Applies sent action processed outcome →
    outcome.gained w g.scene = -outcome.thrownWeight w

theorem Course.weight {decoded : Except Fault (Option Action)} {answer : Except Fault (Option Outcome)} {scene : Scene}
    {r : Report} (h : Course g decoded answer scene r) (balances : g.Balances w decoded) :
    scene.weight w + r.weight w = g.scene.weight w := by
  unfold Report.weight
  cases h with
  | undecodable e => simp
  | ignored r uncalled silent => simp [silent]
  | @acted sent _ _ _ ending =>
    cases ending with
    | stopped e r why quiet silent => simp [silent]
    | refused r why quiet resync => simp [resync, Effect.weight]
    | applied action processed outcome before after applies quiet silent effects calls =>
      have gains := balances sent action processed outcome rfl applies
      rw [Scene.weight_overwrite (outcomeFlaw?_fits applies.flawless), Report.effects_append, silent, List.nil_append,
        effects, Setting.weight_effects]
      omega
    | interrupted e action processed outcome r applies hook drops =>
      have gains := balances sent action processed outcome rfl applies
      rw [Scene.weight_overwrite (outcomeFlaw?_fits applies.flawless), drops, sum_map_drop]
      unfold Outcome.thrownWeight at gains
      omega

theorem Course.weight_of_none {decoded : Except Fault (Option Action)} {scene : Scene} {r : Report}
    (h : Course g decoded (.ok none) scene r) : r.weight w = 0 := by
  unfold Report.weight
  cases h with
  | ignored r uncalled silent => simp [silent]
  | acted ending =>
    cases ending with
    | refused r why quiet resync => simp [resync, Effect.weight]

end Turn

namespace Player

variable {setup : Setup} {id : Nat} {p : Player}

/-- Inventory and cursor. -/
def weight (w : Weight) (p : Player) : Int := p.inventory.weight w + p.cursor.weight w

/-- What a call leaves of the player and the container, apart from the stacks. -/
structure Keeps (p : Player) (c : Option Container) (d : Decoder) (q : Played) : Prop where
  mode : q.player.mode = p.mode
  kind : q.player.inventory.kind = p.inventory.kind
  decoder : q.player.decoder = if c.isSome then p.decoder else d
  container : ∀ k, c = some k →
    ∃ k', q.container = some k' ∧ k'.menu = k.menu ∧ k'.inventory.kind = k.inventory.kind ∧ k'.decoder = d

section

variable {c : Option Container} {decoded : Except Fault (Option Action)} {d : Decoder} {q : Played} {w : Weight}

theorem Called.keeps (called : p.Called setup id c decoded d q) : p.Keeps c d q := by
  cases called with
  | turn answer scene report course =>
    have kinds := course.kinds
    refine ⟨rfl, kinds.1, rfl, ?_⟩
    rintro k rfl
    refine ⟨_, rfl, rfl, ?_, rfl⟩
    have kind : scene.container.map (·.kind) = some k.inventory.kind := kinds.2
    obtain ⟨inv, opened, same⟩ := Option.map_eq_some_iff.1 kind
    simp [opened, same]

/-- Without a container, what the player loses is thrown. -/
theorem Called.weight_own (called : p.Called setup id none decoded d q)
    (balances : (p.setting setup id none).Balances w decoded) : q.player.weight w + q.report.weight w = p.weight w := by
  have turn := called.course.weight balances
  have alone : q.container = none := by
    cases called
    rfl
  simp only [setting, Played.scene, alone, scene, Scene.weight, Option.map_none, Option.getD_none] at turn
  unfold weight
  omega

/-- With a container, what the player and the container lose is thrown. -/
theorem Called.weight_shared {k left : Container} (called : p.Called setup id (some k) decoded d q)
    (leaves : q.container = some left) (balances : (p.setting setup id (some k)).Balances w decoded) :
    q.player.weight w + left.inventory.weight w + q.report.weight w = p.weight w + k.inventory.weight w := by
  have turn := called.course.weight balances
  simp only [setting, Played.scene, leaves, scene, Scene.weight, Option.map_some, Option.getD_some] at turn
  unfold weight
  omega

/-- A call that applies nothing throws nothing. -/
theorem Called.weight_of_none (called : p.Called setup id c decoded d q) (nothing : q.answer = .ok none) :
    q.report.weight w = 0 := by
  have course := called.course
  rw [nothing] at course
  exact course.weight_of_none

end

end Player

namespace Session

variable {setup : Setup} {w : Weight} {P : Player → Prop} {C : Container → Prop} {s : Session}

/-- All players and all containers. -/
def weight (w : Weight) (s : Session) : Int :=
  (s.players.map (Player.weight w)).sum + (s.containers.map fun c => c.inventory.weight w).sum

structure Every (P : Player → Prop) (C : Container → Prop) (s : Session) : Prop where
  players : ∀ p ∈ s.players, P p
  containers : ∀ c ∈ s.containers, C c

/-- Calls of players with `P` on containers with `C` balance, and leave them such. -/
structure Balanced (setup : Setup) (w : Weight) (P : Player → Prop) (C : Container → Prop) : Prop where
  click : ∀ id p c packet, P p → (∀ k, c = some k → C k) →
    (p.setting setup id c).Balances w (p.decoded id c packet)
  creative : ∀ id p slot stack, P p →
    (p.setting setup id none).Balances w (.ok (Decoder.decodeCreative p.mode slot stack))
  clicked : ∀ id p c packet, P p → (∀ k, c = some k → C k) → P (p.click setup id c packet).player ∧
    ∀ k, (p.click setup id c packet).container = some k → C k
  created : ∀ id p slot stack, P p → P (p.creative setup id slot stack).player
  forgot : ∀ id p, P p → P (p.forgetDrags id)
  closed : ∀ id c, C c → C (c.close id)

theorem weight_setPlayer {i : Nat} {p q : Player} (here : s.players[i]? = some p) :
    (s.setPlayer i q).weight w = s.weight w - p.weight w + q.weight w := by
  simp only [weight, setPlayer]
  rw [sum_map_set (Player.weight w) here]
  omega

theorem weight_setContainer {j : Nat} {c d : Container} (here : s.containers[j]? = some c) :
    (s.setContainer j d).weight w = s.weight w - c.inventory.weight w + d.inventory.weight w := by
  simp only [weight, setContainer]
  rw [sum_map_set (fun c : Container => c.inventory.weight w) here]
  omega

theorem Every.player (every : s.Every P C) {i : Nat} {p : Player} (here : s.players[i]? = some p) : P p :=
  every.players p (List.mem_of_getElem? here)

theorem Every.container (every : s.Every P C) {j : Nat} {c : Container} (here : s.containers[j]? = some c) : C c :=
  every.containers c (List.mem_of_getElem? here)

theorem Every.setPlayer (every : s.Every P C) (i : Nat) {q : Player} (good : P q) : (s.setPlayer i q).Every P C := by
  refine ⟨fun p mem => ?_, every.containers⟩
  rcases List.mem_or_eq_of_mem_set mem with mem | rfl
  · exact every.players p mem
  · exact good

theorem Every.setContainer (every : s.Every P C) (j : Nat) {d : Container} (good : C d) :
    (s.setContainer j d).Every P C := by
  refine ⟨every.players, fun c mem => ?_⟩
  rcases List.mem_or_eq_of_mem_set mem with mem | rfl
  · exact every.containers c mem
  · exact good

/-- What one call does to a session. -/
inductive Move (setup : Setup) (s : Session) : Call → Reply → Session → Prop where
  /-- The call names a player or a container that is not there. -/
  | idle (call : Call) : Move setup s call { answer := .ok none } s
  | own (i : Nat) (p : Player) (packet : Packet) (here : s.players[i]? = some p) :
      Move setup s (.click i none packet) (p.click setup i none packet).toReply
        (s.setPlayer i (p.click setup i none packet).player)
  | shared (i j : Nat) (p : Player) (c left : Container) (packet : Packet) (here : s.players[i]? = some p)
      (there : s.containers[j]? = some c) (leaves : (p.click setup i (some c) packet).container = some left) :
      Move setup s (.click i (some j) packet) (p.click setup i (some c) packet).toReply
        ((s.setPlayer i (p.click setup i (some c) packet).player).setContainer j left)
  | creative (i : Nat) (p : Player) (slot : Int) (stack : Stack) (here : s.players[i]? = some p) :
      Move setup s (.creative i slot stack) (p.creative setup i slot stack).toReply
        (s.setPlayer i (p.creative setup i slot stack).player)
  | forgot (i : Nat) (p : Player) (here : s.players[i]? = some p) :
      Move setup s (.close i none) { answer := .ok none } (s.setPlayer i (p.forgetDrags i))
  | closed (i j : Nat) (c : Container) (there : s.containers[j]? = some c) :
      Move setup s (.close i (some j)) { answer := .ok none } (s.setContainer j (c.close i))

theorem step_move (setup : Setup) (s : Session) (call : Call) :
    Move setup s call (s.step setup call).1 (s.step setup call).2 := by
  cases call with
  | click i container packet =>
    cases container with
    | none =>
      simp only [step]
      rcases here : s.players[i]? with _ | p
      · exact .idle _
      · exact .own i p packet here
    | some j =>
      simp only [step]
      rcases here : s.players[i]? with _ | p
      · exact .idle _
      rcases there : s.containers[j]? with _ | c
      · exact .idle _
      obtain ⟨left, leaves, -⟩ := (p.click_called setup i (some c) packet).keeps.container c rfl
      have leaves' : (p.clickContainer setup i c packet).container = some left := leaves
      simp only [leaves', Option.getD_some]
      exact .shared i j p c left packet here there leaves
  | creative i slot stack =>
    simp only [step]
    rcases here : s.players[i]? with _ | p
    · exact .idle _
    · exact .creative i p slot stack here
  | close i container =>
    cases container with
    | none =>
      simp only [step]
      rcases here : s.players[i]? with _ | p
      · exact .idle _
      · exact .forgot i p here
    | some j =>
      simp only [step]
      rcases there : s.containers[j]? with _ | c
      · exact .idle _
      · exact .closed i j c there

section

variable {call : Call} {reply : Reply} {after : Session}

/-- One call moves weight between the session and the world only. -/
theorem Move.weight (rules : Balanced setup w P C) (every : s.Every P C) (move : Move setup s call reply after) :
    after.weight w + reply.report.weight w = s.weight w := by
  cases move with
  | idle => simp [Report.weight]
  | own i p packet here =>
    have turn := (p.click_called setup i none packet).weight_own (rules.click i p none packet (every.player here) nofun)
    rw [weight_setPlayer here]
    omega
  | shared i j p c left packet here there leaves =>
    have good : ∀ k, some c = some k → C k := by
      rintro k ⟨⟩
      exact every.container there
    have turn := (p.click_called setup i (some c) packet).weight_shared leaves
      (rules.click i p (some c) packet (every.player here) good)
    have there' : (s.setPlayer i (p.click setup i (some c) packet).player).containers[j]? = some c := there
    rw [weight_setContainer there', weight_setPlayer here]
    omega
  | creative i p slot stack here =>
    have turn := (p.creative_called setup i slot stack).weight_own (rules.creative i p slot stack (every.player here))
    rw [weight_setPlayer here]
    omega
  | forgot i p here =>
    have same : (p.forgetDrags i).weight w = p.weight w := rfl
    simp only [weight_setPlayer here, same, Report.weight, List.map_nil, List.sum_nil]
    omega
  | closed i j c there =>
    have same : (c.close i).inventory.weight w = c.inventory.weight w := rfl
    simp only [weight_setContainer there, same, Report.weight, List.map_nil, List.sum_nil]
    omega

theorem Move.every (rules : Balanced setup w P C) (every : s.Every P C) (move : Move setup s call reply after) :
    after.Every P C := by
  cases move with
  | idle => exact every
  | own i p packet here => exact every.setPlayer i (rules.clicked i p none packet (every.player here) nofun).1
  | shared i j p c left packet here there leaves =>
    have good : ∀ k, some c = some k → C k := by
      rintro k ⟨⟩
      exact every.container there
    obtain ⟨player, container⟩ := rules.clicked i p (some c) packet (every.player here) good
    exact (every.setPlayer i player).setContainer j (container left leaves)
  | creative i p slot stack here => exact every.setPlayer i (rules.created i p slot stack (every.player here))
  | forgot i p here => exact every.setPlayer i (rules.forgot i p (every.player here))
  | closed i j c there => exact every.setContainer j (rules.closed i c (every.container there))

/-- A call that answers nothing throws nothing. -/
theorem Move.weight_of_none (move : Move setup s call reply after) (nothing : reply.answer = .ok none) :
    reply.report.weight w = 0 := by
  cases move with
  | own i p packet here => exact (p.click_called setup i none packet).weight_of_none nothing
  | shared i j p c left packet here there leaves => exact (p.click_called setup i (some c) packet).weight_of_none nothing
  | creative i p slot stack here => exact (p.creative_called setup i slot stack).weight_of_none nothing
  | idle | forgot | closed => simp [Report.weight]

end

/-- A run moves weight between the session and the world only. -/
theorem runEach_weight (every : s.Every P C) (calls : List (Setup × Call)) (rules : ∀ x ∈ calls, Balanced x.1 w P C) :
    (s.runEach calls).2.weight w + ((s.runEach calls).1.map (·.report.weight w)).sum = s.weight w ∧
      (s.runEach calls).2.Every P C := by
  induction calls generalizing s with
  | nil => exact ⟨by simp [runEach], every⟩
  | cons x rest ih =>
    have move := step_move x.1 s x.2
    have here := rules x (by simp)
    obtain ⟨later, every'⟩ := ih (move.every here every) fun y mem => rules y (by simp [mem])
    have first := move.weight here every
    refine ⟨?_, every'⟩
    simp only [runEach, List.map_cons, List.sum_cons]
    omega

/-- With the check on, what is applied was counted. -/
theorem balanced_of_checkBalance (checked : setup.checkBalance = true) (keep : setup.hooks.KeepOutcomes) :
    Balanced setup .items (·.mode ≠ .creative) fun _ => True := by
  have balances : ∀ (g : Turn.Setting) decoded, g.setup = setup → g.who.mode ≠ .creative → g.Balances .items decoded := by
    rintro g decoded rfl mode sent action processed outcome - applies
    have same : outcome = processed := Hooks.eq_of_clickVerdict_proceed keep applies.click
    have counted := applies.flawless
    unfold Turn.outcomeFlaw? at counted
    split at counted
    · cases counted
    · rw [if_pos ⟨same, checked, mode⟩] at counted
      exact Outcome.gained_of_imbalance? counted
  refine ⟨?_, ?_, ?_, ?_, fun _ _ h => h, fun _ _ h => h⟩
  · exact fun id p c packet mode _ => balances _ _ rfl mode
  · exact fun id p slot stack mode => balances _ _ rfl mode
  · intro id p c packet mode _
    refine ⟨?_, fun _ _ => trivial⟩
    rw [(p.click_called setup id c packet).keeps.mode]
    exact mode
  · intro id p slot stack mode
    rw [(p.creative_called setup id slot stack).keeps.mode]
    exact mode

/-- **The check is a safety net.** With the check on, outside of creative mode and as long as hooks keep the outcomes,
no call of a run makes or destroys items, whatever the menus and stacking rules of the containers are. -/
theorem checked_calls_conserve (s : Session) (modes : ∀ p ∈ s.players, p.mode ≠ .creative) (calls : List (Setup × Call))
    (setup : Setup) (call : Call) (checked : ∀ x ∈ (setup, call) :: calls, x.1.checkBalance = true)
    (keep : ∀ x ∈ (setup, call) :: calls, x.1.hooks.KeepOutcomes) :
    let before := (s.runEach calls).2
    let reply := (before.step setup call).1
    let after := (before.step setup call).2
    after.weight .items - before.weight .items = -reply.report.weight .items ∧
      (reply.answer = .ok none → after.weight .items = before.weight .items) := by
  intro before reply after
  have rules (x) (mem : x ∈ (setup, call) :: calls) := balanced_of_checkBalance (checked x mem) (keep x mem)
  have every : before.Every (·.mode ≠ .creative) fun _ => True :=
    (runEach_weight ⟨modes, fun _ _ => trivial⟩ calls fun x mem => rules x (by simp [mem])).2
  have move : Move setup before call reply after := step_move setup before call
  have moved := move.weight (rules (setup, call) (by simp)) every
  constructor
  · omega
  · intro nothing
    have unthrown : reply.report.weight .items = 0 := move.weight_of_none nothing
    omega

/-- A rule that counts one item too many, and has all stacks share their slots, would double a stack that is put down. Before
that, a hook has another action in the place of a click. -/
theorem checked_calls_conserve_miscounting :
    let rule := { StackingRule.standard.counting 1 with canShareSlot := fun _ _ => true }
    let hopper := Container.withMenu (.empty .hopper) { Menu.container with rule }
    let player := Player.ofInventory (.empty .player) (.single .stone) .survival
    let s : Session := { players := [player], containers := [hopper] }
    let call (button : Int) : Call := .click 0 (some 0) { mode := .click, slot := 0, button }
    let moved : Setup := { hooks := { pre := [fun _ _ => .ok (.proceed (.offhandSwap 0))] } }
    let before := (s.runEach [(moved, call 0)]).2
    (before.step {} (call 1)).1.answer = .ok none ∧ (before.step {} (call 1)).2.weight .items = before.weight .items := by
  intro rule hopper player s call moved before
  have rejected : (before.step {} (call 1)).1.answer = .ok none := by decide
  have modes : ∀ p ∈ s.players, p.mode ≠ .creative := by simp [s, player, Player.ofInventory]
  have checked : ∀ x ∈ [(({} : Setup), call 1), (moved, call 0)], x.1.checkBalance = true := by simp [moved]
  have keep : ∀ x ∈ [(({} : Setup), call 1), (moved, call 0)], x.1.hooks.KeepOutcomes := by
    simp [moved, Hooks.KeepOutcomes]
  have conserved := checked_calls_conserve s modes [(moved, call 0)] {} (call 1) checked keep
  exact ⟨rejected, conserved.2 rejected⟩

end Session

end InventoryClicks
