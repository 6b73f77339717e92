import InventoryClicks.Session.Player
import InventoryClicks.Proofs.Turn

/-!
# Calls are atomic

A call of a player that comes to its end either leaves the scene as it was, or writes one outcome over it
(`Player.calls_complete`). The effects tell which: none for a packet that means nothing, one resync for a call that
was given up, and otherwise the drops of the outcome, the applied action, and a resync exactly if hooks put another
action or outcome in the place of the predicted one.
-/

namespace InventoryClicks

namespace Turn

/-- How a call that came to its end leaves things, when its packet decoded to `decoded`. -/
inductive Completes (g : Setting) (decoded : Option Action) : Option Outcome → Scene → Report → Prop where
  /-- The packet meant nothing, or the call was given up. -/
  | unchanged (r : Report) (why : ∀ action, decoded = some action → g.Refuses action)
      (effects : r.effects = if decoded = none then [] else [.resync g.who.player]) (quiet : r.Quiet) :
      Completes g decoded none g.scene r
  /-- Every slot that the outcome names exists and holds what it says. -/
  | applied (sent action : Action) (processed outcome : Outcome) (r : Report) (before : List HookCall)
      (meant : decoded = some sent) (applies : g.Applies sent action processed outcome)
      (fits : outcome.Fits g.scene.toWindow) (effects : r.effects = g.effects sent action processed outcome)
      (calls : r.calls = before ++ g.postCalls action outcome) (quiet : ∀ c ∈ before, c.stage ≠ .post) :
      Completes g decoded (some outcome) (g.scene.overwrite outcome) r

theorem Course.completes {g : Setting} {decoded : Except Fault (Option Action)} {answer : Option Outcome} {scene : Scene}
    {r : Report} (h : Course g decoded (.ok answer) scene r) :
    ∃ meant, decoded = .ok meant ∧ Completes g meant answer scene r := by
  cases h with
  | ignored r uncalled silent =>
    exact ⟨none, rfl, .unchanged r (by simp) (by simpa using silent) (Report.quiet_of_calls_eq_nil uncalled)⟩
  | @acted decoded _ _ _ ending =>
    refine ⟨some decoded, rfl, ?_⟩
    cases ending with
    | refused r why quiet resync =>
      refine .unchanged r ?_ (by simpa using resync) quiet
      intro action meant
      cases meant
      exact why
    | applied action processed outcome before after applies quiet silent effects calls =>
      refine .applied decoded action processed outcome _ before.calls rfl applies ?_ ?_ ?_ quiet
      · exact outcomeFlaw?_fits applies.flawless
      · rw [Report.effects_append, silent, effects, List.nil_append]
      · rw [Report.calls_append, calls]

end Turn

namespace Played

/-- The scene after a call. -/
def scene (p : Played) : Scene := p.player.scene (p.container.map (·.inventory))

end Played

namespace Player

variable (setup : Setup) (id : Nat) (p : Player)

/-- What a call of the player takes place under, with that container open. -/
def setting (c : Option Container) : Turn.Setting where
  setup := setup
  menu := (c.map (·.menu)).getD .player
  who := p.clicker id
  scene := p.scene (c.map (·.inventory))

/-- The decoder that reads the player's packets. -/
def decoderFor (c : Option Container) : Decoder := (c.map (·.decoder)).getD p.decoder

/-- What the decoder makes of a packet. -/
def decoded (c : Option Container) (packet : Packet) : Except Fault (Option Action) :=
  ((Decoder.decode id p.mode packet).outcome (p.decoderFor c)).1

/-- What a call comes to when its turn answers `answer`, leaves the scene and reports `report`. Only the decoder that
read the packet is another one afterwards. -/
def after (c : Option Container) (d : Decoder) (answer : Except Fault (Option Outcome)) (scene : Scene)
    (report : Report) : Played where
  answer := answer
  report := report
  player := { p.leave scene with decoder := if c.isSome then p.decoder else d }
  container := c.map fun c => { c with inventory := scene.container.getD c.inventory, decoder := d }

theorem scene_after {c : Option Container} {d : Decoder} {answer : Except Fault (Option Outcome)} {scene : Scene}
    {report : Report} (opened : scene.container.isSome = c.isSome) : (p.after c d answer scene report).scene = scene := by
  obtain ⟨⟨player, container⟩, cursor⟩ := scene
  cases c with
  | none =>
    cases container with
    | none => rfl
    | some inv => cases opened
  | some c =>
    cases container with
    | none => cases opened
    | some inv => rfl

/-- The decoder after a packet. -/
def decoderAfter (c : Option Container) (packet : Packet) : Decoder :=
  ((Decoder.decode id p.mode packet).outcome (p.decoderFor c)).2

/-- `q` is what a call of the player comes to, when its packet means `decoded` and leaves the decoder `d`. -/
inductive Called (c : Option Container) (decoded : Except Fault (Option Action)) (d : Decoder) : Played → Prop where
  | turn (answer : Except Fault (Option Outcome)) (scene : Scene) (report : Report)
      (course : Turn.Course (p.setting setup id c) decoded answer scene report) :
      Called c decoded d (p.after c d answer scene report)

theorem click_called (c : Option Container) (packet : Packet) :
    p.Called setup id c (p.decoded id c packet) (p.decoderAfter id c packet) (p.click setup id c packet) := by
  obtain ⟨answer, scene, report, run, course⟩ := Turn.click_course (g := p.setting setup id c)
    (t := { decoder := p.decoderFor c, scene := p.scene (c.map (·.inventory)) }) rfl packet (Prod.eta _).symm
  have same : p.click setup id c packet = p.after c (p.decoderAfter id c packet) answer scene report := by
    cases c with
    | none =>
      have own : (Turn.click setup Menu.player.process (p.clicker id) packet).outcome
          { decoder := p.decoder, scene := p.scene none } = _ := run
      simp only [click, clickOwn, own]
      rfl
    | some c =>
      have shared : (Turn.click setup c.menu.process (p.clicker id) packet).outcome
          { decoder := c.decoder, scene := p.scene (some c.inventory) } = _ := run
      simp only [click, clickContainer, shared]
      rfl
  rw [same]
  exact .turn answer scene report course

theorem creative_called (slot : Int) (stack : Stack) :
    p.Called setup id none (.ok (Decoder.decodeCreative p.mode slot stack)) p.decoder
      (p.creative setup id slot stack) := by
  obtain ⟨answer, scene, report, run, course⟩ := Turn.creative_course (g := p.setting setup id none)
    (t := { decoder := p.decoder, scene := p.scene none }) rfl slot stack
  have same : p.creative setup id slot stack = p.after none p.decoder answer scene report := by
    have own : (Turn.creative setup Menu.player.process (p.clicker id) slot stack).outcome
        { decoder := p.decoder, scene := p.scene none } = _ := run
    simp only [creative, own]
    rfl
  rw [same]
  exact .turn answer scene report course

section

variable {setup : Setup} {id : Nat} {p : Player} {c : Option Container} {decoded : Except Fault (Option Action)}
  {d : Decoder} {q : Played}

/-- A call follows the course of its turn. -/
theorem Called.course (called : p.Called setup id c decoded d q) :
    Turn.Course (p.setting setup id c) decoded q.answer q.scene q.report := by
  cases called with
  | turn answer scene report course =>
    have opened : scene.container.isSome = c.isSome := by
      have kinds := congrArg Option.isSome course.kinds.2
      simpa [setting, Player.scene] using kinds
    rw [p.scene_after opened]
    exact course

end

/-- **Atomicity.** A call that comes to its end leaves everything as it was or applies one outcome, and its effects
say which. -/
theorem calls_complete :
    (∀ c packet answer, (p.click setup id c packet).answer = .ok answer →
      ∃ decoded, p.decoded id c packet = .ok decoded ∧
        Turn.Completes (p.setting setup id c) decoded answer (p.click setup id c packet).scene
          (p.click setup id c packet).report) ∧
    ∀ slot stack answer, (p.creative setup id slot stack).answer = .ok answer →
      Turn.Completes (p.setting setup id none) (Decoder.decodeCreative p.mode slot stack) answer
        (p.creative setup id slot stack).scene (p.creative setup id slot stack).report := by
  constructor
  · intro c packet answer done
    have course := (p.click_called setup id c packet).course
    rw [done] at course
    exact course.completes
  · intro slot stack answer done
    have course := (p.creative_called setup id slot stack).course
    rw [done] at course
    obtain ⟨decoded, meant, completes⟩ := course.completes
    cases meant
    exact completes

/-- A stack of the hotbar, taken to the cursor. -/
theorem calls_complete_taking :
    let p := Player.ofInventory ((Inventory.empty .player).set 36 (.single .stone)) .empty .survival
    let packet : Packet := { mode := .click, slot := 36, button := 0 }
    let taken : Outcome := { playerChanges := NatMap.empty.insert 36 .empty, cursor := some (.single .stone) }
    (p.click {} 0 none packet).answer = .ok (some taken) ∧
      Turn.Completes (p.setting {} 0 none) (some (.click .left 36)) (some taken) (p.click {} 0 none packet).scene
        (p.click {} 0 none packet).report := by
  intro p packet taken
  have done : (p.click {} 0 none packet).answer = .ok (some taken) := by rfl
  obtain ⟨decoded, meant, completes⟩ := (p.calls_complete {} 0).1 none packet (some taken) done
  have same : p.decoded 0 none packet = .ok (some (.click .left 36)) := by rfl
  rw [same] at meant
  cases meant
  exact ⟨done, completes⟩

end Player

end InventoryClicks
