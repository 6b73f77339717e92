import InventoryClicks.Session.Basic
import InventoryClicks.Proofs.DragHistory
import InventoryClicks.Proofs.Footprint

/-!
# Independent clicks commute

Two players who share a container do not notice each other as long as their clicks name different slots of it. Each click
reads what it names and nothing else, writes no more than that, and touches no drags but the player's own; so two such
clicks may come in either order (`Session.clicks_commute`). The order shows neither in the answers nor in the effects.
-/

namespace InventoryClicks

namespace DragTable

variable {t u : DragTable} {b k : Button} {player q : Nat}

theorem get?_forget : ((t.forget b player).get k).get? q = if k = b ∧ q = player then none else (t.get k).get? q := by
  unfold forget
  rw [get_put]
  by_cases button : k = b
  · by_cases who : q = player <;> simp [button, who, NatMap.get?_erase]
  · simp [button]

theorem get?_record {slots : List Nat} :
    ((t.record b player slots).get k).get? q = if k = b ∧ q = player then some slots else (t.get k).get? q := by
  unfold record
  rw [get_put]
  by_cases button : k = b
  · by_cases who : q = player <;> simp [button, who, NatMap.get?_insert]
  · simp [button]

/-- A table is what it keeps for every button and player. -/
theorem ext_get? (same : ∀ k q, (t.get k).get? q = (u.get k).get? q) : t = u := by
  have left : t.left = u.left := NatMap.ext_get? (same .left)
  have right : t.right = u.right := NatMap.ext_get? (same .right)
  have middle : t.middle = u.middle := NatMap.ext_get? (same .middle)
  cases t
  cases u
  cases left
  cases right
  cases middle
  rfl

/-- What a packet of a player may do to a table: nothing, or something to one drag of that player. -/
inductive Edit (player : Nat) : (DragTable → DragTable) → Prop where
  | keep : Edit player id
  | forget (button : Button) : Edit player (·.forget button player)
  | record (button : Button) (slots : List Nat) : Edit player (·.record button player slots)

namespace Edit

variable {f g : DragTable → DragTable} {i j : Nat}

/-- Drags of other players stay. -/
theorem get?_other (edit : Edit player f) (other : q ≠ player) : ((f t).get k).get? q = (t.get k).get? q := by
  cases edit with
  | keep => rfl
  | forget button => simp [get?_forget, other]
  | record button slots => simp [get?_record, other]

/-- The player's own drags are edited the same, whatever else the table holds. -/
theorem get?_own (edit : Edit player f) (same : (t.get k).get? player = (u.get k).get? player) :
    ((f t).get k).get? player = ((f u).get k).get? player := by
  cases edit with
  | keep => exact same
  | forget button => simp [get?_forget, same]
  | record button slots => simp [get?_record, same]

theorem comm (first : Edit i f) (second : Edit j g) (apart : i ≠ j) : g (f t) = f (g t) := by
  apply ext_get?
  intro k q
  by_cases mine : q = i
  · rw [mine, second.get?_other apart]
    exact first.get?_own (second.get?_other apart).symm
  · rw [first.get?_other mine]
    by_cases theirs : q = j
    · rw [theirs]
      exact second.get?_own (first.get?_other apart.symm)
    · rw [second.get?_other theirs, second.get?_other theirs, first.get?_other mine]

end Edit

end DragTable

namespace Decoder

open StepM

/-- A decoder that reads the packets of the player alike. -/
structure Alike (player : Nat) (d d' : Decoder) : Prop where
  windowSize : d'.windowSize = d.windowSize
  slots : ∀ button, d'.drags.slots button player = d.drags.slots button player

theorem Alike.refl (player : Nat) (d : Decoder) : d.Alike player d := ⟨rfl, fun _ => rfl⟩

/-- A packet is read with what the decoder keeps for its player, and edits nothing else. -/
theorem outcome_decode_alike (player : Nat) (mode : GameMode) (packet : Packet) (d : Decoder) :
    ∃ f, DragTable.Edit player f ∧ ∀ d', d.Alike player d' → (decode player mode packet).outcome d' =
      (((decode player mode packet).outcome d).1, { d' with drags := f d'.drags }) := by
  have keep (action? : Option Action) : ∃ f, DragTable.Edit player f ∧ ∀ d', d.Alike player d' →
      (pure action? : StepM Decoder (Option Action)).outcome d' = (.ok action?, { d' with drags := f d'.drags }) :=
    ⟨id, .keep, fun d' _ => rfl⟩
  by_cases drag : packet.mode = .drag
  · simp only [decode, if_pos drag]
    unfold decodeDrag
    split
    · exact keep none
    · next button part _ =>
      split
      · exact keep none
      · cases part with
        | start => exact ⟨_, .forget button, fun d' _ => rfl⟩
        | slot =>
          refine ⟨_, .record button (d.extend (d.drags.slots button player) packet.slot), fun d' alike => ?_⟩
          simp only [outcome_addDragSlot, alike.slots, extend_congr alike.windowSize, slot?, alike.windowSize]
        | finish =>
          refine ⟨_, .forget button, fun d' alike => ?_⟩
          have drag {d : Decoder} : (finishDrag button player).outcome d =
              (.ok (some (.drag button (d.drags.slots button player))),
                { d with drags := d.drags.forget button player }) := rfl
          simp only [drag, alike.slots]
  · by_cases out : packet.mode = .click ∧ packet.slot = Packet.outside
    · simp only [decode, if_neg drag, if_pos out]
      exact keep _
    · refine ⟨id, .keep, fun d' alike => ?_⟩
      rw [outcome_decode_slot d player mode drag out, outcome_decode_slot d' player mode drag out]
      simp only [slot?, alike.windowSize]
      rfl

variable {i j : Nat} (apart : i ≠ j) (mode mode' : GameMode) (x y : Packet) (d : Decoder)

include apart

/-- Packets of one player do not show in how those of another are read. -/
theorem alike_decode : d.Alike j ((decode i mode x).outcome d).2 := by
  obtain ⟨f, edit, decode⟩ := outcome_decode_alike i mode x d
  rw [decode d (.refl i d)]
  constructor
  · rfl
  · intro button
    show (((f d.drags).get button).get? j).getD [] = ((d.drags.get button).get? j).getD []
    rw [edit.get?_other apart.symm]

/-- Packets of two players leave the same decoder in either order. -/
theorem decode_comm :
    ((decode j mode' y).outcome ((decode i mode x).outcome d).2).2 =
      ((decode i mode x).outcome ((decode j mode' y).outcome d).2).2 := by
  obtain ⟨f, edit, first⟩ := outcome_decode_alike i mode x d
  obtain ⟨g, edit', second⟩ := outcome_decode_alike j mode' y d
  rw [second _ (alike_decode apart mode x d), first _ (alike_decode apart.symm mode' y d), first d (.refl i d),
    second d (.refl j d)]
  simp only [edit.comm edit' apart]

end Decoder

theorem Inventory.overwrite_comm (inv : Inventory) {m n : NatMap Stack}
    (apart : ∀ slot s, m.get? slot = some s → n.get? slot = none) :
    (inv.overwrite m).overwrite n = (inv.overwrite n).overwrite m := by
  refine ext_get? rfl fun slot => ?_
  simp only [get?_overwrite, Option.map_map]
  congr 1
  funext old
  rcases staged : m.get? slot with _ | s
  · simp
  · simp [apart slot s staged]

/-- The player after an outcome has been applied next to an open container. -/
def Player.rewritten (p : Player) (o : Outcome) : Player :=
  { p with inventory := p.inventory.overwrite o.playerChanges, cursor := o.cursor.getD p.cursor }

/-- The container after an outcome has been applied, and its decoder has read a packet. -/
def Container.rewritten (c : Container) (o : Outcome) (d : Decoder) : Container :=
  { c with inventory := c.inventory.overwrite o.changes, decoder := d }

/-- Actions on a container with `size` slots that do not name the same one, and look at no others. -/
structure Action.Apart (size : Nat) (a b : Action) : Prop where
  left : a.Local size
  right : b.Local size
  slots : ∀ slot < size, slot ∈ a.slots → slot ∉ b.slots

theorem Action.Apart.symm {size : Nat} {a b : Action} (apart : a.Apart size b) : b.Apart size a :=
  ⟨apart.right, apart.left, fun slot below named named' => apart.slots slot below named' named⟩

namespace Player

variable {setup : Setup} {p q : Player} {i j : Nat} {c : Container} {x y : Packet} {a b : Action}

theorem click_shared (unhooked : setup.hooks = {}) (i : Nat) (p : Player) (c : Container) (x : Packet) :
    let r := p.ruling setup i (some c) x
    p.click setup i (some c) x =
      { answer := r.answer, report := r.report i, player := p.rewritten r.written,
        container := some (c.rewritten r.written (p.decoderAfter i (some c) x)) } := by
  rw [click_unhooked unhooked]
  rfl

section

variable (standard : c.menu = .ofKind c.inventory.kind) (kind : c.inventory.kind ≠ .player)

include standard kind

/-- The ruling on a local action does not change with stacks in other slots of the container, or with what its decoder
keeps for other players; and it writes container slots that the action names. -/
theorem ruling_rewritten (means : p.decoded i (some c) x = .ok (some a)) (locally : a.Local c.inventory.slotCount)
    {o : Outcome} (aside : ∀ slot < c.inventory.slotCount, slot ∈ a.slots → o.changes.get? slot = none) {d : Decoder}
    (alike : c.decoder.Alike i d) :
    p.ruling setup i (some (c.rewritten o d)) x = p.ruling setup i (some c) x ∧
      ∀ slot s, (p.ruling setup i (some c) x).written.changes.get? slot = some s →
        slot < c.inventory.slotCount ∧ slot ∈ a.slots := by
  let seen : Nat → Prop := fun slot => slot < c.inventory.slotCount ∧ slot ∈ a.slots
  have others : c.inventory.Alike seen (c.inventory.overwrite o.changes) := by
    constructor
    · rfl
    · intro slot named
      rw [Inventory.get?_overwrite, aside slot named.1 named.2]
      simp
  have around : Scene.Around c.inventory (c.inventory.overwrite o.changes) (p.scene (some c.inventory))
      (p.scene (some (c.inventory.overwrite o.changes))) := ⟨rfl, rfl, rfl, rfl⟩
  have decoded : p.decoded i (some (c.rewritten o d)) x = p.decoded i (some c) x := by
    obtain ⟨f, -, decode⟩ := Decoder.outcome_decode_alike i p.mode x c.decoder
    show ((Decoder.decode i p.mode x).outcome d).1 = ((Decoder.decode i p.mode x).outcome c.decoder).1
    rw [decode d alike]
  have only {a' : Action} (is : p.decoded i (some c) x = .ok (some a')) : a' = a := by
    rw [means] at is
    cases is
    rfl
  obtain ⟨same, within⟩ := Turn.judge_alike setup kind (p.clicker i) others around
    (fun a' is => by rw [only is]; exact locally) (fun a' is slot named below => ⟨below, by rw [← only is]; exact named⟩)
  simp only [ruling, setting, Option.map_some, Option.getD_some, decoded]
  simp only [Container.rewritten, standard]
  exact ⟨same, within⟩

theorem written_within (means : p.decoded i (some c) x = .ok (some a)) (locally : a.Local c.inventory.slotCount)
    {slot : Nat} {s : Stack} (changed : (p.ruling setup i (some c) x).written.changes.get? slot = some s) :
    slot < c.inventory.slotCount ∧ slot ∈ a.slots :=
  (ruling_rewritten (o := {}) standard kind means locally (fun _ _ _ => rfl) (.refl i c.decoder)).2 slot s changed

section

variable (first : p.decoded i (some c) x = .ok (some a)) (second : q.decoded j (some c) y = .ok (some b))
  (independent : a.Apart c.inventory.slotCount b)

include first second independent

/-- What the first click changes in the container, the second does not. -/
theorem written_apart (setup : Setup) {slot : Nat} {s : Stack}
    (changed : (p.ruling setup i (some c) x).written.changes.get? slot = some s) :
    (q.ruling setup j (some c) y).written.changes.get? slot = none := by
  by_contra again
  obtain ⟨s', changed'⟩ := Option.ne_none_iff_exists'.1 again
  obtain ⟨below, named⟩ := written_within standard kind first independent.left changed
  obtain ⟨-, named'⟩ := written_within standard kind second independent.right changed'
  exact independent.slots slot below named named'

/-- The second click is ruled on as if the first had not been. -/
theorem ruling_undisturbed (setup : Setup) (apart : i ≠ j) :
    q.ruling setup j (some (c.rewritten (p.ruling setup i (some c) x).written (p.decoderAfter i (some c) x))) y =
      q.ruling setup j (some c) y := by
  refine (ruling_rewritten standard kind second independent.right ?_ (Decoder.alike_decode apart p.mode x c.decoder)).1
  intro slot below named
  by_contra changed
  obtain ⟨s, changed⟩ := Option.ne_none_iff_exists'.1 changed
  obtain ⟨-, named'⟩ := written_within standard kind first independent.left changed
  exact independent.slots slot below named' named

end

end

end Player

namespace Session

variable {setup : Setup} {s : Session} {i j k : Nat} {p q : Player} {c : Container}

theorem step_shared (unhooked : setup.hooks = {}) (here : s.players[i]? = some p) (there : s.containers[k]? = some c)
    (x : Packet) :
    let r := p.ruling setup i (some c) x
    s.step setup (.click i (some k) x) = ({ answer := r.answer, report := r.report i },
      (s.setPlayer i (p.rewritten r.written)).setContainer k (c.rewritten r.written (p.decoderAfter i (some c) x))) := by
  have played := p.click_shared unhooked i c x
  unfold Player.click at played
  simp only [step, here, there, played, Option.getD_some]

/-- Two calls on one container, the second of which is ruled on as if the first had not been. -/
theorem run_pair (unhooked : setup.hooks = {}) (apart : i ≠ j) (here : s.players[i]? = some p)
    (there : s.players[j]? = some q) (shared : s.containers[k]? = some c) {x y : Packet} {c' : Container}
    (left : c.rewritten (p.ruling setup i (some c) x).written (p.decoderAfter i (some c) x) = c')
    (undisturbed : q.ruling setup j (some c') y = q.ruling setup j (some c) y) :
    let ra := p.ruling setup i (some c) x
    let rb := q.ruling setup j (some c) y
    s.run setup [.click i (some k) x, .click j (some k) y] =
      ([{ answer := ra.answer, report := ra.report i }, { answer := rb.answer, report := rb.report j }],
        ((s.setPlayer i (p.rewritten ra.written)).setPlayer j (q.rewritten rb.written)).setContainer k
          (c'.rewritten rb.written (q.decoderAfter j (some c') y))) := by
  intro ra rb
  have room : k < s.containers.length := (List.getElem?_eq_some_iff.1 shared).1
  have there' : ((s.setPlayer i (p.rewritten ra.written)).setContainer k c').players[j]? = some q := by
    show (s.players.set i _)[j]? = some q
    rw [List.getElem?_set_ne apart, there]
  have shared' : ((s.setPlayer i (p.rewritten ra.written)).setContainer k c').containers[k]? = some c' := by
    show (s.containers.set k _)[k]? = some c'
    rw [List.getElem?_set_self room]
  have second := step_shared unhooked there' shared' y
  have twice (s : Session) (q : Player) (d : Container) :
      ((s.setContainer k c').setPlayer j q).setContainer k d = (s.setPlayer j q).setContainer k d := by
    simp [setContainer, setPlayer]
  simp only [run_cons, run_nil, step_shared unhooked here shared x]
  rw [left, second, undisturbed, twice]

/-- **Independence.** Without hooks, two players click in a shared container in either order: both calls answer the same
and have the same effects, and the container, the inventories and the cursors end up the same. -/
theorem clicks_commute (unhooked : setup.hooks = {}) (apart : i ≠ j) (here : s.players[i]? = some p)
    (there : s.players[j]? = some q) (shared : s.containers[k]? = some c) (kind : c.inventory.kind ≠ .player)
    (standard : c.menu = .ofKind c.inventory.kind) (x y : Packet) (a b : Action)
    (first : p.decoded i (some c) x = .ok (some a)) (second : q.decoded j (some c) y = .ok (some b))
    (independent : a.Apart c.inventory.slotCount b) :
    ∃ ra rb s', s.run setup [.click i (some k) x, .click j (some k) y] = ([ra, rb], s') ∧
      s.run setup [.click j (some k) y, .click i (some k) x] = ([rb, ra], s') := by
  have undisturbed := Player.ruling_undisturbed standard kind first second independent setup apart
  have undisturbed' := Player.ruling_undisturbed standard kind second first independent.symm setup apart.symm
  refine ⟨_, _, _, run_pair unhooked apart here there shared rfl undisturbed, ?_⟩
  rw [run_pair unhooked apart.symm there here shared rfl undisturbed']
  congr 1
  -- the same writes, of players and of container slots, in the other order
  have inventories := c.inventory.overwrite_comm fun _ _ changed =>
    Player.written_apart standard kind first second independent setup changed
  have decoders := Decoder.decode_comm apart p.mode q.mode x y c.decoder
  have players := List.set_comm (p.rewritten (p.ruling setup i (some c) x).written)
    (q.rewritten (q.ruling setup j (some c) y).written) apart (l := s.players)
  simp only [setContainer, setPlayer, Container.rewritten, players, inventories]
  simp only [Player.decoderAfter, Player.decoderFor, Option.map_some, Option.getD_some, decoders]

/-- One player puts a stack into a hopper while another one takes a stack out of it. -/
theorem clicks_commute_hopper :
    let hopper := Container.ofInventory ((Inventory.empty .hopper).set 1 (.of .dirt 5 none))
    let giver := Player.ofInventory (.empty .player) (.single .stone) .survival
    let taker := Player.ofInventory (.empty .player) .empty .survival
    let s : Session := { players := [giver, taker], containers := [hopper] }
    let give : Call := .click 0 (some 0) { mode := .click, slot := 0, button := 0 }
    let take : Call := .click 1 (some 0) { mode := .shiftClick, slot := 1, button := 0 }
    (s.run {} [give, take]).2.containers.map (·.inventory.slots.take 2) = [[.single .stone, .empty]] ∧
      ∃ ra rb s', s.run {} [give, take] = ([ra, rb], s') ∧ s.run {} [take, give] = ([rb, ra], s') := by
  intro hopper giver taker s give take
  have apart : Action.Apart 5 (.click .left 0) (.shift false 1) := by
    refine ⟨trivial, ?_, ?_⟩
    · show 1 < 5
      omega
    · intro slot _ named named'
      have zero : slot = 0 := by simpa [Action.slots] using named
      simp [zero, Action.slots] at named'
  refine ⟨by decide, ?_⟩
  exact clicks_commute (p := giver) (q := taker) (c := hopper) rfl (by decide) rfl rfl rfl (by decide) rfl
    { mode := .click, slot := 0, button := 0 } { mode := .shiftClick, slot := 1, button := 0 } (.click .left 0)
    (.shift false 1) rfl rfl apart

end Session

end InventoryClicks
