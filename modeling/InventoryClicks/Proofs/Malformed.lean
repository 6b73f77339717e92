import InventoryClicks.Proofs.DragHistory
import InventoryClicks.Proofs.Independence

/-!
# Malformed requests

Requests that are malformed or not allowed in the mode (`Decoder.Malformed`) yield no action, and no slot that any player has
dragged over is forgotten or added. So what is not malformed means the same with and without them
(`Decoder.decode_after_wellFormed`). They would leave the decoder as it is but for one of them: a packet that drags over a
slot which the window does not have begins a drag if the player has none, with no slots (`Decoder.serve_malformed`,
`Decoder.stray_begins_drag`).
-/

namespace InventoryClicks

namespace NatMap

variable {α : Type} {k : Nat} {a : α}

theorem size_insert {m : NatMap α} (absent : m.get? k = none) : (m.insert k a).size = m.size + 1 := by
  obtain ⟨l, asc⟩ := m
  simp only [size, insert, get?] at absent ⊢
  induction l with
  | nil => rfl
  | cons e l ih =>
    have later := ih (List.pairwise_cons.1 asc).2
    grind [insertEntry]

end NatMap

namespace DragTable

variable {t : DragTable} {b : Button} {player : Nat} {slots : List Nat}

/-- A new drag is one more. -/
theorem size_record (fresh : (t.get b).get? player = none) : (t.record b player slots).size = t.size + 1 := by
  have more := NatMap.size_insert (a := slots) fresh
  cases b <;> simp only [record, put, size] <;> simp only [get] at more ⊢ <;> omega

/-- Recording what is kept already changes nothing. -/
theorem record_self (kept : (t.get b).get? player = some slots) : t.record b player slots = t := by
  refine ext_get? fun k q => ?_
  rw [get?_record]
  split
  · next mine => rw [mine.1, mine.2, kept]
  · rfl

end DragTable

namespace Packet

/-- The mode of the packet knows its button. Some modes take any. -/
def knownButton (q : Packet) : Bool :=
  match q.mode with
  | .click => 0 ≤ q.button && q.button ≤ if q.slot = outside then 2 else 1
  | .hotbarKey => 0 ≤ q.button && q.button ≤ 8 || q.button == 40
  | .drag => q.button ∈ [0, 1, 2, 4, 5, 6, 8, 9, 10]
  | .shiftClick | .middleClick | .dropKey | .doubleClick => true

/-- The packet is about a slot. Of the parts of a drag only those with slots are. -/
def namesSlot (q : Packet) : Bool :=
  match q.mode with
  | .click => q.slot ≠ outside
  | .drag => q.button ∈ [1, 5, 9]
  | .shiftClick | .hotbarKey | .middleClick | .dropKey | .doubleClick => true

section

variable {q : Packet}

theorem knownButton_of_click (click : q.mode = .click) :
    q.knownButton = true ↔ 0 ≤ q.button ∧ q.button ≤ if q.slot = outside then 2 else 1 := by
  simp [knownButton, click]

theorem knownButton_of_hotbarKey (key : q.mode = .hotbarKey) :
    q.knownButton = true ↔ 0 ≤ q.button ∧ q.button ≤ 8 ∨ q.button = 40 := by
  simp [knownButton, key]

theorem knownButton_of_drag (drag : q.mode = .drag) : q.knownButton = true ↔ q.button ∈ [0, 1, 2, 4, 5, 6, 8, 9, 10] := by
  simp [knownButton, drag]

theorem namesSlot_of_click (click : q.mode = .click) : q.namesSlot = true ↔ q.slot ≠ outside := by
  simp [namesSlot, click]

theorem namesSlot_of_drag (drag : q.mode = .drag) : q.namesSlot = true ↔ q.button ∈ [1, 5, 9] := by
  simp [namesSlot, drag]

end

end Packet

namespace Decoder

open StepM

/-- Requests that are malformed, or not allowed in the mode. -/
inductive Malformed (d : Decoder) : Request → Prop
  | slot {player : Nat} {mode : GameMode} {q : Packet} (names : q.namesSlot = true) (outside : d.covers q.slot = false) :
    Malformed d (.click player mode q)
  | button {player : Nat} {mode : GameMode} {q : Packet} (unknown : ¬ q.knownButton = true) :
    Malformed d (.click player mode q)
  | middleClick {player : Nat} {mode : GameMode} {q : Packet} (click : q.mode = .middleClick) (barred : mode ≠ .creative) :
    Malformed d (.click player mode q)
  | middleDrag {player : Nat} {mode : GameMode} {q : Packet} (drag : q.mode = .drag) (middle : q.button ∈ [8, 9, 10])
      (barred : mode ≠ .creative) : Malformed d (.click player mode q)
  | creative {player : Nat} {mode : GameMode} {slot : Int} {stack : Stack} (barred : mode ≠ .creative) :
    Malformed d (.creative player mode slot stack)
  | creativeSlot {player : Nat} {mode : GameMode} {slot : Int} {stack : Stack}
      (outside : ¬ (slot = -1 ∨ 0 ≤ slot ∧ slot < Inventory.Kind.player.slotCount)) :
    Malformed d (.creative player mode slot stack)

theorem malformed_click_iff {d : Decoder} {player : Nat} {mode : GameMode} {q : Packet} :
    d.Malformed (.click player mode q) ↔ q.namesSlot = true ∧ d.covers q.slot = false ∨ ¬ q.knownButton = true ∨
      mode ≠ .creative ∧ (q.mode = .middleClick ∨ q.mode = .drag ∧ q.button ∈ [8, 9, 10]) := by
  constructor
  · intro malformed
    cases malformed with
    | slot names outside => exact .inl ⟨names, outside⟩
    | button unknown => exact .inr (.inl unknown)
    | middleClick click barred => exact .inr (.inr ⟨barred, .inl click⟩)
    | middleDrag drag middle barred => exact .inr (.inr ⟨barred, .inr ⟨drag, middle⟩⟩)
  · rintro (⟨names, outside⟩ | unknown | ⟨barred, click | ⟨drag, middle⟩⟩)
    · exact .slot names outside
    · exact .button unknown
    · exact .middleClick click barred
    · exact .middleDrag drag middle barred

theorem malformed_creative_iff {d : Decoder} {player : Nat} {mode : GameMode} {slot : Int} {stack : Stack} :
    d.Malformed (.creative player mode slot stack) ↔
      mode ≠ .creative ∨ ¬ (slot = -1 ∨ 0 ≤ slot ∧ slot < Inventory.Kind.player.slotCount) := by
  constructor
  · intro malformed
    cases malformed with
    | creative barred => exact .inl barred
    | creativeSlot outside => exact .inr outside
  · rintro (barred | outside)
    · exact .creative barred
    · exact .creativeSlot outside

instance (d : Decoder) : DecidablePred d.Malformed
  | .click .. => decidable_of_iff _ malformed_click_iff.symm
  | .creative .. => decidable_of_iff _ malformed_creative_iff.symm
  | .forget _ => .isFalse fun malformed => nomatch malformed

section

variable {d : Decoder} {player size : Nat} {mode : GameMode} {q : Packet} {r : Request} {k : Stroke}

/-- Whether requests are malformed does not change over time. -/
theorem Malformed.of_windowSize {d' : Decoder} (same : d'.windowSize = d.windowSize)
    (malformed : d.Malformed r) : d'.Malformed r := by
  have covers : d'.covers = d.covers := by
    unfold Decoder.covers
    rw [same]
  cases malformed with
  | slot names outside => exact .slot names (by rw [covers, outside])
  | button unknown => exact .button unknown
  | middleClick click barred => exact .middleClick click barred
  | middleDrag drag middle barred => exact .middleDrag drag middle barred
  | creative barred => exact .creative barred
  | creativeSlot outside => exact .creativeSlot outside

/-- What an accepted part of a drag is. -/
theorem of_stroke?_eq_some (told : (Request.click player mode q).stroke? = some k) :
    q.mode = .drag ∧ Packet.dragPart? q.button = some (k.button, k.part) ∧ (k.button = .middle → mode = .creative) ∧
      k.slot = q.slot := by
  simp only [Request.stroke?] at told
  split at told
  · next drag =>
    split at told
    · next button part read =>
      split at told
      · cases told
      · next may =>
        cases told
        exact ⟨drag, read, fun middle => Decidable.not_not.1 fun barred => may ⟨middle, barred⟩, rfl⟩
    · cases told
  · cases told

theorem button_of_dragPart? {button : Int} {kind : Button} {part : Packet.DragPart}
    (read : Packet.dragPart? button = some (kind, part)) :
    button ∈ [0, 1, 2, 4, 5, 6, 8, 9, 10] ∧ (button ∈ [1, 5, 9] → part = .slot) ∧
      (button ∈ [8, 9, 10] → kind = .middle) := by
  unfold Packet.dragPart? at read
  split at read <;> cases read <;> simp

/-- The only malformed parts of a drag that are accepted name a slot that the window does not have. -/
theorem Malformed.stray (malformed : d.Malformed r) (told : r.stroke? = some k) :
    k.part = .slot ∧ d.covers k.slot = false := by
  cases malformed with
  | slot names outside =>
    obtain ⟨drag, read, -, here⟩ := of_stroke?_eq_some told
    rw [Packet.namesSlot_of_drag drag] at names
    rw [here]
    exact ⟨(button_of_dragPart? read).2.1 names, outside⟩
  | button unknown =>
    obtain ⟨drag, read, -⟩ := of_stroke?_eq_some told
    rw [Packet.knownButton_of_drag drag] at unknown
    exact absurd (button_of_dragPart? read).1 unknown
  | middleClick click barred =>
    obtain ⟨drag, -⟩ := of_stroke?_eq_some told
    rw [click] at drag
    cases drag
  | middleDrag drag middle barred =>
    obtain ⟨-, read, may, -⟩ := of_stroke?_eq_some told
    exact absurd (may ((button_of_dragPart? read).2.2 middle)) barred
  | creative barred => cases told
  | creativeSlot outside => cases told

theorem slot?_of_uncovered (window : d.windowSize = .ok size) {slot : Int} (uncovered : d.covers slot = false) :
    d.slot? slot = .ok none := by
  cases named : d.slot? slot with
  | error e =>
    unfold slot? at named
    rw [window] at named
    split at named <;> cases named
  | ok s? =>
    cases s? with
    | none => rfl
    | some s => exact absurd named (slot?_ne_some uncovered s)

theorem extend_of_uncovered {slot : Int} (uncovered : d.covers slot = false) (slots : List Nat) :
    d.extend slots slot = slots := by
  refine if_neg fun added => ?_
  rw [uncovered] at added
  cases added.1

/-- Malformed packets other than parts of a drag. -/
theorem slotAction_of_malformed (malformed : d.Malformed (.click player mode q)) (whole : q.mode ≠ .drag)
    (within : ¬ (q.mode = .click ∧ q.slot = Packet.outside)) (covered : d.covers q.slot = true) (slot : Nat) :
    slotAction mode q slot = none := by
  cases malformed with
  | slot names outside =>
    rw [covered] at outside
    cases outside
  | button unknown =>
    unfold slotAction
    split
    · next click =>
      have inside : q.slot ≠ Packet.outside := fun out => within ⟨click, out⟩
      rw [Packet.knownButton_of_click click, if_neg inside] at unknown
      split
      · omega
      · omega
      · rfl
    · next shift => exact absurd (by simp [Packet.knownButton, shift]) unknown
    · next key =>
      rw [Packet.knownButton_of_hotbarKey key] at unknown
      rw [if_neg (by omega), if_neg (by omega)]
    · next middle => exact absurd (by simp [Packet.knownButton, middle]) unknown
    · next drop => exact absurd (by simp [Packet.knownButton, drop]) unknown
    · next collect => exact absurd (by simp [Packet.knownButton, collect]) unknown
    · rfl
  | middleClick click barred =>
    rw [slotAction, click]
    exact if_neg barred
  | middleDrag drag middle barred => exact absurd drag whole

/-- A click outside of the window that is malformed has a button that drops nothing. -/
theorem outsideAction_of_malformed (malformed : d.Malformed (.click player mode q)) (click : q.mode = .click)
    (out : q.slot = Packet.outside) : outsideAction q.button = none := by
  cases malformed with
  | slot names outside => exact absurd out ((Packet.namesSlot_of_click click).1 names)
  | button unknown =>
    rw [Packet.knownButton_of_click click, if_pos out] at unknown
    unfold outsideAction
    split
    · omega
    · omega
    · omega
    · rfl
  | middleClick middle barred =>
    rw [click] at middle
    cases middle
  | middleDrag drag middle barred =>
    rw [click] at drag
    cases drag

theorem decodeCreative_of_malformed {slot : Int} {stack : Stack} (malformed : d.Malformed (.creative player mode slot stack)) :
    decodeCreative mode slot stack = none := by
  unfold decodeCreative
  cases malformed with
  | creative barred => exact if_pos barred
  | creativeSlot outside =>
    split
    · rfl
    · rw [if_neg fun throws => outside (.inl throws), if_neg fun inside => outside (.inr inside)]

/-- Malformed requests mean nothing. -/
theorem Malformed.answer (window : d.windowSize = .ok size) (malformed : d.Malformed r) : (d.serve r).1 = .ok none := by
  cases r with
  | click player mode q =>
    cases told : (Request.click player mode q).stroke? with
    | some k =>
      obtain ⟨part, uncovered⟩ := malformed.stray told
      rw [serve_of_stroke? told, part]
      show (fun _ => none) <$> d.slot? k.slot = .ok none
      rw [slot?_of_uncovered window uncovered]
      rfl
    | none =>
      show ((decode player mode q).outcome d).1 = .ok none
      by_cases drag : q.mode = .drag
      · rw [outcome_decode_of_stroke?_eq_none d drag told]
      by_cases out : q.mode = .click ∧ q.slot = Packet.outside
      · rw [decode, if_neg drag, if_pos out, outcome_pure, outsideAction_of_malformed malformed out.1 out.2]
      rw [outcome_decode_slot d player mode drag out]
      cases covered : d.covers q.slot with
      | false =>
        rw [slot?_of_uncovered window covered]
        rfl
      | true =>
        rw [slot?_of_covers covered]
        exact congrArg Except.ok (slotAction_of_malformed malformed drag out covered _)
  | creative player mode slot stack => exact congrArg Except.ok (decodeCreative_of_malformed malformed)
  | forget player => cases malformed

/-- Malformed requests change no slots of any drag. -/
theorem Malformed.advance (malformed : d.Malformed r) (button : Button) (player : Nat) (slots : List Nat) :
    r.advance d button player slots = slots := by
  cases told : r.stroke? with
  | none =>
    cases r with
    | click player mode q => exact Request.advance_of_untold told
    | creative player mode slot stack => rfl
    | forget player => cases malformed
  | some k =>
    obtain ⟨part, uncovered⟩ := malformed.stray told
    rw [Request.advance_of_told told, if_pos part, extend_of_uncovered uncovered, ite_self]

theorem Malformed.slots (malformed : d.Malformed r) (button : Button) (player : Nat) :
    (d.serve r).2.drags.slots button player = d.drags.slots button player := by
  rw [slots_serve, malformed.advance]

end

/-- The packet drags over a slot that the window does not have, and its player has no drag with that button. -/
structure Strays (d : Decoder) (r : Request) (k : Stroke) : Prop where
  told : r.stroke? = some k
  part : k.part = .slot
  uncovered : d.covers k.slot = false
  idle : (d.drags.get k.button).get? k.player = none

section

variable {d : Decoder} {r : Request} {k : Stroke}

/-- A slot that the window does not have leaves the player's drag as it is, or begins one without slots. -/
theorem serve_of_uncovered (told : r.stroke? = some k) (part : k.part = .slot) (uncovered : d.covers k.slot = false) :
    (d.serve r).2 = { d with drags := d.drags.record k.button k.player (d.drags.slots k.button k.player) } := by
  have kept : d.extend (d.drags.slots k.button k.player) k.slot = d.drags.slots k.button k.player :=
    extend_of_uncovered uncovered _
  rw [serve_of_stroke? told, part]
  simp only [kept]

theorem Malformed.serve_of_not_strays (malformed : d.Malformed r) (calm : ∀ k, ¬ d.Strays r k) : (d.serve r).2 = d := by
  cases told : r.stroke? with
  | none =>
    cases r with
    | click player mode q => exact (serve_of_stroke?_eq_none told).1
    | creative player mode slot stack => rfl
    | forget player => cases malformed
  | some k =>
    obtain ⟨part, uncovered⟩ := malformed.stray told
    cases kept : (d.drags.get k.button).get? k.player with
    | none => exact absurd ⟨told, part, uncovered, kept⟩ (calm k)
    | some slots =>
      have own : d.drags.slots k.button k.player = slots := by rw [DragTable.slots, kept, Option.getD_some]
      rw [serve_of_uncovered told part uncovered, own, DragTable.record_self kept]

theorem Strays.serve (strays : d.Strays r k) :
    (d.serve r).2 = { d with drags := d.drags.record k.button k.player [] } := by
  have none : d.drags.slots k.button k.player = [] := by rw [DragTable.slots, strays.idle, Option.getD_none]
  rw [serve_of_uncovered strays.told strays.part strays.uncovered, none]

/-- **Malformed requests.** They mean nothing, and no slot of any drag changes. The decoder stays as it is, unless the
packet drags over a slot that the window does not have and its player has no drag with that button: then one begins. -/
theorem serve_malformed (malformed : d.Malformed r) :
    (∀ size, d.windowSize = .ok size → (d.serve r).1 = .ok none) ∧
      (∀ button player, (d.serve r).2.drags.slots button player = d.drags.slots button player) ∧
      ((∀ k, ¬ d.Strays r k) → (d.serve r).2 = d) ∧
      ∀ k, d.Strays r k → (d.serve r).2 = { d with drags := d.drags.record k.button k.player [] } ∧
        (d.serve r).2.pendingDrags = d.pendingDrags + 1 := by
  refine ⟨fun size window => malformed.answer window, malformed.slots, malformed.serve_of_not_strays, fun k strays => ?_⟩
  refine ⟨strays.serve, ?_⟩
  rw [strays.serve]
  exact DragTable.size_record strays.idle

/-- A player who has dragged over a slot drags over one that a chest does not have. -/
theorem serve_malformed_pending :
    let d : Decoder := { ofInventory (.empty .generic9x3) with drags := DragTable.record {} .left 0 [3] }
    let r : Request := .click 0 .survival { mode := .drag, slot := 100, button := 1 }
    d.Malformed r ∧ (d.serve r).1 = .ok none ∧ (d.serve r).2 = d := by
  intro d r
  have malformed : d.Malformed r := by decide
  have calm (k : Stroke) : ¬ d.Strays r k := by
    intro strays
    cases strays.told
    exact absurd strays.idle (by decide)
  obtain ⟨answer, -, stays, -⟩ := serve_malformed malformed
  exact ⟨malformed, answer 63 (by decide), stays calm⟩

/-- A packet for slot 100 of a chest, which has 63 with those of the player, leaves a player with a drag that never
started. -/
theorem stray_begins_drag :
    let d := ofInventory (.empty .generic9x3)
    let r : Request := .click 0 .survival { mode := .drag, slot := 100, button := 1 }
    d.Malformed r ∧ (d.serve r).1 = .ok none ∧ d.pendingDrags = 0 ∧ (d.serve r).2.pendingDrags = 1 := by
  decide

end

section

variable (d : Decoder) (history : List Request)

/-- The slots of every drag are those that the requests that are not malformed have added. -/
theorem slots_after_wellFormed (button : Button) (player : Nat) :
    (d.after (history.filter fun r => ¬ d.Malformed r)).drags.slots button player =
      (d.after history).drags.slots button player := by
  induction history using List.reverseRecOn with
  | nil => rfl
  | append_singleton history r ih =>
    rw [List.filter_append, after_concat]
    by_cases malformed : d.Malformed r
    · have later : (d.after history).Malformed r := malformed.of_windowSize (d.windowSize_after history)
      rw [later.slots, List.filter_cons_of_neg (by simp [malformed]), List.filter_nil, List.append_nil, ih]
    · rw [List.filter_cons_of_pos (by simp [malformed]), List.filter_nil, after_concat, slots_serve, slots_serve, ih]
      simp only [Request.advance, extend_congr (d.windowSize_after _)]

/-- No later packet is read differently because of malformed requests. -/
theorem decode_after_wellFormed (player : Nat) (mode : GameMode) (q : Packet) :
    ((decode player mode q).outcome (d.after (history.filter fun r => ¬ d.Malformed r))).1 =
      ((decode player mode q).outcome (d.after history)).1 := by
  obtain ⟨f, -, alike⟩ := outcome_decode_alike player mode q (d.after history)
  rw [alike _ ⟨by rw [windowSize_after, windowSize_after], fun button => d.slots_after_wellFormed history button player⟩]

end

end Decoder

end InventoryClicks
