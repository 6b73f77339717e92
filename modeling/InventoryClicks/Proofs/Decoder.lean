import InventoryClicks.Click.Admission
import InventoryClicks.Click.Decoder
import InventoryClicks.Proofs.Ends

/-!
# Decoded actions are allowed

An action is allowed in a window of some size and a game mode exactly if the admission check finds no flaw in it. The
check is not made on actions that come straight from a decoder. It need not be: a decoder that was made for an inventory
only ever answers allowed actions (`Decoder.decode_reads`), whatever packets it was sent before.
-/

namespace InventoryClicks

namespace Action

/-- What an action must satisfy in a window with `size` slots. -/
structure Allowed (a : Action) (size : Nat) (mode : GameMode) : Prop where
  creative : a.isCreative = true → mode = .creative
  hotbar : a.badHotbar? = none
  slots : ∀ slot ∈ a.slots, slot < size

theorem Allowed.mono {a : Action} {size size' : Nat} {mode : GameMode} (allowed : a.Allowed size mode)
    (larger : size ≤ size') : a.Allowed size' mode where
  creative := allowed.creative
  hotbar := allowed.hotbar
  slots slot mem := Nat.lt_of_lt_of_le (allowed.slots slot mem) larger

theorem lt_of_badHotbar?_eq_none {hotbar slot : Nat} (within : (hotbarSwap hotbar slot).badHotbar? = none) :
    hotbar < 9 := by
  simpa only [badHotbar?, ite_eq_left_iff, reduceCtorEq, imp_false, Nat.not_lt, Nat.not_le] using within

theorem flaw?_eq_none_iff {a : Action} {w : Window} {mode : GameMode} :
    a.flaw? w mode = none ↔ a.Allowed w.slotCount mode := by
  unfold flaw?
  by_cases creative : (a.isCreative && mode != .creative) = true
  · rw [if_pos creative]
    simp only [Bool.and_eq_true, bne_iff_ne] at creative
    simp only [reduceCtorEq, false_iff]
    exact fun allowed => creative.2 (allowed.creative creative.1)
  · rw [if_neg creative]
    simp only [Bool.and_eq_true, bne_iff_ne, not_and, Decidable.not_not] at creative
    rcases hotbar : a.badHotbar? with _ | index
    · simp only [Option.map_eq_none_iff, List.find?_eq_none, decide_eq_true_eq, Nat.not_le]
      exact ⟨fun slots => ⟨creative, hotbar, slots⟩, fun allowed => allowed.slots⟩
    · simp only [reduceCtorEq, false_iff]
      intro allowed
      rw [allowed.hotbar] at hotbar
      cases hotbar

end Action

namespace DragTable

variable {t : DragTable} {b k : Button} {player q : Nat}

theorem get_put (t : DragTable) (b k : Button) (m : NatMap (List Nat)) :
    (t.put b m).get k = if k = b then m else t.get k := by
  cases b <;> cases k <;> rfl

theorem slots_record (t : DragTable) (b k : Button) (player q : Nat) (slots : List Nat) :
    (t.record b player slots).slots k q = if k = b ∧ q = player then slots else t.slots k q := by
  unfold DragTable.slots record
  rw [get_put]
  by_cases button : k = b
  · by_cases who : q = player <;> simp [button, who, NatMap.get?_insert]
  · simp [button]

theorem slots_forget (t : DragTable) (b k : Button) (player q : Nat) :
    (t.forget b player).slots k q = if k = b ∧ q = player then [] else t.slots k q := by
  unfold DragTable.slots forget
  rw [get_put]
  by_cases button : k = b
  · by_cases who : q = player <;> simp [button, who, NatMap.get?_erase]
  · simp [button]

end DragTable

namespace Decoder

open StepM

variable {d : Decoder} {size player : Nat} {mode : GameMode}

/-- The decoder reads clicks on a window with `size` slots, and has seen drags over these slots only. -/
structure Reads (d : Decoder) (size : Nat) : Prop where
  window : d.windowSize = .ok size
  drags : ∀ button player, ∀ slot ∈ d.drags.slots button player, slot < size

theorem Reads.record (reads : d.Reads size) (button : Button) (player : Nat) {slots : List Nat}
    (inside : ∀ slot ∈ slots, slot < size) : { d with drags := d.drags.record button player slots }.Reads size where
  window := reads.window
  drags b q slot mem := by
    simp only [DragTable.slots_record] at mem
    split at mem
    · exact inside slot mem
    · exact reads.drags b q slot mem

theorem Reads.forget (reads : d.Reads size) (button : Button) (player : Nat) :
    { d with drags := d.drags.forget button player }.Reads size where
  window := reads.window
  drags b q slot mem := by
    simp only [DragTable.slots_forget] at mem
    split at mem
    · cases mem
    · exact reads.drags b q slot mem

theorem Reads.forgetPlayer (reads : d.Reads size) (player : Nat) : (d.forgetPlayer player).Reads size :=
  ((reads.forget .left player).forget .right player).forget .middle player

theorem Reads.slot? (reads : d.Reads size) (slot : Int) :
    ∃ s?, d.slot? slot = .ok s? ∧ ∀ s, s? = some s → s < size := by
  unfold Decoder.slot?
  by_cases negative : slot < 0
  · exact ⟨none, by rw [if_pos negative], by simp⟩
  rw [if_neg negative, reads.window]
  by_cases inside : slot < size
  · refine ⟨some slot.toNat, by simp [bind, Except.bind, pure, Except.pure, inside], ?_⟩
    rintro s ⟨⟩
    omega
  · exact ⟨none, by simp [bind, Except.bind, pure, Except.pure, inside], by simp⟩

/-- A decoder that goes on reading, and what it answers. -/
def Answers (size : Nat) (mode : GameMode) (action? : Option Action) (d : Decoder) : Prop :=
  d.Reads size ∧ ∀ a, action? = some a → a.Allowed size mode

theorem answers_none (reads : d.Reads size) : Answers size mode none d := ⟨reads, by simp⟩

theorem startDrag_reads (reads : d.Reads size) (button : Button) :
    Ends (startDrag button player) d (Answers size mode) := by
  unfold startDrag
  apply ends_bind_of_run (run_modify _ _)
  exact ends_pure (answers_none (reads.forget button player))

theorem addDragSlot_reads (reads : d.Reads size) (button : Button) (slot : Int) :
    Ends (addDragSlot button player slot) d (Answers size mode) := by
  have drawn := reads.drags button player
  have reads' := reads.record button player drawn
  obtain ⟨s?, answer, inside⟩ := reads.slot? slot
  unfold addDragSlot
  apply ends_bind_of_run (run_get _)
  apply ends_bind_of_run (run_set _ _)
  rw [answer]
  apply ends_bind_of_run (run_ofExcept_ok _ _)
  cases s? with
  | none => exact ends_pure (answers_none reads')
  | some s =>
    have longer : ∀ i ∈ d.drags.slots button player ++ [s], i < size := by
      intro i mem
      rcases List.mem_append.1 mem with mem | mem
      · exact drawn i mem
      · rw [List.mem_singleton.1 mem]
        exact inside s rfl
    simp only
    split
    · apply ends_bind_of_run (run_pure _ _)
      exact ends_pure (answers_none reads')
    · apply ends_bind_of_run (run_set _ _)
      exact ends_pure (answers_none (reads.record button player longer))

theorem finishDrag_reads (reads : d.Reads size) (button : Button) (may : button = .middle → mode = .creative) :
    Ends (finishDrag button player) d (Answers size mode) := by
  unfold finishDrag
  apply ends_bind_of_run (run_get _)
  apply ends_bind_of_run (run_modify _ _)
  refine ends_pure ⟨reads.forget button player, ?_⟩
  rintro a ⟨⟩
  refine ⟨fun creative => may ?_, rfl, reads.drags button player⟩
  cases button with
  | middle => rfl
  | left => cases creative
  | right => cases creative

theorem decodeDrag_reads (reads : d.Reads size) (packet : Packet) :
    Ends (decodeDrag player mode packet) d (Answers size mode) := by
  unfold decodeDrag
  split
  · exact ends_pure (answers_none reads)
  · next button part _ =>
    split
    · exact ends_pure (answers_none reads)
    · next may =>
      cases part with
      | start => exact startDrag_reads reads button
      | slot => exact addDragSlot_reads reads button packet.slot
      | finish =>
        refine finishDrag_reads reads button fun middle => ?_
        exact Decidable.byContradiction fun other => may ⟨middle, other⟩

theorem slotAction_allowed {packet : Packet} {slot : Nat} {a : Action} (inside : slot < size)
    (h : slotAction mode packet slot = some a) : a.Allowed size mode := by
  have here : ∀ i ∈ [slot], i < size := by simpa using inside
  unfold slotAction at h
  split at h
  · split at h
    · cases h
      exact ⟨nofun, rfl, here⟩
    · cases h
      exact ⟨nofun, rfl, here⟩
    · cases h
  · cases h
    exact ⟨nofun, rfl, here⟩
  · split at h
    · next key =>
      cases h
      refine ⟨nofun, ?_, here⟩
      rw [Action.badHotbar?, if_pos (by omega)]
    · split at h
      · cases h
        exact ⟨nofun, rfl, here⟩
      · cases h
  · split at h
    · next creative =>
      cases h
      exact ⟨fun _ => creative, rfl, here⟩
    · cases h
  · cases h
    exact ⟨nofun, rfl, here⟩
  · cases h
    exact ⟨nofun, rfl, here⟩
  · cases h

theorem outsideAction_allowed {button : Int} {a : Action} (h : outsideAction button = some a) : a.Allowed size mode := by
  unfold outsideAction at h
  split at h <;> cases h <;> exact ⟨nofun, rfl, nofun⟩

/-- **Decoding.** A packet stops a decoder at no fault, and what it answers is allowed. -/
theorem decode_reads (reads : d.Reads size) (player : Nat) (mode : GameMode) (packet : Packet) :
    Ends (decode player mode packet) d (Answers size mode) := by
  unfold decode
  split
  · exact decodeDrag_reads reads packet
  · split
    · exact ends_pure ⟨reads, fun a h => outsideAction_allowed h⟩
    · obtain ⟨s?, answer, inside⟩ := reads.slot? packet.slot
      apply ends_bind_of_run (run_get _)
      rw [answer]
      apply ends_bind_of_run (run_ofExcept_ok _ _)
      refine ends_pure ⟨reads, fun a h => ?_⟩
      obtain ⟨s, found, action⟩ := Option.bind_eq_some_iff.1 h
      exact slotAction_allowed (inside s found) action

theorem decodeCreative_allowed {slot : Int} {stack : Stack} {a : Action}
    (h : decodeCreative mode slot stack = some a) : a.Allowed Inventory.Kind.player.slotCount mode := by
  unfold decodeCreative at h
  split at h
  · cases h
  · next creative =>
    have creative : mode = .creative := Decidable.not_not.1 creative
    split at h
    · cases h
      exact ⟨fun _ => creative, rfl, nofun⟩
    · split at h
      · next inside =>
        cases h
        refine ⟨fun _ => creative, rfl, ?_⟩
        simp only [Action.slots, List.mem_singleton, forall_eq]
        omega
      · cases h

/-- Decoders that a decoder becomes, by packets of any players and by forgetting players. -/
inductive Reachable (start : Decoder) : Decoder → Prop where
  | start : Reachable start start
  | decode {d : Decoder} (player : Nat) (mode : GameMode) (packet : Packet) (from_ : Reachable start d) :
      Reachable start ((Decoder.decode player mode packet).outcome d).2
  | forget {d : Decoder} (player : Nat) (from_ : Reachable start d) : Reachable start (d.forgetPlayer player)

theorem Reads.after (reads : d.Reads size) (player : Nat) (mode : GameMode) (packet : Packet) :
    ((Decoder.decode player mode packet).outcome d).2.Reads size := by
  obtain ⟨action?, d', run, reads', -⟩ := decode_reads reads player mode packet
  rw [outcome_of_run run]
  exact reads'

theorem Reachable.reads {start : Decoder} (reach : Reachable start d) (reads : start.Reads size) : d.Reads size := by
  induction reach with
  | start => exact reads
  | decode player mode packet _ ih => exact ih.after player mode packet
  | forget player _ ih => exact ih.forgetPlayer player

/-- Size of the window that a decoder made for an inventory of the kind reads. -/
def sizeFor (kind : Inventory.Kind) : Nat :=
  if kind = .player then kind.slotCount else kind.slotCount + PlayerLayout.mainSize

theorem reads_ofInventory (inv : Inventory) : (ofInventory inv).Reads (sizeFor inv.kind) := by
  constructor
  · have small := inv.kind.slotCount_le
    unfold windowSize ofInventory sizeFor
    by_cases own : inv.kind = .player
    · simp [own, Inventory.slotCount]
    · simp only [own, beq_iff_eq, ↓reduceIte, Inventory.slotCount]
      exact Bounded.add_eq_ok (by simp only [Bounded.slotLimit, PlayerLayout.mainSize]; omega)
  · intro button player slot mem
    cases button <;> cases mem

end Decoder

end InventoryClicks
