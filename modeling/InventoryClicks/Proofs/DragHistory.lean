import Mathlib.Data.List.DropRight
import InventoryClicks.Proofs.Decoder

/-!
# What a finished drag is made of

A drag that is finished names the slots its player has dragged over with its button since that player last began,
finished or was forgotten, and no others (`Decoder.finish_dragged`). So what a decoder keeps for one player and one
button is a function of the few requests that concern them (`dragged_filter_concerns`), and nobody else can put a slot
there.
-/

namespace InventoryClicks

namespace Decoder

open StepM

/-- What a decoder is asked. -/
inductive Request where
  | click (player : Nat) (mode : GameMode) (packet : Packet)
  | creative (player : Nat) (mode : GameMode) (slot : Int) (stack : Stack)
  | forget (player : Nat)
  deriving DecidableEq

/-- The answer to a request, and the decoder after it. -/
def serve (d : Decoder) : Request → Except Fault (Option Action) × Decoder
  | .click player mode packet => (decode player mode packet).outcome d
  | .creative _ mode slot stack => (.ok (decodeCreative mode slot stack), d)
  | .forget player => (.ok none, d.forgetPlayer player)

/-- The decoder after requests, oldest first. -/
def after (d : Decoder) (history : List Request) : Decoder := history.foldl (fun d r => (d.serve r).2) d

/-- The decoder's window has the slot. -/
def covers (d : Decoder) (slot : Int) : Bool :=
  match d.windowSize with
  | .ok size => 0 ≤ slot && slot < size
  | .error _ => false

/-- The slots with another one at the end, unless it is among them already or not one of the window. -/
def extend (d : Decoder) (slots : List Nat) (slot : Int) : List Nat :=
  if d.covers slot ∧ slot.toNat ∉ slots then slots ++ [slot.toNat] else slots

/-- A part of a drag, whose drag it is and the slot it names. -/
structure Stroke where
  player : Nat
  button : Button
  part : Packet.DragPart
  slot : Int
  deriving DecidableEq, Repr

/-- Part of the player's drag with the button. -/
def Stroke.isOf (button : Button) (player : Nat) (k : Stroke) : Bool := k.player == player && k.button == button

namespace Request

/-- The part of a drag that a packet is. Drags with the middle button are for creative mode only. -/
def stroke? : Request → Option Stroke
  | click player mode packet =>
    if packet.mode = .drag then
      match Packet.dragPart? packet.button with
      | some (button, part) =>
        if button = .middle ∧ mode ≠ .creative then none else some ⟨player, button, part, packet.slot⟩
      | none => none
    else none
  | creative .. | forget _ => none

/-- The player's drag with the button begins anew. -/
def clears (button : Button) (player : Nat) : Request → Bool
  | forget q => q == player
  | r => r.stroke?.any fun k => k.isOf button player && k.part != .slot

/-- The slot that is added to the player's drag with the button. -/
def added? (button : Button) (player : Nat) (r : Request) : Option Int :=
  (r.stroke?.filter fun k => k.isOf button player && k.part == .slot).map (·.slot)

/-- Part of the player's drag with the button, or the player being forgotten. -/
def concerns (button : Button) (player : Nat) : Request → Bool
  | forget q => q == player
  | r => r.stroke?.any (·.isOf button player)

/-- What the request makes of the slots that the player has dragged over. -/
def advance (d : Decoder) (button : Button) (player : Nat) (r : Request) (slots : List Nat) : List Nat :=
  if r.clears button player then []
  else match r.added? button player with
    | some slot => d.extend slots slot
    | none => slots

section

variable {button : Button} {player : Nat} {r : Request} {d : Decoder} {slots : List Nat}

theorem advance_of_untold {q : Nat} {mode : GameMode} {packet : Packet} (untold : (click q mode packet).stroke? = none) :
    (click q mode packet).advance d button player slots = slots := by
  simp [advance, clears, added?, untold]

/-- What a part of a drag makes of the slots. Only those of its own player and button change. -/
theorem advance_of_told {k : Stroke} (told : r.stroke? = some k) : r.advance d button player slots =
    if k.isOf button player then if k.part = .slot then d.extend slots k.slot else [] else slots := by
  cases r with
  | click q mode packet =>
    simp only [advance, clears, added?, told, Option.any_some, Option.filter_some]
    by_cases mine : k.isOf button player = true
    · by_cases part : k.part = .slot <;> simp [mine, part]
    · simp [mine]
  | creative => cases told
  | forget => cases told

theorem advance_of_not_concerns (other : r.concerns button player = false) (d : Decoder) (slots : List Nat) :
    r.advance d button player slots = slots := by
  cases r with
  | click q mode packet =>
    cases told : (click q mode packet).stroke? with
    | none => exact advance_of_untold told
    | some k =>
      have others : k.isOf button player = false := by simpa [concerns, told] using other
      rw [advance_of_told told, others, if_neg nofun]
  | creative q mode slot stack => rfl
  | forget q =>
    have other : (q == player) = false := other
    simp [advance, clears, added?, stroke?, other]

end

end Request

/-- The slots of the window that the player has dragged over with the button since that drag last began anew, each one
where it came first. -/
def dragged (d : Decoder) (button : Button) (player : Nat) (history : List Request) : List Nat :=
  let recent := history.rtakeWhile fun r => !r.clears button player
  (((recent.filterMap (Request.added? button player)).filter d.covers).map Int.toNat).eraseDups

section

variable (d : Decoder) (button : Button) (player : Nat) (history : List Request)

theorem dragged_concat (r : Request) :
    d.dragged button player (history ++ [r]) = r.advance d button player (d.dragged button player history) := by
  unfold dragged Request.advance extend
  rw [List.rtakeWhile_concat]
  rcases clears : r.clears button player with _ | _
  · simp only [Bool.not_false, ↓reduceIte, Bool.false_eq_true, List.filterMap_append, List.filter_append, List.map_append]
    rcases added : r.added? button player with _ | slot
    · simp [List.filterMap_cons_none added]
    · rw [List.filterMap_cons_some added, List.filterMap_nil]
      by_cases covered : d.covers slot = true
      · rw [List.filter_cons_of_pos covered, List.filter_nil, List.map_cons, List.map_nil, List.eraseDups_append]
        simp only [covered, true_and, List.mem_eraseDups, ite_not]
        split
        · next old => simp [List.removeAll, old]
        · next new => simp [List.removeAll, new, List.eraseDups_cons]
      · simp [covered]
  · simp

/-- Requests that do not concern the player's drag leave no trace in it. -/
theorem dragged_filter_concerns :
    d.dragged button player (history.filter (Request.concerns button player)) = d.dragged button player history := by
  induction history using List.reverseRecOn with
  | nil => rfl
  | append_singleton history r ih =>
    rw [List.filter_append, dragged_concat]
    rcases concerns : r.concerns button player with _ | _
    · rw [List.filter_cons_of_neg (by simp [concerns]), List.filter_nil, List.append_nil, ih,
        Request.advance_of_not_concerns concerns]
    · rw [List.filter_cons_of_pos concerns, List.filter_nil, dragged_concat, ih]

end

section

variable {d : Decoder} {slot : Int}

theorem slot?_of_covers (covered : d.covers slot = true) : d.slot? slot = .ok (some slot.toNat) := by
  unfold covers at covered
  split at covered
  · next size window =>
    simp only [Bool.and_eq_true, decide_eq_true_eq] at covered
    rw [slot?, if_neg (by omega), window]
    simp [bind, Except.bind, pure, Except.pure, covered.2]
  · cases covered

theorem slot?_ne_some (uncovered : d.covers slot = false) (s : Nat) : d.slot? slot ≠ .ok (some s) := by
  unfold covers at uncovered
  unfold slot?
  split
  · simp
  · next inside =>
    split at uncovered
    · next size window =>
      have outside : ¬ slot < size := by
        simp only [Bool.and_eq_false_iff, decide_eq_false_iff_not] at uncovered
        omega
      simp [window, bind, Except.bind, pure, Except.pure, outside]
    · next e window => simp [window, bind, Except.bind]

/-- A packet about a slot, other than a part of a drag. -/
theorem outcome_decode_slot (d : Decoder) (player : Nat) (mode : GameMode) {packet : Packet} (whole : packet.mode ≠ .drag)
    (within : ¬ (packet.mode = .click ∧ packet.slot = Packet.outside)) :
    (decode player mode packet).outcome d = ((·.bind (slotAction mode packet)) <$> d.slot? packet.slot, d) := by
  rw [decode, if_neg whole, if_neg within, outcome_bind_ok (t := d) rfl, outcome_bind, outcome_ofExcept]
  cases d.slot? packet.slot <;> rfl

/-- A slot that the window does not have is not added, and need not be one to begin a drag. -/
theorem outcome_addDragSlot (d : Decoder) (button : Button) (player : Nat) (slot : Int) :
    (addDragSlot button player slot).outcome d =
      ((fun _ => none) <$> d.slot? slot,
        { d with drags := d.drags.record button player (d.extend (d.drags.slots button player) slot) }) := by
  unfold addDragSlot extend
  rcases covered : d.covers slot with _ | _
  · have unnamed := slot?_ne_some covered
    simp only [Bool.false_eq_true, false_and, ↓reduceIte]
    rcases answer : d.slot? slot with e | s?
    · rw [outcome_bind_ok (t := d) rfl, outcome_bind_ok rfl, answer]
      rfl
    · cases s? with
      | none =>
        rw [outcome_bind_ok (t := d) rfl, outcome_bind_ok rfl, answer]
        rfl
      | some s => exact absurd answer (unnamed s)
  · rw [outcome_bind_ok (t := d) rfl, outcome_bind_ok rfl, slot?_of_covers covered, outcome_bind_ok (outcome_ofExcept _)]
    by_cases old : slot.toNat ∈ d.drags.slots button player
    · simp [old, Functor.map, Except.map]
    · simp [old, Functor.map, Except.map]
      rfl

end

/-- What an accepted part of a drag does. -/
theorem serve_of_stroke? {d : Decoder} {r : Request} {k : Stroke} (told : r.stroke? = some k) :
    d.serve r =
      match k.part with
      | .start => (.ok none, { d with drags := d.drags.forget k.button k.player })
      | .slot =>
        ((fun _ => none) <$> d.slot? k.slot,
          { d with drags := d.drags.record k.button k.player (d.extend (d.drags.slots k.button k.player) k.slot) })
      | .finish =>
        (.ok (some (.drag k.button (d.drags.slots k.button k.player))),
          { d with drags := d.drags.forget k.button k.player }) := by
  cases r with
  | click player mode packet =>
    simp only [Request.stroke?] at told
    split at told
    · next drag =>
      rcases read : Packet.dragPart? packet.button with _ | ⟨button, part⟩
      · rw [read] at told
        cases told
      · rw [read] at told
        simp only at told
        split at told
        · cases told
        · next may =>
          cases told
          simp only [serve, decode, drag, ↓reduceIte, decodeDrag, read, may]
          cases part with
          | start => rfl
          | slot => exact outcome_addDragSlot d button player packet.slot
          | finish => rfl
    · cases told
  | creative player mode slot stack => cases told
  | forget player => cases told

theorem slotAction_ne_drag {mode : GameMode} {packet : Packet} {slot : Nat} {button : Button} {slots : List Nat} :
    slotAction mode packet slot ≠ some (.drag button slots) := by
  unfold slotAction
  intro h
  repeat' split at h
  all_goals cases h

theorem outsideAction_ne_drag {n : Int} {button : Button} {slots : List Nat} :
    outsideAction n ≠ some (.drag button slots) := by
  unfold outsideAction
  intro h
  split at h <;> cases h

/-- A drag packet that is no accepted part of a drag means nothing. -/
theorem outcome_decode_of_stroke?_eq_none {player : Nat} {mode : GameMode} {packet : Packet} (d : Decoder)
    (drag : packet.mode = .drag) (untold : (Request.click player mode packet).stroke? = none) :
    (decode player mode packet).outcome d = (.ok none, d) := by
  rw [decode, if_pos drag]
  unfold decodeDrag
  simp only [Request.stroke?, drag, ↓reduceIte] at untold
  split
  · rfl
  · next button part read =>
    rw [read] at untold
    simp only at untold
    split at untold
    · next barred =>
      rw [if_pos barred]
      rfl
    · cases untold

/-- Every other packet leaves the decoder as it is, and means no drag. -/
theorem serve_of_stroke?_eq_none {d : Decoder} {player : Nat} {mode : GameMode} {packet : Packet}
    (untold : (Request.click player mode packet).stroke? = none) :
    (d.serve (.click player mode packet)).2 = d ∧
      ∀ button slots, (d.serve (.click player mode packet)).1 ≠ .ok (some (.drag button slots)) := by
  have same : d.serve (.click player mode packet) = (decode player mode packet).outcome d := rfl
  rw [same]
  by_cases drag : packet.mode = .drag
  · rw [outcome_decode_of_stroke?_eq_none d drag untold]
    exact ⟨rfl, fun button slots h => by cases h⟩
  · by_cases out : packet.mode = .click ∧ packet.slot = Packet.outside
    · have answer : (decode player mode packet).outcome d = (.ok (outsideAction packet.button), d) := by
        rw [decode, if_neg drag, if_pos out, outcome_pure]
      rw [answer]
      refine ⟨rfl, fun button slots h => ?_⟩
      injection h with h
      exact outsideAction_ne_drag h
    · rw [outcome_decode_slot d player mode drag out]
      refine ⟨rfl, fun button slots h => ?_⟩
      rcases named : d.slot? packet.slot with e | s?
      · rw [named] at h
        cases h
      · rw [named] at h
        injection h with h
        obtain ⟨s, -, action⟩ := Option.bind_eq_some_iff.1 h
        exact slotAction_ne_drag action

theorem windowSize_serve (d : Decoder) (r : Request) : (d.serve r).2.windowSize = d.windowSize := by
  cases r with
  | click player mode packet =>
    rcases told : (Request.click player mode packet).stroke? with _ | k
    · rw [(serve_of_stroke?_eq_none told).1]
    · rw [serve_of_stroke? told]
      split <;> rfl
  | creative player mode slot stack => rfl
  | forget player => rfl

theorem slots_forgetPlayer (d : Decoder) (q : Nat) (button : Button) (player : Nat) :
    (d.forgetPlayer q).drags.slots button player = if player = q then [] else d.drags.slots button player := by
  simp only [forgetPlayer, DragTable.slots_forget]
  by_cases mine : player = q
  · cases button <;> simp [mine]
  · simp [mine]

/-- One request, as the slots that are kept for a player and a button see it. -/
theorem slots_serve (d : Decoder) (r : Request) (button : Button) (player : Nat) :
    (d.serve r).2.drags.slots button player = r.advance d button player (d.drags.slots button player) := by
  cases r with
  | click q mode packet =>
    rcases told : (Request.click q mode packet).stroke? with _ | k
    · rw [(serve_of_stroke?_eq_none told).1, Request.advance_of_untold told]
    · rw [serve_of_stroke? told, Request.advance_of_told told]
      by_cases mine : button = k.button ∧ player = k.player
      · obtain ⟨rfl, rfl⟩ := mine
        cases part : k.part <;> simp [DragTable.slots_forget, DragTable.slots_record, Stroke.isOf]
      · have other : k.isOf button player = false := by
          simp only [Stroke.isOf, Bool.and_eq_false_iff, beq_eq_false_iff_ne]
          grind
        cases part : k.part <;> simp [DragTable.slots_forget, DragTable.slots_record, mine, other]
  | creative q mode slot stack => rfl
  | forget q =>
    have own : (Request.forget q).clears button player = (q == player) := rfl
    rw [serve, slots_forgetPlayer, Request.advance, own]
    simp only [beq_iff_eq, eq_comm (a := q)]
    rfl

section

variable (d : Decoder) (history : List Request)

theorem after_concat (r : Request) : d.after (history ++ [r]) = ((d.after history).serve r).2 := by
  simp [after]

theorem windowSize_after : (d.after history).windowSize = d.windowSize := by
  induction history using List.reverseRecOn with
  | nil => rfl
  | append_singleton history r ih => rw [after_concat, windowSize_serve, ih]

theorem extend_congr {d d' : Decoder} (same : d'.windowSize = d.windowSize) : d'.extend = d.extend := by
  unfold extend covers
  rw [same]

/-- A decoder that was made without drags keeps the slots of its history, and nothing else. -/
theorem slots_after (fresh : d.drags = {}) (button : Button) (player : Nat) :
    (d.after history).drags.slots button player = d.dragged button player history := by
  induction history using List.reverseRecOn with
  | nil =>
    rw [after, List.foldl_nil, fresh]
    cases button <;> rfl
  | append_singleton history r ih =>
    rw [after_concat, slots_serve, ih, dragged_concat, Request.advance, Request.advance,
      extend_congr (d.windowSize_after history)]

end

theorem decodeCreative_ne_drag {mode : GameMode} {slot : Int} {stack : Stack} {button : Button} {slots : List Nat} :
    decodeCreative mode slot stack ≠ some (.drag button slots) := by
  unfold decodeCreative
  intro h
  repeat' split at h
  all_goals cases h

/-- A request that is answered by a drag finishes it. -/
theorem stroke?_of_serve_eq_drag {d : Decoder} {r : Request} {button : Button} {slots : List Nat}
    (answer : (d.serve r).1 = .ok (some (.drag button slots))) :
    ∃ player slot, r.stroke? = some ⟨player, button, .finish, slot⟩ ∧ slots = d.drags.slots button player := by
  cases r with
  | click player mode packet =>
    rcases told : (Request.click player mode packet).stroke? with _ | ⟨q, b, part, slot⟩
    · exact absurd answer ((serve_of_stroke?_eq_none told).2 button slots)
    · rw [serve_of_stroke? told] at answer
      cases part with
      | start => cases answer
      | slot =>
        simp only at answer
        rcases answered : d.slot? slot with e | s?
        · rw [answered] at answer
          cases answer
        · rw [answered] at answer
          cases answer
      | finish =>
        cases answer
        exact ⟨q, slot, rfl, rfl⟩
  | creative player mode slot stack =>
    injection answer with answer
    exact absurd answer decodeCreative_ne_drag
  | forget player => cases answer

/-- **Drags.** A request is answered by a drag exactly if it finishes one, and then the drag has the slots that its
player has dragged over with that button since it last began anew. These do not depend on any request that does not
concern the player and the button, and there are none after the player was forgotten. -/
theorem finish_dragged (clickedSize : Nat) (ofPlayer : Bool) (history : List Request) (button : Button) :
    let d : Decoder := { clickedSize, ofPlayer }
    (∀ r slots, ((d.after history).serve r).1 = .ok (some (.drag button slots)) ↔
        ∃ player slot, r.stroke? = some ⟨player, button, .finish, slot⟩ ∧ slots = d.dragged button player history) ∧
      (∀ player history', history'.filter (Request.concerns button player) = history.filter (Request.concerns button player) →
        d.dragged button player history' = d.dragged button player history) ∧
      ∀ player, d.dragged button player (history ++ [.forget player]) = [] := by
  intro d
  refine ⟨fun r slots => ⟨fun answer => ?_, ?_⟩, fun player history' alike => ?_, fun player => ?_⟩
  · obtain ⟨player, slot, told, same⟩ := stroke?_of_serve_eq_drag answer
    exact ⟨player, slot, told, by rw [same, slots_after d history rfl]⟩
  · rintro ⟨player, slot, told, rfl⟩
    rw [serve_of_stroke? told, slots_after d history rfl]
  · rw [← dragged_filter_concerns, alike, dragged_filter_concerns]
  · rw [dragged_concat]
    simp [Request.advance, Request.clears]

/-- Two players drag over a chest at once. The first leaves creative mode for a while, begins a drag with another button,
names a slot twice and one past the window; none of it is seen in what comes of the drag with the middle button. -/
theorem finish_dragged_interleaved :
    let drag (player : Nat) (mode : GameMode) (slot button : Int) : Request :=
      .click player mode { mode := .drag, slot, button }
    let own : List Request := [drag 1 .creative 8 9, .forget 1, drag 1 .creative 3 9, drag 1 .creative 5 9,
      drag 1 .creative 3 9, drag 1 .creative 63 9]
    let history : List Request := [drag 1 .creative 8 9, .forget 1, drag 2 .creative 7 8, drag 1 .creative 3 9,
      drag 2 .creative 4 9, drag 1 .survival 6 9, drag 1 .survival 0 0, drag 1 .creative 5 9, drag 2 .creative 0 10,
      drag 1 .creative 3 9, .creative 1 .creative 9 .empty, drag 1 .creative 63 9]
    let d : Decoder := { clickedSize := 27, ofPlayer := false }
    ((d.after history).serve (drag 1 .creative (-999) 10)).1 = .ok (some (.drag .middle [3, 5])) ∧
      d.dragged .middle 1 own = d.dragged .middle 1 history := by
  intro drag own history d
  obtain ⟨finishes, alike, -⟩ := finish_dragged 27 false history .middle
  exact ⟨(finishes _ [3, 5]).2 ⟨1, -999, by decide, by decide⟩, alike 1 own (by decide)⟩

end Decoder

end InventoryClicks
