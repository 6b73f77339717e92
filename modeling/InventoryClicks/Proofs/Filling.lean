import InventoryClicks.Proofs.Dealing

/-!
# Filling deals items

Under the standard rule `Operator.fill` without a limit deals items to slots that are empty or hold items of the type, as
far as there is room for them (`Stack.room`). Adding an item to slots deals it to those with items first and to the empty
ones then, in any store (`Transfer.run_add`), so that a slot takes something only when those before it are full.
-/

namespace InventoryClicks

namespace Stack

variable {s item : Stack} {m : Nat}

theorem isEmpty_eq_false_iff : s.isEmpty = false ↔ 0 < s.count := by
  simp [isEmpty, Nat.pos_iff_ne_zero]

@[simp] theorem withCount_zero (s : Stack) : s.withCount 0 = empty := by simp [withCount, of]

@[simp] theorem withCount_count (s : Stack) : s.withCount s.count = s := by
  obtain ⟨material, count, data, ⟨lo, hi, air⟩ | ⟨rfl, rfl, rfl⟩⟩ := s
  · have kind : ¬ (material = .air ∨ (count : Int) ≤ 0) := by
      rintro (h | h)
      · exact air h
      · omega
    simp only [withCount, of, dif_neg kind, Stack.mk.injEq, true_and, and_true]
    omega
  · rfl

theorem count_withCount (h : s.isEmpty = false) (m : Nat) : (s.withCount m).count = min m 127 := by
  rw [withCount, count_of s.material m s.data (material_ne_air h), Int.toNat_natCast]

/-- Some of the items of a stack. -/
theorem count_withCount_of_le (le : m ≤ s.count) : (s.withCount m).count = m := by
  have most := s.count_le
  rcases h : s.isEmpty
  · rw [count_withCount h]
    omega
  · have none : s.count = 0 := by simpa [isEmpty] using h
    have zero : m = 0 := by omega
    rw [zero]
    exact congrArg count s.withCount_zero

/-- Some of the items are items of the same type. -/
theorem type_withCount (h : s.isEmpty = false) (pos : 0 < m) :
    (s.withCount m).material = s.material ∧ (s.withCount m).data = s.data := by
  have kind : ¬ (s.material = .air ∨ (m : Int) ≤ 0) := by
    rintro (air | none)
    · exact material_ne_air h air
    · omega
  rw [withCount, of, dif_neg kind]
  exact ⟨rfl, rfl⟩

theorem withCount_withCount (h : s.isEmpty = false) (pos : 0 < m) (n : Int) :
    (s.withCount m).withCount n = s.withCount n := by
  obtain ⟨material, data⟩ := type_withCount h pos
  rw [withCount, material, data, withCount]

/-- The stack is not empty, and holds items of the type of `item`. -/
def Holds (s item : Stack) : Prop := s.isEmpty = false ∧ s.material = item.material ∧ s.data = item.data

instance : Decidable (s.Holds item) := inferInstanceAs (Decidable (_ ∧ _))

theorem Holds.item_ne_empty (holds : s.Holds item) : item.isEmpty = false := by
  rcases empty : item.isEmpty
  · rfl
  · have air := material_ne_air holds.1
    rw [holds.2.1, isEmpty_iff.1 empty] at air
    exact absurd rfl air

theorem holds_withCount (h : item.isEmpty = false) (pos : 0 < m) : s.Holds (item.withCount m) ↔ s.Holds item := by
  obtain ⟨material, data⟩ := type_withCount h pos
  rw [Holds, material, data, Holds]

/-- The stack with so many more items, of the type of `item` if it is empty. -/
def grown (s item : Stack) (more : Nat) : Stack := (if s.isEmpty then item else s).withCount ((s.count + more : Nat) : Int)

theorem grown_zero (s item : Stack) : s.grown item 0 = s := by
  unfold grown
  split
  · next empty =>
    rw [isEmpty_iff.1 empty]
    exact item.withCount_zero
  · exact s.withCount_count

theorem count_grown (h : s.isEmpty = true → item.isEmpty = false) (more : Nat) :
    (s.grown item more).count = min (s.count + more) 127 := by
  apply count_withCount
  split
  · next empty => exact h empty
  · next filled => simpa using filled

theorem grown_of_isEmpty (h : s.isEmpty) (more : Nat) : s.grown item more = item.withCount more := by
  rw [grown, if_pos h, isEmpty_iff.1 h, count_empty, Nat.zero_add]

theorem Holds.grown_eq (holds : s.Holds item) (more : Nat) :
    s.grown item more = item.withCount ((s.count + more : Nat) : Int) := by
  simp [grown, holds.1, withCount, holds.2.1, holds.2.2]

theorem grown_withCount (h : item.isEmpty = false) (pos : 0 < m) (s : Stack) (more : Nat) :
    s.grown (item.withCount m) more = s.grown item more := by
  unfold grown
  split
  · exact withCount_withCount h pos _
  · rfl

/-- How many more items of the type of `item` a slot with the stack takes. -/
def room (s item : Stack) : Nat :=
  if item.isEmpty = false ∧ (s.isEmpty ∨ s.Holds item) then item.material.maxStack - s.count else 0

theorem room_le (s item : Stack) : s.room item ≤ item.material.maxStack - s.count := by
  unfold room
  split
  · exact Nat.le_refl _
  · exact Nat.zero_le _

theorem room_withCount (h : item.isEmpty = false) (pos : 0 < m) (s : Stack) :
    s.room (item.withCount m) = s.room item := by
  have filled : (item.withCount m).isEmpty = false := by
    rw [isEmpty_eq_false_iff, count_withCount h]
    omega
  simp only [room, filled, h, holds_withCount h pos, (type_withCount h pos).1]

/-- Items of another type leave no room. -/
theorem room_of_other (filled : s.isEmpty = false) (other : ¬ s.Holds item) : s.room item = 0 := by
  refine if_neg fun takes => takes.2.elim (fun empty => ?_) other
  rw [filled] at empty
  cases empty

theorem room_of_isEmpty (h : item.isEmpty = false) (empty : s.isEmpty) : s.room item = item.material.maxStack := by
  rw [room, if_pos ⟨h, .inl empty⟩, isEmpty_iff.1 empty, count_empty, Nat.sub_zero]

theorem Holds.room_eq (holds : s.Holds item) : s.room item = item.material.maxStack - s.count :=
  if_pos ⟨holds.item_ne_empty, .inr holds⟩

/-- No room is left when it was used. -/
theorem room_grown (s item : Stack) : (s.grown item (s.room item)).room item = 0 := by
  by_cases takes : item.isEmpty = false ∧ (s.isEmpty ∨ s.Holds item)
  · have size := item.material.maxStack_le
    have count := count_grown (s := s) (fun _ => takes.1) (s.room item)
    have room : s.room item = item.material.maxStack - s.count := if_pos takes
    have left := (s.grown item (s.room item)).room_le item
    omega
  · have none : s.room item = 0 := if_neg takes
    rw [none, grown_zero, none]

/-- A stack that uses some of its room counts all that it gets. -/
theorem count_grown_of_le_room (h : item.isEmpty = false) {more : Nat} (le : more ≤ s.room item) :
    (s.grown item more).count = s.count + more := by
  have size := item.material.maxStack_le
  have held := s.count_le
  have room := s.room_le item
  rw [count_grown fun _ => h]
  omega

/-- A stack that uses some of its room holds more items of the type, and no more than a full one. -/
theorem grown_fits {more : Nat} (pos : 0 < more) (le : more ≤ s.room item) :
    (s.grown item more).Holds item ∧ s.count < (s.grown item more).count ∧
      (s.grown item more).count ≤ item.material.maxStack := by
  have takes : item.isEmpty = false ∧ (s.isEmpty ∨ s.Holds item) := by
    by_contra refuses
    have none : s.room item = 0 := if_neg refuses
    omega
  obtain ⟨h, takes⟩ := takes
  have room := s.room_le item
  have count := count_grown_of_le_room h le
  have filled : (s.grown item more).isEmpty = false := by
    rw [isEmpty_eq_false_iff]
    omega
  refine ⟨⟨filled, ?_⟩, by omega, by omega⟩
  rcases takes with empty | holds
  · rw [grown_of_isEmpty empty]
    exact type_withCount h pos
  · rw [holds.grown_eq]
    exact type_withCount h (by omega)

end Stack

namespace Operator

variable {slot incoming item : Stack}

/-- A slot that there is no room in takes nothing. -/
theorem fill_refuses (limit : Int) (not : ¬ (incoming.isEmpty = false ∧ (slot.isEmpty ∨ slot.Holds incoming))) :
    fill limit .standard slot incoming = .ok none := by
  rw [fill_standard]
  congr 1
  rcases empty : incoming.isEmpty
  · rcases filled : slot.isEmpty
    · have other : StackingRule.standard.canStack slot incoming = false := by
        rw [← Bool.not_eq_true, StackingRule.canStack_standard_iff]
        exact fun same => not ⟨empty, .inr ⟨filled, same⟩⟩
      simp [other]
    · exact absurd ⟨empty, .inl filled⟩ not
  · simp

/-- As many items move as the limit allows and as there is room for. -/
theorem fill_limited (limit : Nat) (slot incoming : Stack) :
    fill limit .standard slot incoming =
      .ok (if min incoming.count (min limit (slot.room incoming)) = 0 then none
        else some ⟨slot.grown incoming (min incoming.count (min limit (slot.room incoming))),
          incoming.withCount ((incoming.count - min incoming.count (min limit (slot.room incoming)) : Nat) : Int)⟩) := by
  by_cases takes : incoming.isEmpty = false ∧ (slot.isEmpty ∨ slot.Holds incoming)
  swap
  · have none : slot.room incoming = 0 := if_neg takes
    rw [fill_refuses _ takes, none, Nat.min_zero, Nat.min_zero, if_pos rfl]
  have room : slot.room incoming = incoming.material.maxStack - slot.count := if_pos takes
  obtain ⟨full, takes⟩ := takes
  have together : (!slot.isEmpty && !StackingRule.standard.canStack slot incoming) = false := by
    rcases takes with empty | holds
    · simp [empty]
    · simp [StackingRule.canStack_standard_iff.2 holds.2]
  have amount : fillAmount limit slot incoming =
      min (min (incoming.count : Int) limit) (incoming.material.maxStack - slot.count) := rfl
  rw [fill_standard, together, full]
  generalize moves : min incoming.count (min limit (slot.room incoming)) = moved
  congr 1
  by_cases none : moved = 0
  · have stop : fillAmount limit slot incoming ≤ 0 := by omega
    simp [none, stop]
  · have go : fillAmount limit slot incoming = moved := by omega
    have pos : ¬ (moved : Int) ≤ 0 := by omega
    have grown : slot.grown incoming moved = incoming.withCount ((slot.count : Int) + moved) := by
      rcases takes with empty | holds
      · rw [Stack.grown_of_isEmpty empty, Stack.isEmpty_iff.1 empty, Stack.count_empty, Nat.cast_zero, Int.zero_add]
      · rw [holds.grown_eq, Nat.cast_add]
    have rest : ((incoming.count - moved : Nat) : Int) = incoming.count - moved := by omega
    simp only [go, pos, none, grown, rest, Bool.false_eq_true, ↓reduceIte]

/-- Whatever the limit, items only move to where there is room for them. -/
theorem fill_moves (limit : Int) (slot incoming : Stack) :
    ∃ e?, fill limit .standard slot incoming = .ok e? ∧ ∀ e, e? = some e →
      ∃ m, 0 < m ∧ m ≤ incoming.count ∧ m ≤ slot.room incoming ∧
        e = ⟨slot.grown incoming m, incoming.withCount ((incoming.count - m : Nat) : Int)⟩ := by
  rcases Int.le_total 0 limit with pos | neg
  · obtain ⟨most, rfl⟩ := Int.eq_ofNat_of_zero_le pos
    refine ⟨_, fill_limited most slot incoming, fun e some => ?_⟩
    split at some
    · cases some
    · next moves =>
      cases some
      exact ⟨_, Nat.pos_of_ne_zero moves, by omega, by omega, rfl⟩
  · have stop : fillAmount limit slot incoming ≤ 0 := by
      unfold fillAmount
      omega
    refine ⟨none, ?_, fun e some => by cases some⟩
    rw [fill_standard, if_pos stop]
    congr 1
    split
    · rfl
    · split <;> rfl

/-- No stack has room for as many items as the largest limit allows. -/
theorem min_unlimited_room (slot incoming : Stack) : min 0x7fffffff (slot.room incoming) = slot.room incoming := by
  have size := incoming.material.maxStack_le
  have room := slot.room_le incoming
  omega

/-- As many items move as there is room for. -/
theorem fill_unlimited (slot incoming : Stack) :
    fill Amount.unlimited .standard slot incoming =
      .ok (if min incoming.count (slot.room incoming) = 0 then none
        else some ⟨slot.grown incoming (min incoming.count (slot.room incoming)),
          incoming.withCount ((incoming.count - min incoming.count (slot.room incoming) : Nat) : Int)⟩) := by
  have limited := fill_limited 0x7fffffff slot incoming
  rwa [min_unlimited_room] at limited

/-- The same, with some of the items of a stack coming in. -/
theorem fill_carried {m : Nat} (limit : Nat) (most : m ≤ item.count) (slot : Stack) :
    fill limit .standard slot (item.withCount m) =
      .ok (if min m (min limit (slot.room item)) = 0 then none
        else some ⟨slot.grown item (min m (min limit (slot.room item))),
          item.withCount ((m - min m (min limit (slot.room item)) : Nat) : Int)⟩) := by
  rw [fill_limited, Stack.count_withCount_of_le most]
  rcases Nat.eq_zero_or_pos m with rfl | pos
  · rw [Nat.zero_min, Nat.zero_min, if_pos rfl, if_pos rfl]
  · have h : item.isEmpty = false := Stack.isEmpty_eq_false_iff.2 (by omega)
    simp only [Stack.room_withCount h pos, Stack.grown_withCount h pos, Stack.withCount_withCount h pos]

end Operator

/-- Items are dealt to every stack that there is room in. -/
def Dealing.filling (item : Stack) : Dealing where
  carry m := item.withCount m
  share s := s.room item
  dealt s := s.grown item
  dealt_zero s := s.grown_zero item
  share_dealt s := s.room_grown item

namespace Dealing

variable {held : Nat → Stack} {item : Stack} {n slot : Nat} {slots : List Nat}

/-- A slot that is filled holds more items of the type, and no more than a full one. -/
theorem after_filling_fits (changed : (filling item).after held n slots slot ≠ held slot) :
    ((filling item).after held n slots slot).Holds item ∧
      (held slot).count < ((filling item).after held n slots slot).count ∧
      ((filling item).after held n slots slot).count ≤ item.material.maxStack :=
  Stack.grown_fits (Nat.pos_of_ne_zero (part_ne_zero changed)) part_le_share

/-- A slot counts what it gets. -/
theorem count_after_filling (h : item.isEmpty = false) : ((filling item).after held n slots slot).count =
    (held slot).count + (filling item).part held n slots slot :=
  Stack.count_grown_of_le_room h part_le_share

/-- A slot with items of the type is full when it has got its share. -/
theorem full_of_filled (holds : (held slot).Holds item)
    (all : (filling item).part held n slots slot = (filling item).share (held slot)) :
    item.material.maxStack ≤ ((filling item).after held n slots slot).count := by
  have room : (filling item).share (held slot) = item.material.maxStack - (held slot).count := holds.room_eq
  rw [count_after_filling holds.item_ne_empty, all, room]
  omega

/-- An empty slot holds a full stack when it has got its share. -/
theorem full_of_placed (h : item.isEmpty = false) (empty : (held slot).isEmpty)
    (all : (filling item).part held n slots slot = (filling item).share (held slot)) :
    (filling item).after held n slots slot = item.withCount item.material.maxStack := by
  have room : (filling item).share (held slot) = item.material.maxStack := Stack.room_of_isEmpty h empty
  rw [after, all, room]
  exact Stack.grown_of_isEmpty empty _

/-- An item goes to a slot only if it is one. -/
theorem item_of_filled (changed : (filling item).after held n slots slot ≠ held slot) : item.isEmpty = false :=
  (after_filling_fits changed).1.item_ne_empty

end Dealing

/-- Filling deals the items that come in. -/
theorem Operator.fill_deals {item : Stack} {n : Nat} (most : n ≤ item.count) :
    (fill Amount.unlimited).Deals .standard (.filling item) n := by
  intro s m le
  have carried := fill_carried 0x7fffffff (by omega : m ≤ item.count) s
  rwa [min_unlimited_room] at carried

namespace Transfer

open Dealing StepM

/-- Slots in the order in which they are given items: those of `fill` that hold some, then the empty ones of `air`. -/
def addOrder (held : Nat → Stack) (fill air : List Nat) : List Nat :=
  due (fun s => !s.isEmpty) held fill ++ due Stack.isEmpty held air

/-- What slots hold when an item has been added to them. -/
def added (held : Nat → Stack) (item : Stack) (fill air : List Nat) : Nat → Stack :=
  (filling item).after held item.count (addOrder held fill air)

/-- How many items of the type the slots have room for. -/
def addRoom (held : Nat → Stack) (item : Stack) (fill air : List Nat) : Nat :=
  (filling item).total held (addOrder held fill air)

/-- Adding comes to its end. Left over is what exceeds the room. -/
theorem run_add {σ : Type} [SlotStore σ] {p : Nat → Prop} {sound : σ → Prop} {look : σ → Nat → Stack} {s : σ}
    {fill air : List Nat} (shows : SlotStore.Shows p sound look) (fills : ∀ slot ∈ fill, p slot)
    (airs : ∀ slot ∈ air, p slot) (h : sound s) (item : Stack) :
    ∃ s', ((add fill air).run .standard item).outcome s =
        (.ok (item.withCount ((item.count - addRoom (look s) item fill air : Nat) : Int)), s') ∧
      sound s' ∧ look s' = added (look s) item fill air ∧
      (min item.count (addRoom (look s) item fill air) = 0 → s' = s) := by
  have deals := Operator.fill_deals (Nat.le_refl item.count)
  have carried : (filling item).carry item.count = item := item.withCount_count
  have first : ((Operator.fill Amount.unlimited).onlyIf .slotFilled).DealsTo .standard (filling item)
      (fun s => !s.isEmpty) item.count := deals.onlyIf fun _ _ => rfl
  have second : ((Operator.fill Amount.unlimited).onlyIf .slotEmpty).DealsTo .standard (filling item)
      Stack.isEmpty item.count := deals.onlyIf fun _ _ => rfl
  have run := run_andThen_deals shows first second fills airs h rfl
  rwa [carried] at run

section

variable {held : Nat → Stack} {item : Stack} {fill air : List Nat} {slot i : Nat}

/-- The stacks like the item have room for what makes them full, and no other stack has any. -/
theorem total_due_filled (held : Nat → Stack) (item : Stack) (slots : List Nat) :
    (filling item).total held (due (fun s => !s.isEmpty) held slots) =
      ∑ i ∈ slots.toFinset with (held i).Holds item, (item.material.maxStack - (held i).count) := by
  have merging (s : Stack) : (if !s.isEmpty then s.room item else 0) =
      if s.Holds item then item.material.maxStack - s.count else 0 := by
    by_cases holds : s.Holds item
    · simp [holds, holds.1, holds.room_eq]
    · rcases filled : s.isEmpty
      · simp [holds, Stack.room_of_other filled holds]
      · simp [holds]
  rw [total, List.toFinset_filter, Finset.sum_filter, Finset.sum_filter]
  exact Finset.sum_congr rfl fun i _ => merging (held i)

theorem mem_addOrder : slot ∈ addOrder held fill air ↔
    slot ∈ fill ∧ (held slot).isEmpty = false ∨ slot ∈ air ∧ (held slot).isEmpty = true := by
  simp [addOrder, due]

variable (changed : added held item fill air slot ≠ held slot)

include changed

theorem mem_of_added : slot ∈ addOrder held fill air := by
  by_contra apart
  exact part_ne_zero changed (part_of_notMem apart)

/-- Something is left for empty slots only when the stacks like the item are full. -/
theorem full_of_added_empty (empty : (held slot).isEmpty) (mem : i ∈ fill) (holds : (held i).Holds item) :
    item.material.maxStack ≤ (added held item fill air i).count := by
  refine full_of_filled holds (part_eq_share_of_then ?_ (part_ne_zero changed) mem ?_)
  · simp [empty]
  · simp [holds.1]

/-- A slot to fill takes something only when the stacks like the item before it are full. -/
theorem full_of_added {pre post : List Nat} (split : fill = pre ++ slot :: post) (first : slot ∉ pre) (mem : i ∈ pre)
    (holds : (held i).Holds item) : item.material.maxStack ≤ (added held item fill air i).count := by
  rcases empty : (held slot).isEmpty
  · refine full_of_filled holds (part_eq_share_of_first split first ?_ (part_ne_zero changed) mem ?_)
    · simp [empty]
    · simp [holds.1]
  · exact full_of_added_empty changed empty (by simp [split, mem]) holds

/-- An empty slot takes something only when the empty ones before it hold full stacks. -/
theorem added_of_added_empty (empty : (held slot).isEmpty) {pre post : List Nat} (split : air = pre ++ slot :: post)
    (first : slot ∉ pre) (mem : i ∈ pre) (vacant : (held i).isEmpty) :
    added held item fill air i = item.withCount item.material.maxStack := by
  refine full_of_placed (item_of_filled changed) vacant ?_
  refine part_eq_share_of_then_before ?_ (part_ne_zero changed) split first empty mem vacant
  simp [empty]

end

end Transfer

end InventoryClicks
