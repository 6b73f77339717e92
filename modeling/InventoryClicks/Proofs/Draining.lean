import InventoryClicks.Proofs.Filling

/-!
# Draining slots

Taking and collecting empty the slots that hold items of a type, one after the other. What is dealt along the slots is not
the items that come in but what is wanted of them: `Operator.take` wants as many as the stack on its way holds, and
`Operator.collect` as many as that stack has room for.
-/

namespace InventoryClicks

namespace Stack

variable {s item : Stack} {m : Nat}

/-- How many items of the type of `item` the stack holds. -/
def tally (s item : Stack) : Nat := if s.Holds item then s.count else 0

/-- The stack with so many items fewer. -/
def shrunk (s : Stack) (fewer : Nat) : Stack := s.withCount ((s.count - fewer : Nat) : Int)

theorem Holds.tally_eq (holds : s.Holds item) : s.tally item = s.count := if_pos holds

theorem tally_of_other (other : ¬ s.Holds item) : s.tally item = 0 := if_neg other

theorem tally_le (s item : Stack) : s.tally item ≤ s.count := by
  unfold tally
  split
  · exact Nat.le_refl _
  · exact Nat.zero_le _

theorem tally_withCount (h : item.isEmpty = false) (pos : 0 < m) (s : Stack) :
    s.tally (item.withCount m) = s.tally item := by
  simp only [tally, holds_withCount h pos]

@[simp] theorem shrunk_zero (s : Stack) : s.shrunk 0 = s := s.withCount_count

@[simp] theorem count_shrunk (s : Stack) (fewer : Nat) : (s.shrunk fewer).count = s.count - fewer :=
  count_withCount_of_le (Nat.sub_le ..)

@[simp] theorem shrunk_count (s : Stack) : s.shrunk s.count = empty := by
  rw [shrunk, Nat.sub_self]
  exact s.withCount_zero

theorem shrunk_shrunk (s : Stack) (m n : Nat) : (s.shrunk m).shrunk n = s.shrunk (m + n) := by
  have left : (s.shrunk m).count - n = s.count - (m + n) := by
    rw [count_shrunk]
    omega
  rcases Nat.eq_zero_or_pos (s.count - m) with none | pos
  · have none' : s.count - (m + n) = 0 := by omega
    rw [shrunk, left, none', shrunk, none, shrunk, none']
    simp
  · have filled : s.isEmpty = false := isEmpty_eq_false_iff.2 (by omega)
    rw [shrunk, left, shrunk, withCount_withCount filled pos, shrunk]

/-- What is left of a stack is of its type. -/
theorem Holds.shrunk (holds : s.Holds item) {fewer : Nat} (few : fewer < s.count) : (s.shrunk fewer).Holds item := by
  have pos : 0 < s.count - fewer := by omega
  obtain ⟨material, data⟩ := type_withCount holds.1 pos
  refine ⟨isEmpty_eq_false_iff.2 ?_, material.trans holds.2.1, data.trans holds.2.2⟩
  rwa [count_shrunk]

/-- Nothing of the type is left when all of it is gone. -/
theorem tally_shrunk (s item : Stack) : (s.shrunk (s.tally item)).tally item = 0 := by
  by_cases holds : s.Holds item
  · rw [holds.tally_eq, shrunk_count]
    exact Nat.eq_zero_of_le_zero (tally_le empty item)
  · rw [tally_of_other holds, shrunk_zero, tally_of_other holds]

end Stack

namespace Operator

variable {slot incoming item : Stack}

/-- As many items are collected as the slot holds of those that there is room for. -/
theorem collect_unlimited (h : incoming.isEmpty = false) (slot : Stack) :
    collect Amount.unlimited .standard slot incoming =
      .ok (if min (incoming.material.maxStack - incoming.count) (slot.tally incoming) = 0 then none
        else some ⟨slot.shrunk (min (incoming.material.maxStack - incoming.count) (slot.tally incoming)),
          incoming.withCount ((incoming.count +
            min (incoming.material.maxStack - incoming.count) (slot.tally incoming) : Nat) : Int)⟩) := by
  unfold collect
  rw [fill_unlimited]
  simp only [bind, Except.bind, pure, Except.pure]
  by_cases holds : slot.Holds incoming
  · have back : incoming.Holds slot := ⟨h, holds.2.1.symm, holds.2.2.symm⟩
    have amount : min slot.count (incoming.room slot) = min (incoming.material.maxStack - incoming.count) slot.count := by
      rw [back.room_eq, holds.2.1, Nat.min_comm]
    rw [holds.tally_eq, amount]
    split
    · rfl
    · rw [back.grown_eq]
      simp only [Option.map_some, Exchange.flip, Stack.shrunk, Stack.withCount, holds.2.1, holds.2.2]
  · have none : min slot.count (incoming.room slot) = 0 := by
      rcases filled : slot.isEmpty
      · have back : ¬ incoming.Holds slot := fun back => holds ⟨filled, back.2.1.symm, back.2.2.symm⟩
        rw [Stack.room_of_other h back, Nat.min_zero]
      · rw [Stack.isEmpty_iff.1 filled, Stack.count_empty, Nat.zero_min]
    rw [none, Stack.tally_of_other holds, Nat.min_zero, if_pos rfl, if_pos rfl]
    rfl

/-- Whatever the limit, items only move from the slot to where there is room for them. -/
theorem collect_moves (limit : Int) (slot incoming : Stack) :
    ∃ e?, collect limit .standard slot incoming = .ok e? ∧ ∀ e, e? = some e →
      ∃ m, 0 < m ∧ m ≤ slot.count ∧ m ≤ incoming.room slot ∧ e = ⟨slot.shrunk m, incoming.grown slot m⟩ := by
  obtain ⟨e?, answer, moves⟩ := fill_moves limit incoming slot
  refine ⟨e?.map Exchange.flip, ?_, fun e some => ?_⟩
  · simp only [collect, answer, bind, Except.bind, pure, Except.pure]
  · obtain ⟨e, here, rfl⟩ := Option.map_eq_some_iff.1 some
    obtain ⟨m, pos, most, room, rfl⟩ := moves e here
    exact ⟨m, pos, most, room, rfl⟩

end Operator

namespace Dealing

/-- Slots give away their items of the type. What is on its way is `carry m` when `m` more are wanted. -/
def draining (item : Stack) (carry : Nat → Stack) : Dealing where
  carry := carry
  share s := s.tally item
  dealt := Stack.shrunk
  dealt_zero := Stack.shrunk_zero
  share_dealt s := s.tally_shrunk item

/-- What is on its way says how many items are wanted. -/
abbrev taking (item : Stack) : Dealing := draining item fun m => item.withCount m

/-- What is on its way has room for as many items as are wanted. -/
abbrev collecting (item : Stack) : Dealing :=
  draining item fun m => item.withCount ((item.count + (item.material.maxStack - item.count - m) : Nat) : Int)

variable {item : Stack} {carry : Nat → Stack} {held : Nat → Stack} {n slot : Nat} {slots : List Nat}

theorem count_after_draining : ((draining item carry).after held n slots slot).count =
    (held slot).count - (draining item carry).part held n slots slot :=
  (held slot).count_shrunk _

theorem part_draining_le : (draining item carry).part held n slots slot ≤ (held slot).count :=
  part_le_share.trans ((held slot).tally_le item)

/-- A slot that is drained held items of the type, and holds fewer of them. -/
theorem after_draining (changed : (draining item carry).after held n slots slot ≠ held slot) :
    (held slot).Holds item ∧ ((draining item carry).after held n slots slot).count < (held slot).count ∧
      (draining item carry).after held n slots slot =
        (held slot).withCount ((draining item carry).after held n slots slot).count := by
  have gives : (draining item carry).part held n slots slot ≤ (held slot).tally item := part_le_share
  have some := part_ne_zero changed
  have holds : (held slot).Holds item := by
    by_contra other
    rw [Stack.tally_of_other other] at gives
    omega
  rw [holds.tally_eq] at gives
  rw [count_after_draining]
  exact ⟨holds, by omega, rfl⟩

/-- A slot with items of the type is empty when it has given its share. -/
theorem after_of_drained (holds : (held slot).Holds item)
    (all : (draining item carry).part held n slots slot = (draining item carry).share (held slot)) :
    (draining item carry).after held n slots slot = .empty := by
  have share : (draining item carry).share (held slot) = (held slot).count := holds.tally_eq
  rw [after, all, share]
  exact (held slot).shrunk_count

end Dealing

namespace Operator

variable {item : Stack} {n : Nat}

theorem collect_deals (h : item.isEmpty = false) :
    (collect Amount.unlimited).Deals .standard (.collecting item) (item.material.maxStack - item.count) := by
  intro s m le
  have pos := Stack.isEmpty_eq_false_iff.1 h
  have size := item.material.maxStack_le
  have most := item.count_le
  -- the stack on its way still has room for the items that are wanted
  generalize carried : item.count + (item.material.maxStack - item.count - m) = c
  have filled : (item.withCount c).isEmpty = false := by
    rw [Stack.isEmpty_eq_false_iff, Stack.count_withCount h]
    omega
  have room : (item.withCount c).material.maxStack - (item.withCount c).count = m := by
    rw [(Stack.type_withCount h (by omega)).1, Stack.count_withCount h]
    omega
  have count : (item.withCount c).count = c := by
    rw [Stack.count_withCount h]
    omega
  show collect Amount.unlimited .standard s (item.withCount _) = _
  rw [carried, collect_unlimited filled, room, count, Stack.tally_withCount h (by omega),
    Stack.withCount_withCount h (by omega)]
  have next : c + min m (s.tally item) =
      item.count + (item.material.maxStack - item.count - (m - min m (s.tally item))) := by omega
  rw [next]
  rfl

end Operator

end InventoryClicks
