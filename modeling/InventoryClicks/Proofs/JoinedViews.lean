import InventoryClicks.Proofs.BuiltViews

/-!
# Joins of joins

A view of a view of a view can be put together from either end: whichever join is made first, both succeed or neither does,
and they look up the same slots. A union of views of one parent is a view of that parent, too, as long as it is not larger
(`joins_regroup`).
-/

namespace InventoryClicks.SlotView

/-- Behind every local slot there is the same external slot. -/
structure Alike (v w : SlotView) : Prop where
  size : v.size = w.size
  lookup : ∀ l, v.toExternal? l = w.toExternal? l

variable {a b c v w parent : SlotView} {parts joined : List SlotView}

theorem alike_of_toList (fv : v.Fits) (fw : w.Fits) (same : v.toList = w.toList) : v.Alike w where
  size := by rw [← length_toList fv, same, length_toList fw]
  lookup l := by rw [toExternal?_eq_getElem? fv, same, toExternal?_eq_getElem? fw]

theorem mem_of_mem_join {s : Nat} (mem : s ∈ (join parent v).toList) : s ∈ parent.toList := by
  obtain ⟨l, -, here⟩ := List.mem_filterMap.1 mem
  exact List.mem_of_getElem? here

theorem Joins.join_left (joins : c.Joins b) : c.Joins (join a b) := joins

theorem Joins.of_join_left (joins : c.Joins (join a b)) : c.Joins b := joins

theorem Joins.join_right (outer : b.Joins a) (inner : c.Joins b) : (join b c).Joins a :=
  ⟨Nat.le_trans inner.1 outer.1, fun s mem => outer.2 s (mem_of_mem_join mem)⟩

theorem toList_join_assoc (fa : a.Fits) (outer : b.Joins a) :
    (join (join a b) c).toList = (join a (join b c)).toList := by
  have within : ∀ s ∈ b.toList, s < a.toList.length := by
    rw [length_toList fa]
    exact outer.2
  simp only [toList, (filterMap_getElem?_of_lt within).2, List.filterMap_filterMap]

/-- Three views, joined from either end. -/
theorem join_assoc_alike (fa : a.Fits) (fb : b.Fits) (fc : c.Fits) (outer : b.Joins a) (inner : c.Joins b) :
    (join (join a b) c).Alike (join a (join b c)) :=
  alike_of_toList (inner.join_left.fits (outer.fits fa fb) fc)
    ((outer.join_right inner).fits fa (inner.fits fb fc)) (toList_join_assoc fa outer)

/-- Joins that succeed one by one. -/
theorem joined_of_mapM (fp : parent.Fits) (fit : ∀ part ∈ parts, part.Fits)
    (made : parts.mapM (ofJoin parent) = .ok joined) :
    (∀ part ∈ parts, part.Joins parent) ∧ joined = parts.map (join parent) := by
  induction parts generalizing joined with
  | nil =>
    cases made
    exact ⟨by simp, rfl⟩
  | cons part parts ih =>
    rw [List.mapM_cons] at made
    rcases first : ofJoin parent part with e | here
    · rw [first] at made
      cases made
    rcases rest : parts.mapM (ofJoin parent) with e | later
    · rw [first, rest] at made
      cases made
    rw [first, rest] at made
    cases made
    obtain ⟨joins, rfl⟩ := (ofJoin_eq_ok_iff fp (fit part (by simp))).1 first
    obtain ⟨others, rfl⟩ := ih (fun q mem => fit q (by simp [mem])) rest
    exact ⟨by simpa using ⟨joins, others⟩, rfl⟩

/-- A parent and a union of views of it. -/
theorem union_of_joins (fp : parent.Fits) (fit : ∀ part ∈ parts, part.Fits) (joins : ∀ part ∈ parts, part.Joins parent)
    (small : (parts.map size).sum < Bounded.viewLimit) (few : (parts.map size).sum ≤ parent.size) :
    ∃ whole outer inner, union parts = .ok whole ∧ ofJoin parent whole = .ok outer ∧
      union (parts.map (join parent)) = .ok inner ∧ outer.Alike inner := by
  have fit' : ∀ part ∈ parts.map (join parent), part.Fits := by
    intro q mem
    obtain ⟨part, here, rfl⟩ := List.mem_map.1 mem
    exact (joins part here).fits fp (fit part here)
  have sizes : (parts.map (join parent)).map size = parts.map size := by
    rw [List.map_map]
    rfl
  obtain ⟨whole, made, fits, slots⟩ := union_of_sum_lt fit small
  obtain ⟨inner, made', fits', slots'⟩ := union_of_sum_lt fit' (by rwa [sizes])
  have joinsWhole : whole.Joins parent := by
    refine ⟨by rwa [← length_toList fits, slots, length_flatMap_toList fit], fun s mem => ?_⟩
    rw [slots] at mem
    obtain ⟨part, here, mem⟩ := List.mem_flatMap.1 mem
    exact (joins part here).2 s mem
  refine ⟨whole, join parent whole, inner, made, (ofJoin_eq_ok_iff fp fits).2 ⟨joinsWhole, rfl⟩, made', ?_⟩
  apply alike_of_toList (joinsWhole.fits fp fits) fits'
  calc (join parent whole).toList = (parts.flatMap toList).filterMap (parent.toList[·]?) := by rw [toList, slots]
    _ = parts.flatMap fun part => (join parent part).toList := List.filterMap_flatMap ..
    _ = inner.toList := by rw [slots', List.flatMap_map]

/-- **Regrouping.** Of three views, the joins from one end succeed exactly if those from the other end do, and then look up
the same slots. And views that can each be joined to a parent can be joined to it together if they are not larger than it is,
which gives the same slots as the union of their joins. -/
theorem joins_regroup :
    (∀ a b c : SlotView, a.Built → b.Built → c.Built →
      (∀ ab abc, ofJoin a b = .ok ab → ofJoin ab c = .ok abc →
        ∃ bc abc', ofJoin b c = .ok bc ∧ ofJoin a bc = .ok abc' ∧ abc.Alike abc') ∧
      ∀ ab bc abc', ofJoin a b = .ok ab → ofJoin b c = .ok bc → ofJoin a bc = .ok abc' →
        ∃ abc, ofJoin ab c = .ok abc ∧ abc.Alike abc') ∧
    ∀ (parent : SlotView) (parts joined : List SlotView), parent.Built → (∀ part ∈ parts, part.Built) →
      parts.mapM (ofJoin parent) = .ok joined → (parts.map size).sum ≤ parent.size →
        ∃ whole outer inner, union parts = .ok whole ∧ ofJoin parent whole = .ok outer ∧ union joined = .ok inner ∧
          outer.Alike inner := by
  constructor
  · intro a b c builtA builtB builtC
    have fa := builtA.fits
    have fb := builtB.fits
    have fc := builtC.fits
    constructor
    · intro ab abc first second
      obtain ⟨outer, rfl⟩ := (ofJoin_eq_ok_iff fa fb).1 first
      obtain ⟨joins, rfl⟩ := (ofJoin_eq_ok_iff (outer.fits fa fb) fc).1 second
      have inner := joins.of_join_left
      exact ⟨join b c, join a (join b c), (ofJoin_eq_ok_iff fb fc).2 ⟨inner, rfl⟩,
        (ofJoin_eq_ok_iff fa (inner.fits fb fc)).2 ⟨outer.join_right inner, rfl⟩,
        join_assoc_alike fa fb fc outer inner⟩
    · intro ab bc abc' first inside second
      obtain ⟨outer, rfl⟩ := (ofJoin_eq_ok_iff fa fb).1 first
      obtain ⟨inner, rfl⟩ := (ofJoin_eq_ok_iff fb fc).1 inside
      obtain ⟨-, rfl⟩ := (ofJoin_eq_ok_iff fa (inner.fits fb fc)).1 second
      exact ⟨join (join a b) c, (ofJoin_eq_ok_iff (outer.fits fa fb) fc).2 ⟨inner.join_left, rfl⟩,
        join_assoc_alike fa fb fc outer inner⟩
  · intro parent parts joined built builtParts made few
    have fit : ∀ part ∈ parts, part.Fits := fun part mem => (builtParts part mem).fits
    obtain ⟨joins, rfl⟩ := joined_of_mapM built.fits fit made
    exact union_of_joins built.fits fit joins (Nat.lt_of_le_of_lt few built.size_lt) few

/-- Views that name slots out of order and more than once, and a union that is as large as its parent. -/
theorem joins_regroup_nested :
    let a := listed [7, 3, 7, 100, 20]
    let b := listed [4, 1, 0, 3]
    let c := span 1 3
    let parts := [singular 4, listed [0, 0], span 1 2]
    (∃ bc abc, ofJoin b c = .ok bc ∧ ofJoin a bc = .ok abc ∧ (join (join a b) c).Alike abc) ∧
      (∃ abc, ofJoin (join a b) c = .ok abc ∧ abc.Alike (join a (join b c))) ∧
      (join (join a b) c).externals = [3, 7, 100] ∧
      ∃ whole outer inner, union parts = .ok whole ∧ ofJoin a whole = .ok outer ∧
        union (parts.map (join a)) = .ok inner ∧ outer.Alike inner ∧ inner.externals = [20, 7, 7, 3, 7] := by
  intro a b c parts
  have builtA : a.Built := .listed (by decide) (by decide)
  have builtB : b.Built := .listed (by decide) (by decide)
  have builtC : c.Built := .span (show ofSpan 1 3 = .ok c from rfl)
  have builtParts : ∀ part ∈ parts, part.Built := by
    simp only [parts, List.mem_cons, List.not_mem_nil, or_false, forall_eq_or_imp, forall_eq]
    exact ⟨.singular (by decide), .listed (by decide) (by decide), .span (show ofSpan 1 2 = .ok (span 1 2) from rfl)⟩
  obtain ⟨fromLeft, fromRight⟩ := joins_regroup.1 a b c builtA builtB builtC
  obtain ⟨whole, outer, inner, made, joined, made', alike⟩ :=
    joins_regroup.2 a parts (parts.map (join a)) builtA builtParts rfl (by decide)
  have slots : (union (parts.map (join a))).map externals = .ok [20, 7, 7, 3, 7] := rfl
  rw [made'] at slots
  exact ⟨fromLeft _ _ rfl rfl, fromRight _ _ _ rfl rfl rfl, rfl, whole, outer, inner, made, joined, made', alike,
    Except.ok.inj slots⟩

end InventoryClicks.SlotView
