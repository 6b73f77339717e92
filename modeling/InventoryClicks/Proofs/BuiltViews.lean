import Mathlib.Algebra.Ring.Nat
import InventoryClicks.Proofs.ViewLists

/-!
# Built views

A view is built if constructors made it of slots and sizes, by way of other such views. Built views fit (`Built.fits`), so
that each of them stands for a list of slots, and their sizes are below the limit (`Built.size_lt`).
-/

namespace InventoryClicks.SlotView

inductive Built : SlotView → Prop where
  | range {min max : Nat} {v : SlotView} (made : ofRange min max = .ok v) : Built v
  | span {start len : Nat} {v : SlotView} (made : ofSpan start len = .ok v) : Built v
  | singular {slot : Nat} (small : slot < Bounded.viewLimit) : Built (singular slot)
  | listed {slots : List Nat} (small : ∀ slot ∈ slots, slot < Bounded.viewLimit)
      (few : slots.length < Bounded.viewLimit) : Built (listed slots)
  | union {parts : List SlotView} {v : SlotView} (built : ∀ part ∈ parts, Built part) (made : union parts = .ok v) :
      Built v
  | join {parent child v : SlotView} (p : Built parent) (c : Built child) (made : ofJoin parent child = .ok v) : Built v

/-- Every slot of the child is a local slot of the parent, and there are no more of them. -/
def Joins (child parent : SlotView) : Prop := child.size ≤ parent.size ∧ ∀ s ∈ child.toList, s < parent.size

variable {parent child v : SlotView} {parts : List SlotView}

theorem misfit?_eq_none_iff {parent child : List Nat} :
    misfit? parent child = none ↔ child.length ≤ parent.length ∧ ∀ s ∈ child, s < parent.length := by
  unfold misfit?
  split
  · next longer =>
    simp only [reduceCtorEq, false_iff, not_and]
    omega
  · next fits => simp [Nat.le_of_not_lt fits]

theorem ofJoin_eq_ok_iff (p : parent.Fits) (c : child.Fits) :
    ofJoin parent child = .ok v ↔ child.Joins parent ∧ v = join parent child := by
  have fit : misfit? parent.toList child.toList = none ↔ _ := misfit?_eq_none_iff
  rw [length_toList p, length_toList c] at fit
  rw [ofJoin_eq p c, Joins, ← fit]
  cases misfit? parent.toList child.toList with
  | none => simp [eq_comm]
  | some cause => simp

theorem Joins.fits (joins : child.Joins parent) (p : parent.Fits) (c : child.Fits) : (join parent child).Fits :=
  ⟨p, c, joins.2⟩

theorem length_flatMap_toList (fit : ∀ part ∈ parts, part.Fits) :
    (parts.flatMap toList).length = (parts.map size).sum := by
  rw [List.length_flatMap]
  exact congrArg List.sum (List.map_congr_left fun part mem => length_toList (fit part mem))

theorem union_of_sum_lt (fit : ∀ part ∈ parts, part.Fits) (small : (parts.map size).sum < Bounded.viewLimit) :
    ∃ v, union parts = .ok v ∧ v.Fits ∧ v.toList = parts.flatMap toList := by
  have together := union_fits fit
  rwa [length_flatMap_toList fit, if_pos small] at together

theorem union_of_le_sum (fit : ∀ part ∈ parts, part.Fits) (large : Bounded.viewLimit ≤ (parts.map size).sum) :
    union parts = .error .additionOverflow := by
  have together := union_fits fit
  rwa [length_flatMap_toList fit, if_neg (Nat.not_lt.2 large)] at together

/-- Parts make up a union if and only if their sizes do not add up to more than a size. -/
theorem union_eq_ok_iff (fit : ∀ part ∈ parts, part.Fits) :
    (∃ v, union parts = .ok v) ↔ (parts.map size).sum < Bounded.viewLimit := by
  constructor
  · rintro ⟨v, made⟩
    refine Nat.lt_of_not_le fun large => ?_
    rw [union_of_le_sum fit large] at made
    cases made
  · intro small
    obtain ⟨v, made, -⟩ := union_of_sum_lt fit small
    exact ⟨v, made⟩

theorem fits_of_union (fit : ∀ part ∈ parts, part.Fits) (made : union parts = .ok v) :
    v.Fits ∧ v.toList = parts.flatMap toList ∧ v.size < Bounded.viewLimit := by
  have small := (union_eq_ok_iff fit).1 ⟨v, made⟩
  obtain ⟨w, made', fits, slots⟩ := union_of_sum_lt fit small
  rw [made] at made'
  cases made'
  refine ⟨fits, slots, ?_⟩
  rwa [← length_toList fits, slots, length_flatMap_toList fit]

theorem fits_of_ofSpan {start len : Nat} (made : ofSpan start len = .ok v) : v.Fits ∧ v.size < Bounded.viewLimit := by
  unfold ofSpan at made
  split at made
  · next sum =>
    cases made
    exact ⟨Nat.le_of_lt sum, Nat.lt_of_le_of_lt (Nat.le_add_left len start) sum⟩
  · cases made

theorem Built.fits_and_size_lt (built : v.Built) : v.Fits ∧ v.size < Bounded.viewLimit := by
  induction built with
  | range made =>
    unfold ofRange at made
    split at made
    · cases made
    · exact fits_of_ofSpan made
  | span made => exact fits_of_ofSpan made
  | singular small =>
    have one : 1 < Bounded.viewLimit := by decide
    exact ⟨small, one⟩
  | listed small few => exact ⟨trivial, few⟩
  | union built made ih =>
    obtain ⟨fits, -, small⟩ := fits_of_union (fun part mem => (ih part mem).1) made
    exact ⟨fits, small⟩
  | join p c made ihp ihc =>
    obtain ⟨joins, rfl⟩ := (ofJoin_eq_ok_iff ihp.1 ihc.1).1 made
    exact ⟨joins.fits ihp.1 ihc.1, ihc.2⟩

theorem Built.fits (built : v.Built) : v.Fits := built.fits_and_size_lt.1

theorem Built.size_lt (built : v.Built) : v.size < Bounded.viewLimit := built.fits_and_size_lt.2

end InventoryClicks.SlotView
