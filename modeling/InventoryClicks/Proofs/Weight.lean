import Mathlib.Algebra.BigOperators.Group.List.Basic
import Mathlib.Algebra.Ring.Int.Defs
import InventoryClicks.Inventory.Basic

/-!
# Weights

A weight gives every item a number by its material and data, and a stack weighs what its items weigh together.
With `Weight.items` a weight counts items, with `Weight.ofType` those of one type only, so that conservation of
either is one statement about weights. `weight_set` says what a write does to the weight of an inventory.
-/

namespace InventoryClicks

/-- A sum over a list in which one element gives way to another. -/
theorem sum_map_set {α : Type} (f : α → Int) {l : List α} {i : Nat} {old a : α} (h : l[i]? = some old) :
    ((l.set i a).map f).sum = (l.map f).sum - f old + f a := by
  obtain ⟨hi, rfl⟩ := List.getElem?_eq_some_iff.1 h
  rw [List.map_set, List.sum_set', dif_pos (by simpa using hi), List.getElem_map]
  omega

/-- What one item of a material and with that data weighs. -/
abbrev Weight := Material → Option (List UInt8) → Int

namespace Weight

/-- Every item counts. -/
def items : Weight := fun _ _ => 1

/-- Items of the material and with that data count. -/
def ofType (material : Material) (data : Option (List UInt8)) : Weight :=
  fun m d => if m = material ∧ d = data then 1 else 0

end Weight

namespace Stack

variable {w : Weight} {s : Stack}

def weight (w : Weight) (s : Stack) : Int := s.count * w s.material s.data

@[simp] theorem weight_empty (w : Weight) : empty.weight w = 0 := by
  simp [weight]

@[simp] theorem weight_items (s : Stack) : s.weight .items = s.count := by
  simp [weight, Weight.items]

@[simp] theorem weight_neg (w : Weight) (s : Stack) : s.weight (-w) = -s.weight w := Int.mul_neg _ _

theorem weight_of_isEmpty (h : s.isEmpty = true) : s.weight w = 0 := by
  rw [isEmpty_iff.1 h, weight_empty]

theorem count_pos (h : s.isEmpty = false) : 0 < s.count := by
  simp only [isEmpty, beq_eq_false_iff_ne] at h
  omega

theorem material_ne_air (h : s.isEmpty = false) : s.material ≠ .air := by
  have pos := count_pos h
  rcases s.normal with n | n
  · exact n.2.2
  · omega

/-- Items of a stack in a number that a stack can count weigh in proportion. -/
theorem weight_withCount {n : Int} (h : s.isEmpty = false) (lo : 0 ≤ n) (hi : n ≤ 127) :
    (s.withCount n).weight w = n * w s.material s.data := by
  have air := material_ne_air h
  unfold withCount of
  split
  · next none =>
    have zero : n = 0 := by
      have := none.resolve_left air
      omega
    simp [zero]
  · have count : ((min n.toNat 127 : Nat) : Int) = n := by omega
    simp only [weight, count]

end Stack

namespace Inventory

variable {inv : Inventory} {i : Nat} {old s : Stack} {w : Weight}

/-- All stacks together. -/
def weight (w : Weight) (inv : Inventory) : Int := (inv.slots.map (·.weight w)).sum

theorem weight_set (h : inv.get? i = some old) : (inv.set i s).weight w = inv.weight w - old.weight w + s.weight w :=
  sum_map_set (Stack.weight w) h

/-- An inventory is its kind and what it answers at every slot. -/
theorem ext_get? {a b : Inventory} (kind : a.kind = b.kind) (get : ∀ i, a.get? i = b.get? i) : a = b := by
  obtain ⟨ka, la, ha⟩ := a
  obtain ⟨kb, lb, hb⟩ := b
  have slots : la = lb := List.ext_getElem? get
  cases kind
  cases slots
  rfl

end Inventory

end InventoryClicks
