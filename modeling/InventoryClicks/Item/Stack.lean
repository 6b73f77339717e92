import InventoryClicks.Item.Material

/-!
# Stacks

A stack is a number of items of one material, with optional data that the library never looks into. Stacks are
in normal form by type: no items and no material go together, and an empty stack has no data. So there is one
empty stack, and two stacks are the same exactly when their fields are.
-/

namespace InventoryClicks

structure Stack where
  material : Material
  count : Nat
  data : Option (List UInt8)
  normal : (0 < count ∧ count ≤ 127 ∧ material ≠ .air) ∨ (material = .air ∧ count = 0 ∧ data = none)
  deriving DecidableEq

namespace Stack

def empty : Stack := ⟨.air, 0, none, .inr ⟨rfl, rfl, rfl⟩⟩

instance : Inhabited Stack := ⟨empty⟩

/-- Stack of `count` items, clamped to the 127 that a stack can count; empty without items or of air. -/
def of (material : Material) (count : Int) (data : Option (List UInt8)) : Stack :=
  if h : material = .air ∨ count ≤ 0 then empty
  else ⟨material, min count.toNat 127, data, .inl ⟨by omega, by omega, fun e => h (.inl e)⟩⟩

/-- One item. -/
def single (material : Material) : Stack := of material 1 none

def isEmpty (s : Stack) : Bool := s.count == 0

/-- Same items in another number. -/
def withCount (s : Stack) (count : Int) : Stack := of s.material count s.data

/-- Same items under other data. An empty stack takes none. -/
def withData (s : Stack) (data : Option (List UInt8)) : Stack :=
  if h : s.count = 0 then s
  else ⟨s.material, s.count, data, .inl (s.normal.resolve_right fun n => h n.2.1)⟩

theorem count_le (s : Stack) : s.count ≤ 127 := by
  rcases s.normal with h | h <;> omega

theorem eq_empty_of_count {s : Stack} (h : s.count = 0) : s = empty := by
  obtain ⟨m, c, d, n⟩ := s
  simp only at h
  rcases n with n | n
  · omega
  · simp [empty, n]

theorem isEmpty_iff {s : Stack} : s.isEmpty = true ↔ s = empty :=
  ⟨fun h => eq_empty_of_count (by simpa [isEmpty] using h), fun h => by subst h; rfl⟩

@[simp] theorem isEmpty_empty : empty.isEmpty = true := rfl

@[simp] theorem count_empty : empty.count = 0 := rfl

theorem count_of (m : Material) (c : Int) (d : Option (List UInt8)) (h : m ≠ .air) :
    (of m c d).count = min c.toNat 127 := by
  simp only [of]
  split
  · next hc =>
    have := hc.resolve_left h
    simp only [count_empty]
    omega
  · rfl

end Stack

end InventoryClicks
