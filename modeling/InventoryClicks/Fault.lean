/-!
# Faults and bounded arithmetic

An operation that cannot go on stops with a `Fault`. A fault is a cause, not a text: `Fault.message` holds the
wording. Slots are 16-bit numbers, view sizes 64-bit ones and the amounts of a stacking rule signed 32-bit
ones; a sum or difference that leaves its width is a fault, never a wrapped number.
-/

namespace InventoryClicks

/-- The cause that stops an operation. -/
inductive Fault where
  /-- A slot past the end of an inventory was read. -/
  | readOutside
  /-- A slot was written that the target does not have. -/
  | writeOutside (slot : Nat)
  /-- A range of slots reaches past the end of an inventory. -/
  | rangeOutside
  | additionOverflow
  | subtractionOverflow
  /-- A world is updated after one of its updates stopped at a fault. -/
  | scheduleLost
  deriving DecidableEq, Repr, Inhabited

def Fault.message : Fault → String
  | .readOutside => "slot index out of range"
  | .writeOutside slot => s!"slot index of {slot} out of bounds"
  | .rangeOutside => "slot range out of range"
  | .additionOverflow => "attempt to add with overflow"
  | .subtractionOverflow => "attempt to subtract with overflow"
  | .scheduleLost => "The schedule with the label Main was not found."

namespace Bounded

/-- One past the largest slot number of an inventory or a window. -/
abbrev slotLimit : Nat := 0x10000

/-- One past the largest size of a slot view, and past its largest external slot. -/
abbrev viewLimit : Nat := 0x10000000000000000

/-- Sum of naturals that has to stay below `limit`. -/
def add (limit a b : Nat) : Except Fault Nat :=
  if a + b < limit then .ok (a + b) else .error .additionOverflow

/-- Difference of naturals that has to stay one. -/
def sub (a b : Nat) : Except Fault Nat :=
  if b ≤ a then .ok (a - b) else .error .subtractionOverflow

theorem add_eq_ok {limit a b : Nat} (h : a + b < limit) : add limit a b = .ok (a + b) := by
  simp [add, h]

theorem sub_eq_ok {a b : Nat} (h : b ≤ a) : sub a b = .ok (a - b) := by
  simp [sub, h]

end Bounded

namespace Amount

/-- The range of an amount. -/
def InRange (n : Int) : Prop := -0x80000000 ≤ n ∧ n < 0x80000000

instance (n : Int) : Decidable (InRange n) := inferInstanceAs (Decidable (_ ∧ _))

def add (a b : Int) : Except Fault Int :=
  if InRange (a + b) then .ok (a + b) else .error .additionOverflow

def sub (a b : Int) : Except Fault Int :=
  if InRange (a - b) then .ok (a - b) else .error .subtractionOverflow

theorem add_eq_ok {a b : Int} (h : InRange (a + b)) : add a b = .ok (a + b) := by
  simp [add, h]

theorem sub_eq_ok {a b : Int} (h : InRange (a - b)) : sub a b = .ok (a - b) := by
  simp [sub, h]

end Amount

end InventoryClicks
