import InventoryClicks.Inventory.PlayerLayout

/-!
# The held slot

A player always holds one of the nine hotbar slots in the main hand; that it is one of them is part of the type.
-/

namespace InventoryClicks

/-- The hotbar slot in a player's main hand. -/
structure HeldSlot where
  slot : Nat := PlayerLayout.hotbarStart
  first_le : 36 ≤ slot := by decide
  le_last : slot ≤ 44 := by decide
  deriving DecidableEq

namespace HeldSlot

instance : Inhabited HeldSlot := ⟨{}⟩

def ofSlot (slot : Nat) : Except Fault HeldSlot :=
  if h : 36 ≤ slot ∧ slot ≤ 44 then .ok ⟨slot, h.1, h.2⟩ else .error (.writeOutside slot)

def index (h : HeldSlot) : Nat := h.slot - PlayerLayout.hotbarStart

end HeldSlot

end InventoryClicks
