import InventoryClicks.Inventory.Basic
import InventoryClicks.SlotView.Basic

/-!
# Inventories through views

Reading and writing at the local slots of a view. A view may reach past the inventory, and may name a slot more
than once; a local slot with no slot of the inventory behind it is neither read nor written.
-/

namespace InventoryClicks.Inventory

def getThrough? (inv : Inventory) (view : SlotView) (l : Nat) : Option Stack :=
  (view.toExternal? l).bind inv.get?

/-- The stack that was there, and the inventory with `s` in its place. -/
def replaceThrough? (inv : Inventory) (view : SlotView) (l : Nat) (s : Stack) : Option (Stack × Inventory) := do
  let slot ← view.toExternal? l
  let old ← inv.get? slot
  return (old, inv.set slot s)

/-- Every slot that the view covers is emptied. -/
def clearThrough (inv : Inventory) (view : SlotView) : Inventory :=
  view.externals.foldl (fun acc slot => acc.set slot .empty) inv

end InventoryClicks.Inventory
