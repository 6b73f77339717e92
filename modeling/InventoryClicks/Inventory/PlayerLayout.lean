import InventoryClicks.Fault
import InventoryClicks.Item.Equipment
import InventoryClicks.Inventory.Kind

/-!
# Layout of a player's inventory

Slot 0 is the crafting result, 1 to 4 the crafting grid, 5 to 8 the armor from head to feet, 9 to 35 the storage,
36 to 44 the hotbar and 45 the offhand. Storage and hotbar are the main slots, the only ones of a player that a
window shows below an opened container.
-/

namespace InventoryClicks

namespace PlayerLayout

abbrev craftResult : Nat := 0
abbrev headSlot : Nat := 5
abbrev chestSlot : Nat := 6
abbrev legsSlot : Nat := 7
abbrev feetSlot : Nat := 8
abbrev offhand : Nat := 45

/-- First main slot. -/
abbrev mainStart : Nat := 9
abbrev mainSize : Nat := 36
abbrev hotbarStart : Nat := 36

def craftGrid : List Nat := List.range' 1 4
def armor : List Nat := List.range' headSlot 4
def storage : List Nat := List.range' mainStart 27
def hotbar : List Nat := List.range' hotbarStart 9

/-- Main slot behind slot `slot` of a window with a container of that kind on top. -/
def ofWindowSlot (container : Inventory.Kind) (slot : Nat) : Except Fault Nat := do
  let main ← Bounded.sub slot container.slotCount
  Bounded.add Bounded.slotLimit main mainStart

def hotbarSlot (index : Nat) : Nat := hotbarStart + index

/-- Position in the hotbar, as the byte that clients are sent. -/
def hotbarIndex (slot : Nat) : Except Fault Nat := do
  return (← Bounded.sub slot hotbarStart) % 256

/-- Slot an equipment is worn in. The main hand holds whichever hotbar slot is selected, so it has none. -/
def equipmentSlot? : Equipment → Option Nat
  | .mainHand => none
  | .offHand => some offhand
  | .feet => some feetSlot
  | .legs => some legsSlot
  | .chest => some chestSlot
  | .head => some headSlot

/-- Equipment kept in a slot, while the main hand holds `held`. -/
def equipmentAt? (slot held : Nat) : Option Equipment :=
  if slot = offhand then some .offHand
  else if slot = feetSlot then some .feet
  else if slot = legsSlot then some .legs
  else if slot = chestSlot then some .chest
  else if slot = headSlot then some .head
  else if slot = held then some .mainHand
  else none

/-- Empty slots that new stacks are put into, best first. -/
def airOrder : List Nat := hotbar ++ storage

/-- Slots whose stacks are filled up when items are added, best first. -/
def fillOrder : List Nat := offhand :: airOrder

/-- Slots that items are taken from, all of them, best first. -/
def takeOrder : List Nat := hotbar ++ storage ++ [offhand] ++ List.range' craftResult 9

end PlayerLayout

end InventoryClicks
