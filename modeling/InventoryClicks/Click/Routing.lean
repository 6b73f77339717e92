import InventoryClicks.Click.Draft

/-!
# Routing

A routing says which window slots a moved stack may go to, or be collected from, best slot first. There is one
for a player's own inventory, one for plain containers and one for furnaces.
-/

namespace InventoryClicks

/-- From the draft, the stack to route and the clicked slot. -/
abbrev Routing := Draft → Stack → Nat → List Nat

namespace Routing

open PlayerLayout

/-- To the place where the item is worn, then to storage and hotbar unless it comes from there. What was crafted
goes the opposite way. -/
def playerShift : Routing := fun _ s slot =>
  let worn := (s.material.equipment?.bind equipmentSlot?).toList.filter (· != slot)
  let order := worn ++ (if slot ∈ storage then [] else storage) ++ (if slot ∈ hotbar then [] else hotbar)
  if slot = craftResult then order.reverse else order

/-- Every slot but the crafting result. -/
def playerCollect : Routing := fun _ _ _ => craftGrid ++ armor ++ storage ++ hotbar ++ [offhand]

/-- From the container to the player's main slots, and back. -/
def containerShift : Routing := fun d _ slot =>
  if d.clickedSize ≤ slot then List.range d.clickedSize else List.range' d.clickedSize mainSize

def containerCollect : Routing := fun d _ _ => List.range (d.clickedSize + mainSize)

/-- From the furnace to the main slots, and between storage and hotbar: nothing is put into a furnace. -/
def furnaceShift : Routing := fun d _ slot =>
  let size := d.clickedSize
  if slot < size then List.range' size mainSize
  else if slot < size + 27 then List.range' (size + 27) 9
  else List.range' size 27

end Routing

end InventoryClicks
