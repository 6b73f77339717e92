/-!
# Kinds of inventory

What an inventory belongs to. The kind fixes the number of slots, without the player slots that a window shows
below an opened container.
-/

namespace InventoryClicks

inductive Inventory.Kind where
  | generic9x1 | generic9x2 | generic9x3 | generic9x4 | generic9x5 | generic9x6 | generic3x3 | anvil
  | beacon | blastFurnace | brewingStand | crafting | enchantment | furnace | grindstone | hopper | lectern
  | loom | merchant | shulkerBox | smithing | smoker | cartography | stonecutter | player
  deriving DecidableEq, Repr

namespace Inventory.Kind

/-- Every kind, in the order of declaration. -/
def all : List Kind := [
  .generic9x1, .generic9x2, .generic9x3, .generic9x4, .generic9x5, .generic9x6, .generic3x3, .anvil,
  .beacon, .blastFurnace, .brewingStand, .crafting, .enchantment, .furnace, .grindstone, .hopper, .lectern,
  .loom, .merchant, .shulkerBox, .smithing, .smoker, .cartography, .stonecutter, .player]

def name : Kind → String
  | .generic9x1 => "Generic9x1"
  | .generic9x2 => "Generic9x2"
  | .generic9x3 => "Generic9x3"
  | .generic9x4 => "Generic9x4"
  | .generic9x5 => "Generic9x5"
  | .generic9x6 => "Generic9x6"
  | .generic3x3 => "Generic3x3"
  | .anvil => "Anvil"
  | .beacon => "Beacon"
  | .blastFurnace => "BlastFurnace"
  | .brewingStand => "BrewingStand"
  | .crafting => "Crafting"
  | .enchantment => "Enchantment"
  | .furnace => "Furnace"
  | .grindstone => "Grindstone"
  | .hopper => "Hopper"
  | .lectern => "Lectern"
  | .loom => "Loom"
  | .merchant => "Merchant"
  | .shulkerBox => "ShulkerBox"
  | .smithing => "Smithing"
  | .smoker => "Smoker"
  | .cartography => "Cartography"
  | .stonecutter => "Stonecutter"
  | .player => "Player"

def slotCount : Kind → Nat
  | .generic9x1 | .generic3x3 => 9
  | .generic9x2 => 18
  | .generic9x3 | .shulkerBox => 27
  | .generic9x4 => 36
  | .generic9x5 => 45
  | .generic9x6 => 54
  | .anvil | .loom => 4
  | .beacon | .lectern => 1
  | .blastFurnace | .furnace | .grindstone | .merchant | .smithing | .smoker | .cartography => 3
  | .brewingStand | .hopper => 5
  | .crafting => 10
  | .enchantment | .stonecutter => 2
  | .player => 46

theorem slotCount_le (k : Kind) : k.slotCount ≤ 54 := by cases k <;> decide

end Inventory.Kind

end InventoryClicks
