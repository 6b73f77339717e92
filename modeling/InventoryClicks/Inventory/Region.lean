import InventoryClicks.SlotView.Expr
import InventoryClicks.Inventory.PlayerLayout

/-!
# Regions

Named parts of common inventories, as view expressions. A region is a span of local slots of the region that
contains it, so it can be divided further without counting slots again.
-/

namespace InventoryClicks.Region

open SlotView (Expr)

def root (kind : Inventory.Kind) : Expr := .span 0 kind.slotCount

/-- `len` local slots of `whole`. -/
def part (whole : Expr) (start len : Nat) : Expr := .join whole (.span start len)

namespace Player

def root : Expr := Region.root .player

/-- Result slot, then the grid. -/
def crafting : Expr := part root PlayerLayout.craftResult 5
def craftingResult : Expr := part crafting 0 1
def craftingInput : Expr := part crafting 1 4

/-- Head, chest, legs and feet. -/
def armor : Expr := part root PlayerLayout.headSlot 4
def head : Expr := part armor 0 1
def chest : Expr := part armor 1 1
def legs : Expr := part armor 2 1
def feet : Expr := part armor 3 1

/-- Storage, then the hotbar. -/
def main : Expr := part root PlayerLayout.mainStart PlayerLayout.mainSize
def storage : Expr := part main 0 27
def hotbar : Expr := part main 27 9
def offhand : Expr := part root PlayerLayout.offhand 1

end Player

namespace Furnace

def root : Expr := Region.root .furnace
def input : Expr := part root 0 1
def fuel : Expr := part root 1 1
def result : Expr := part root 2 1

end Furnace

namespace Brewing

def root : Expr := Region.root .brewingStand

/-- The three potions. -/
def results : Expr := part root 0 3
def ingredient : Expr := part root 3 1
def fuel : Expr := part root 4 1

end Brewing

/-- Every region of the three inventories under its name. -/
def byName : List (String × Expr) :=
  [("player.root", Player.root), ("player.crafting", Player.crafting),
    ("player.crafting_result", Player.craftingResult),
    ("player.crafting_input", Player.craftingInput), ("player.armor", Player.armor),
    ("player.head", Player.head), ("player.chest", Player.chest),
    ("player.legs", Player.legs), ("player.feet", Player.feet),
    ("player.main", Player.main), ("player.storage", Player.storage),
    ("player.hotbar", Player.hotbar), ("player.offhand", Player.offhand),
    ("furnace.root", Furnace.root), ("furnace.input", Furnace.input),
    ("furnace.fuel", Furnace.fuel), ("furnace.result", Furnace.result),
    ("brewing.root", Brewing.root), ("brewing.results", Brewing.results),
    ("brewing.ingredient", Brewing.ingredient), ("brewing.fuel", Brewing.fuel)]

end InventoryClicks.Region
