/-!
# Equipment

The six places on a body where an item is worn or held, with the numbers clients know them by.
-/

namespace InventoryClicks

inductive Equipment where
  | mainHand | offHand | feet | legs | chest | head
  deriving DecidableEq, Repr

namespace Equipment

def all : List Equipment := [.mainHand, .offHand, .feet, .legs, .chest, .head]

def name : Equipment → String
  | .mainHand => "MainHand"
  | .offHand => "OffHand"
  | .feet => "Feet"
  | .legs => "Legs"
  | .chest => "Chest"
  | .head => "Head"

/-- Number on the wire. -/
def index : Equipment → Nat
  | .mainHand => 0
  | .offHand => 1
  | .feet => 2
  | .legs => 3
  | .chest => 4
  | .head => 5

def isHand : Equipment → Bool
  | .mainHand | .offHand => true
  | .feet | .legs | .chest | .head => false

def isArmor (e : Equipment) : Bool := !e.isHand

end Equipment

end InventoryClicks
