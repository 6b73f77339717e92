import InventoryClicks.Item.Stack

/-!
# Actions

What a player did to a window, as a value. Slots are window slots: those of the opened container come first and
the player's main slots after them; without a container they are the slots of the player's own inventory.
-/

namespace InventoryClicks

inductive GameMode where
  | survival | creative | adventure | spectator
  deriving DecidableEq, Repr

def GameMode.all : List GameMode := [.survival, .creative, .adventure, .spectator]

def GameMode.name : GameMode → String
  | .survival => "Survival"
  | .creative => "Creative"
  | .adventure => "Adventure"
  | .spectator => "Spectator"

/-- Button of the mouse. -/
inductive Button where
  | left | right | middle
  deriving DecidableEq, Repr

inductive Action where
  /-- Plain click. The middle button copies the stack to the cursor and is creative. -/
  | click (button : Button) (slot : Nat)
  /-- Click with shift held, which moves the stack away. `secondary` for the right button. -/
  | shift (secondary : Bool) (slot : Nat)
  /-- Double click, which collects items like those on the cursor. -/
  | collect (slot : Nat)
  /-- The cursor dragged over slots. The middle button fills empty slots with copies and is creative. -/
  | drag (button : Button) (slots : List Nat)
  /-- Click outside of the window. -/
  | dropCursor (button : Button)
  /-- One item of a slot thrown away, or all of them. -/
  | dropSlot (slot : Nat) (all : Bool)
  | hotbarSwap (hotbar slot : Nat)
  | offhandSwap (slot : Nat)
  | creativeSet (slot : Nat) (stack : Stack)
  | creativeDrop (stack : Stack)
  deriving DecidableEq

namespace Action

/-- What was done, without the slots it was done to. -/
def name : Action → String
  | .click .left _ => "Left"
  | .click .right _ => "Right"
  | .click .middle _ => "Middle"
  | .shift false _ => "LeftShift"
  | .shift true _ => "RightShift"
  | .collect _ => "Double"
  | .drag .left _ => "LeftDrag"
  | .drag .right _ => "RightDrag"
  | .drag .middle _ => "MiddleDrag"
  | .dropCursor .left => "LeftDropCursor"
  | .dropCursor .right => "RightDropCursor"
  | .dropCursor .middle => "MiddleDropCursor"
  | .dropSlot .. => "DropSlot"
  | .hotbarSwap .. => "HotbarSwap"
  | .offhandSwap _ => "OffhandSwap"
  | .creativeSet .. => "CreativeSetItem"
  | .creativeDrop _ => "CreativeDropItem"

/-- Only a player in creative mode may do it. -/
def isCreative : Action → Bool
  | click .middle _ | drag .middle _ | creativeSet .. | creativeDrop _ => true
  | _ => false

/-- The window slots that the action names. -/
def slots : Action → List Nat
  | click _ slot | shift _ slot | collect slot | dropSlot slot _ | hotbarSwap _ slot | offhandSwap slot
  | creativeSet slot _ => [slot]
  | drag _ slots => slots
  | dropCursor _ | creativeDrop _ => []

end Action

end InventoryClicks
