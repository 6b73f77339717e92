import InventoryClicks.Click.Action

/-!
# Packets

What a client sends about a click. The slot is a window slot or `Packet.outside`, the meaning of the button
depends on the mode, and neither need make sense.
-/

namespace InventoryClicks

/-- What a click packet says was done. -/
inductive Packet.Mode where
  | click | shiftClick | hotbarKey | middleClick | dropKey | drag | doubleClick
  deriving DecidableEq, Repr

namespace Packet.Mode

def all : List Packet.Mode := [.click, .shiftClick, .hotbarKey, .middleClick, .dropKey, .drag, .doubleClick]

def name : Packet.Mode → String
  | .click => "Click"
  | .shiftClick => "ShiftClick"
  | .hotbarKey => "Hotbar"
  | .middleClick => "CreativeMiddleClick"
  | .dropKey => "DropKey"
  | .drag => "Drag"
  | .doubleClick => "DoubleClick"

end Packet.Mode

/-- A click packet, as sent. -/
structure Packet where
  mode : Packet.Mode
  slot : Int
  button : Int
  deriving DecidableEq, Repr

/-- Slot of a click outside of the window. -/
abbrev Packet.outside : Int := -999

/-- Part of a drag that a packet tells of. -/
inductive Packet.DragPart where
  | start | slot | finish
  deriving DecidableEq, Repr

/-- Button and part of a drag behind the button number of a drag packet. -/
def Packet.dragPart? : Int → Option (Button × DragPart)
  | 0 => some (.left, .start)
  | 1 => some (.left, .slot)
  | 2 => some (.left, .finish)
  | 4 => some (.right, .start)
  | 5 => some (.right, .slot)
  | 6 => some (.right, .finish)
  | 8 => some (.middle, .start)
  | 9 => some (.middle, .slot)
  | 10 => some (.middle, .finish)
  | _ => none

end InventoryClicks
