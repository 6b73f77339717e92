import InventoryClicks.Inventory.Basic
import InventoryClicks.Inventory.PlayerLayout

/-!
# Windows

The inventories a player has in view. With a container open, its slots come first and the player's main slots
follow; without one, the window is the player's own inventory. `Window.locate` alone decides which cell a window
slot is; reading, staging and writing all go through it.
-/

namespace InventoryClicks

structure Window where
  player : Inventory
  container : Option Inventory := none
  deriving DecidableEq

/-- A cell of one of the two inventories, by the slot it has there. -/
inductive Cell where
  | container (slot : Nat)
  | player (slot : Nat)
  deriving DecidableEq, Repr

namespace Window

/-- The inventory that window slots count from: the container if one is open. -/
def clicked (w : Window) : Inventory := w.container.getD w.player

def slotCount (w : Window) : Nat :=
  match w.container with
  | some c => PlayerLayout.mainSize + c.slotCount
  | none => w.player.slotCount

/-- The cell of a window slot. It may lie outside of its inventory. -/
def locate (w : Window) (slot : Nat) : Except Fault Cell :=
  match w.container with
  | some c =>
    if slot < c.slotCount then .ok (.container slot) else .player <$> PlayerLayout.ofWindowSlot c.kind slot
  | none => .ok (.player slot)

def readCell (w : Window) : Cell → Except Fault Stack
  | .container slot => w.clicked.read slot
  | .player slot => w.player.read slot

def read (w : Window) (slot : Nat) : Except Fault Stack := do w.readCell (← w.locate slot)

end Window

/-- All that one click can see and change: a window and the stack on the cursor. -/
structure Scene extends Window where
  cursor : Stack := .empty
  deriving DecidableEq

end InventoryClicks
