import InventoryClicks.NatMap
import InventoryClicks.Click.Action

/-!
# Drag tables

The window slots of drags that are not finished yet, apart for each player and each button, so that no drag can
touch another.
-/

namespace InventoryClicks

/-- Slots of unfinished drags by player, for each button. -/
structure DragTable where
  left : NatMap (List Nat) := ∅
  right : NatMap (List Nat) := ∅
  middle : NatMap (List Nat) := ∅
  deriving DecidableEq

namespace DragTable

def get (t : DragTable) : Button → NatMap (List Nat)
  | .left => t.left
  | .right => t.right
  | .middle => t.middle

def put (t : DragTable) (button : Button) (m : NatMap (List Nat)) : DragTable :=
  match button with
  | .left => { t with left := m }
  | .right => { t with right := m }
  | .middle => { t with middle := m }

/-- Slots the player has dragged over so far, none without a drag. -/
def slots (t : DragTable) (button : Button) (player : Nat) : List Nat :=
  ((t.get button).get? player).getD []

def record (t : DragTable) (button : Button) (player : Nat) (slots : List Nat) : DragTable :=
  t.put button ((t.get button).insert player slots)

def forget (t : DragTable) (button : Button) (player : Nat) : DragTable :=
  t.put button ((t.get button).erase player)

/-- Number of unfinished drags. -/
def size (t : DragTable) : Nat := t.left.size + t.right.size + t.middle.size

end DragTable

end InventoryClicks
