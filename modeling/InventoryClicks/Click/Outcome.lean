import InventoryClicks.NatMap
import InventoryClicks.StepM
import InventoryClicks.Window.Basic

/-!
# Outcomes

An outcome is what a click changes, as data: stacks for slots of the clicked inventory and for slots of the
player's, a new cursor, and stacks thrown into the world. `apply` writes it over a scene.
-/

namespace InventoryClicks

structure Outcome where
  /-- By slot of the clicked inventory: the container, or the player's without one. -/
  changes : NatMap Stack := ∅
  playerChanges : NatMap Stack := ∅
  /-- The new cursor, if there is one. -/
  cursor : Option Stack := none
  /-- Stacks thrown by the player. An empty list is not the same as none. -/
  drops : Option (List Stack) := none
  deriving DecidableEq

namespace Outcome

instance : Inhabited Outcome := ⟨{}⟩

/-- Nothing is said about any slot, the cursor or the world. -/
def isEmpty (o : Outcome) : Bool :=
  o.changes.isEmpty && o.playerChanges.isEmpty && o.cursor.isNone && o.drops.isNone

def dropped (o : Outcome) : List Stack := o.drops.getD []

/-- The stacks that reach the world. -/
def thrown (o : Outcome) : List Stack := o.dropped.filter (!·.isEmpty)

def writePlayer (slot : Nat) (s : Stack) : StepM Scene Unit := do
  let scene ← get
  set { scene with player := ← StepM.ofExcept (scene.player.write slot s) }

/-- Writes to the inventory that window slots count from. -/
def writeClicked (slot : Nat) (s : Stack) : StepM Scene Unit := do
  let scene ← get
  match scene.container with
  | some c => set { scene with container := some (← StepM.ofExcept (c.write slot s)) }
  | none => writePlayer slot s

/-- Writes the slots in ascending order, those of the clicked inventory first, and then the cursor. -/
def apply (o : Outcome) : StepM Scene Unit := do
  o.changes.entries.forM fun e => writeClicked e.1 e.2
  o.playerChanges.entries.forM fun e => writePlayer e.1 e.2
  match o.cursor with
  | some s => modify fun scene => { scene with cursor := s }
  | none => return

end Outcome

end InventoryClicks
