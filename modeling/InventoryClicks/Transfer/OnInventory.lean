import InventoryClicks.Inventory.PlayerLayout
import InventoryClicks.Transfer.Basic

/-!
# Transfers on an inventory

A transfer is first staged and then written as a whole. There are three ways to end it: keep what fits, keep all or
nothing, or only ask whether all would fit. `Transfer.all`, `Transfer.allOrNothing` and `Transfer.dryRun` do so on an
inventory in place, where a fault leaves what was written before it; `Inventory.transact` and the like answer with the
inventory that they leave if they stop at no fault.
-/

namespace InventoryClicks

namespace Transfer

/-- Rest and writes of the transfer under the standard rule. Nothing is written yet. -/
def stageHere (t : Transfer) (item : Stack) : StepM Inventory (Stack × NatMap Stack) := do
  StepM.ofExcept (t.stage .standard (← get) item)

/-- Writes the entries in ascending order. -/
def commit (changes : NatMap Stack) : StepM Inventory Unit := changes.entries.forM fun e => writeSlot e.1 e.2

/-- Moves as much as fits. Answers what is left of the item. -/
def all (t : Transfer) (item : Stack) : StepM Inventory Stack := do
  let (rest, changes) ← t.stageHere item
  commit changes
  return rest

/-- Moves the item if nothing of it is left over. Answers whether it did. -/
def allOrNothing (t : Transfer) (item : Stack) : StepM Inventory Bool := do
  let (rest, changes) ← t.stageHere item
  if rest.isEmpty then
    commit changes
    return true
  else return false

/-- Whether nothing of the item would be left over. -/
def dryRun (t : Transfer) (item : Stack) : StepM Inventory Bool := do
  let (rest, _) ← t.stageHere item
  return rest.isEmpty

end Transfer

namespace Inventory

/-- Moves as much as fits, under the standard rule. Answers what is left of the item. -/
def transact (inv : Inventory) (t : Transfer) (item : Stack) : Except Fault (Stack × Inventory) := do
  let (rest, changes) ← t.stage .standard inv item
  return (rest, ← inv.writeAll changes)

/-- Moves the item if nothing of it is left over. Answers whether it did. -/
def transactWhole (inv : Inventory) (t : Transfer) (item : Stack) : Except Fault (Bool × Inventory) := do
  let (rest, changes) ← t.stage .standard inv item
  if rest.isEmpty then return (true, ← inv.writeAll changes) else return (false, inv)

/-- Whether nothing of the item would be left over. -/
def fits (inv : Inventory) (t : Transfer) (item : Stack) : Except Fault Bool := do
  let (rest, _) ← t.stage .standard inv item
  return rest.isEmpty

end Inventory

namespace Transfer

/-- Adds a stack to an inventory of a kind. -/
def addTo : Inventory.Kind → Transfer
  | .player => add PlayerLayout.fillOrder PlayerLayout.airOrder
  | kind => add (List.range kind.slotCount) (List.range kind.slotCount)

/-- Removes a stack from an inventory of a kind. -/
def takeFrom : Inventory.Kind → Transfer
  | .player => take PlayerLayout.takeOrder
  | kind => take (List.range kind.slotCount)

end Transfer

namespace Inventory.Kind

/-- Slots whose stacks are filled up when a stack is added to such an inventory. -/
def fillOrder : Kind → List Nat
  | .player => PlayerLayout.fillOrder
  | kind => List.range kind.slotCount

/-- Empty slots that what is left of a stack is put into. -/
def airOrder : Kind → List Nat
  | .player => PlayerLayout.airOrder
  | kind => List.range kind.slotCount

/-- Slots that a stack is taken from: all of them, each once. -/
def takeOrder : Kind → List Nat
  | .player => PlayerLayout.takeOrder
  | kind => List.range kind.slotCount

theorem addTo_eq (kind : Kind) : Transfer.addTo kind = .add kind.fillOrder kind.airOrder := by
  cases kind <;> rfl

theorem takeFrom_eq (kind : Kind) : Transfer.takeFrom kind = .take kind.takeOrder := by
  cases kind <;> rfl

theorem fillOrder_inside (kind : Kind) : ∀ slot ∈ kind.fillOrder, slot < kind.slotCount := by
  unfold fillOrder
  split
  · decide
  · exact fun slot mem => List.mem_range.1 mem

theorem airOrder_inside (kind : Kind) : ∀ slot ∈ kind.airOrder, slot < kind.slotCount := by
  unfold airOrder
  split
  · decide
  · exact fun slot mem => List.mem_range.1 mem

end Inventory.Kind

end InventoryClicks
