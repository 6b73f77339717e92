import InventoryClicks.StepM
import InventoryClicks.Transfer.Operator
import InventoryClicks.Transfer.SlotStore

/-!
# Transfers

A transfer carries a stack along a list of slots and applies an operator at each; what is left goes on to the
next slot. Transfers run over any slot store. What a run has written stays written when it stops at a fault.
-/

namespace InventoryClicks

inductive Transfer where
  /-- One operator at each of the slots, in order. -/
  | sweep (op : Operator) (slots : List Nat)
  /-- The second with what the first leaves. -/
  | andThen (first second : Transfer)

namespace Transfer

/-- Merged into the stacks in `fill` first, then put into empty slots of `air`. -/
def add (fill air : List Nat) : Transfer :=
  andThen (sweep ((Operator.fill Amount.unlimited).onlyIf .slotFilled) fill)
    (sweep ((Operator.fill Amount.unlimited).onlyIf .slotEmpty) air)

def take (slots : List Nat) : Transfer := sweep Operator.take slots

variable {σ : Type} [SlotStore σ]

def readSlot (slot : Nat) : StepM σ Stack := do StepM.ofExcept (SlotStore.read (← get) slot)

def writeSlot (slot : Nat) (s : Stack) : StepM σ Unit := do set (← StepM.ofExcept (SlotStore.write (← get) slot s))

def runSweep (rule : StackingRule) (op : Operator) : List Nat → Stack → StepM σ Stack
  | [], item => return item
  | slot :: rest, item => do
    let current ← readSlot slot
    match ← StepM.ofExcept (op rule current item) with
    | none => runSweep rule op rest item
    | some e => do
      writeSlot slot e.slot
      runSweep rule op rest e.incoming

/-- Runs the transfer on `item` and answers what is left of it. -/
def run (rule : StackingRule) : Transfer → Stack → StepM σ Stack
  | sweep op slots, item => runSweep rule op slots item
  | andThen first second, item => do second.run rule (← first.run rule item)

/-- Rest and writes of a run over an inventory that is left alone. -/
def stage (t : Transfer) (rule : StackingRule) (inv : Inventory) (item : Stack) :
    Except Fault (Stack × NatMap Stack) :=
  match t.run rule item { base := inv : Overlay } with
  | .ok rest o => .ok (rest, o.changes)
  | .error e _ => .error e

end Transfer

end InventoryClicks
