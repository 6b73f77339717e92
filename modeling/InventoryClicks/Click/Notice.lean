import InventoryClicks.Click.Admission

/-!
# Notices

What is written to the log about clicks. A notice is a cause; `Notice.line` has the wording.
-/

namespace InventoryClicks

inductive Notice where
  | noAction
  | notCreative
  | cancelledBefore
  | cancelledAfter
  | rejectedAction (flaw : ActionFlaw)
  | rejectedOutcome (flaw : OutcomeFlaw)
  | notPlayerInventory
  deriving DecidableEq, Repr

namespace Notice

def level : Notice → String
  | noAction | notCreative => "TRACE"
  | cancelledBefore | cancelledAfter => "DEBUG"
  | rejectedAction _ | rejectedOutcome _ | notPlayerInventory => "WARN"

def message : Notice → String
  | noAction => "click packet yielded no action"
  | notCreative => "creative action from a player not in creative mode"
  | cancelledBefore => "click cancelled before processing"
  | cancelledAfter => "click cancelled after processing"
  | rejectedAction flaw => s!"rejected click action: {flaw.message}"
  | rejectedOutcome flaw => s!"rejected click result: {flaw.message}"
  | notPlayerInventory => "Inventory on client entity is not a player inventory"

def line (n : Notice) : String := s!"{n.level} {n.message}"

/-- On what a decoder made of a packet. -/
def ofDecoded : Option Action → List Notice
  | some _ => []
  | none => [noAction]

/-- On a packet of the creative inventory, which is passed over in silence if only its slot is wrong. -/
def ofCreative (mode : GameMode) : List Notice := if mode = .creative then [] else [notCreative]

end Notice

end InventoryClicks
