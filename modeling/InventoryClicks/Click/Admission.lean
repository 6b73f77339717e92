import InventoryClicks.Click.Action
import InventoryClicks.Click.Outcome

/-!
# Admission

What an action must satisfy before it is processed, and an outcome before it is applied. A check answers the
first flaw it finds. Actions of a decoder have none, so only actions that a hook put in place are checked.
-/

namespace InventoryClicks

inductive ActionFlaw where
  | creativeOnly (mode : GameMode)
  | hotbarOutside (index : Nat)
  | slotOutside (slot windowSize : Nat)
  deriving DecidableEq, Repr

def ActionFlaw.message : ActionFlaw → String
  | .creativeOnly mode => s!"creative action from a player in {mode.name} mode"
  | .hotbarOutside index => s!"hotbar index {index} out of bounds"
  | .slotOutside slot windowSize => s!"slot {slot} out of bounds for window with {windowSize} slots"

namespace Action

/-- A hotbar index past the last one, if the action names it. -/
def badHotbar? : Action → Option Nat
  | hotbarSwap hotbar _ => if hotbar < 9 then none else some hotbar
  | _ => none

def flaw? (a : Action) (w : Window) (mode : GameMode) : Option ActionFlaw :=
  if a.isCreative && mode != .creative then some (.creativeOnly mode)
  else match a.badHotbar? with
    | some hotbar => some (.hotbarOutside hotbar)
    | none => (a.slots.find? (w.slotCount ≤ ·)).map (.slotOutside · w.slotCount)

end Action

inductive OutcomeFlaw where
  | clickedOutside (slot : Nat) (kind : Inventory.Kind)
  | playerOutside (slot : Nat)
  | writtenTwice
  /-- The click adds `delta` items to the scene and throws `dropped`. -/
  | unbalanced (delta dropped : Int)
  deriving DecidableEq, Repr

def OutcomeFlaw.message : OutcomeFlaw → String
  | .clickedOutside slot kind =>
    s!"slot {slot} out of bounds for {kind.name} inventory with {kind.slotCount} slots"
  | .playerOutside slot => s!"player inventory slot {slot} out of bounds"
  | .writtenTwice => "player inventory slots changed twice"
  | .unbalanced delta dropped => s!"item count changed by {delta} but {dropped} items were dropped"

namespace Outcome

/-- A slot that does not exist, or one of the player's that is written through both maps. -/
def flaw? (o : Outcome) (w : Window) : Option OutcomeFlaw :=
  match o.changes.keys.find? (w.clicked.slotCount ≤ ·) with
  | some slot => some (.clickedOutside slot w.clicked.kind)
  | none =>
    match o.playerChanges.keys.find? (w.player.slotCount ≤ ·) with
    | some slot => some (.playerOutside slot)
    | none =>
      if w.container.isNone && o.changes.keys.any o.playerChanges.contains then some .writtenTwice else none

/-- `n` and the items added by writing the entries over an inventory. -/
def gain (inv : Inventory) (n : Int) (entries : List (Nat × Stack)) : Except Fault Int :=
  entries.foldlM (fun n e => do Amount.add n (e.2.count - (← inv.read e.1).count)) n

/-- Items added to the inventories and the cursor of a scene, added up as an amount. -/
def delta (o : Outcome) (scene : Scene) : Except Fault Int := do
  let clicked ← gain scene.clicked 0 o.changes.entries
  let both ← gain scene.player clicked o.playerChanges.entries
  match o.cursor with
  | some s => Amount.add both (s.count - scene.cursor.count)
  | none => return both

def droppedCount (o : Outcome) : Except Fault Int :=
  o.dropped.foldlM (fun n s => Amount.add n s.count) 0

/-- Items come from nowhere, or vanish. -/
def imbalance? (o : Outcome) (scene : Scene) : Except Fault (Option OutcomeFlaw) := do
  let delta ← o.delta scene
  let dropped ← o.droppedCount
  return if delta = -dropped then none else some (.unbalanced delta dropped)

end Outcome

end InventoryClicks
