import InventoryClicks.Click.Action
import InventoryClicks.Click.Routing
import InventoryClicks.Transfer.Basic

/-!
# Menus

A menu works out what an action does to a window. It only ever writes to a draft, so `process` answers the same
for the same scene, and no scene changes before its outcome is applied. Menus differ in their routing and in the
stacking rule, and in nothing else.
-/

namespace InventoryClicks

structure Menu where
  shiftSlots : Routing
  collectSlots : Routing
  rule : StackingRule := .standard

/-- Work on a draft. -/
abbrev DraftM := StepM Draft

namespace DraftM

def read (slot : Nat) : DraftM Stack := do StepM.ofExcept ((← get).read slot)
def write (slot : Nat) (s : Stack) : DraftM Unit := do set (← StepM.ofExcept ((← get).write slot s))
def readPlayer (slot : Nat) : DraftM Stack := do StepM.ofExcept ((← get).readPlayer slot)
def writePlayer (slot : Nat) (s : Stack) : DraftM Unit := modify (·.writePlayer slot s)
def cursor : DraftM Stack := return (← get).cursor
def setCursor (s : Stack) : DraftM Unit := modify (·.setCursor s)
def drop (s : Stack) : DraftM Unit := modify (·.drop s)

end DraftM

namespace Menu

/-- For a player's own inventory. -/
def player : Menu := { shiftSlots := Routing.playerShift, collectSlots := Routing.playerCollect }

def container : Menu := { shiftSlots := Routing.containerShift, collectSlots := Routing.containerCollect }

def furnace : Menu := { shiftSlots := Routing.furnaceShift, collectSlots := Routing.containerCollect }

def ofKind : Inventory.Kind → Menu
  | .player => player
  | .furnace | .blastFurnace | .smoker => furnace
  | _ => container

/-- Cursor and slot exchange their stacks. -/
def exchangeCursor (slot : Nat) (cursor clicked : Stack) : DraftM Unit := do
  DraftM.write slot cursor
  DraftM.setCursor clicked

/-- Items of the cursor go into the slot as far as they fit; stacks of different items change places. -/
def leftClick (rule : StackingRule) (slot : Nat) : DraftM Unit := do
  let cursor ← DraftM.cursor
  let clicked ← DraftM.read slot
  match ← StepM.ofExcept (Operator.fill Amount.unlimited rule clicked cursor) with
  | some e => exchangeCursor slot e.slot e.incoming
  | none => unless rule.canStack cursor clicked do exchangeCursor slot cursor clicked

/-- An empty cursor takes the larger half, another one gives one item or changes places. -/
def rightClick (rule : StackingRule) (slot : Nat) : DraftM Unit := do
  let cursor ← DraftM.cursor
  let clicked ← DraftM.read slot
  if cursor.isEmpty && clicked.isEmpty then return
  if cursor.isEmpty then
    let half := (← StepM.ofExcept (do Amount.add (← rule.amount clicked) 1)).tdiv 2
    match ← StepM.ofExcept (Operator.fill half rule cursor clicked) with
    | some e => exchangeCursor slot e.incoming e.slot
    | none => return
  else if rule.canShareSlot clicked cursor then
    match ← StepM.ofExcept (Operator.fill 1 rule clicked cursor) with
    | some e => exchangeCursor slot e.slot e.incoming
    | none => return
  else exchangeCursor slot cursor clicked

/-- An empty cursor gets a full stack like the one in the slot. -/
def middleClick (rule : StackingRule) (slot : Nat) : DraftM Unit := do
  let clicked ← DraftM.read slot
  if (← DraftM.cursor).isEmpty && !clicked.isEmpty then
    DraftM.setCursor (rule.withAmount clicked (rule.maxSize clicked))

/-- The stack moves along its routing, into like stacks first and then into empty slots. -/
def shiftClick (menu : Menu) (slot : Nat) : DraftM Unit := do
  let clicked ← DraftM.read slot
  if clicked.isEmpty then return
  let slots := (menu.shiftSlots (← get) clicked slot).filter (· != slot)
  let rest ← (Transfer.add slots slots).run menu.rule clicked
  unless rest = clicked do DraftM.write slot rest

/-- The cursor collects items like its own, from stacks with room left before full ones. -/
def collectClick (menu : Menu) (slot : Nat) : DraftM Unit := do
  let cursor ← DraftM.cursor
  if cursor.isEmpty then return
  let slots := menu.collectSlots (← get) cursor slot
  let collect := Operator.collect Amount.unlimited
  let rest ← ((Transfer.sweep (collect.onlyIf .slotPartial) slots).andThen
    (.sweep (collect.onlyIf .slotFull) slots)).run menu.rule cursor
  unless rest = cursor do DraftM.setCursor rest

/-- Up to `perSlot` items go into each slot. -/
def spread (rule : StackingRule) (perSlot : Int) (slots : List Nat) : DraftM Unit := do
  let cursor ← DraftM.cursor
  if cursor.isEmpty || slots.isEmpty then return
  let rest ← (Transfer.sweep (Operator.fill perSlot) slots).run rule cursor
  unless rest = cursor do DraftM.setCursor rest

/-- Equal shares, but one item at least. There are no shares for more slots than an amount can count. -/
def leftDrag (rule : StackingRule) (slots : List Nat) : DraftM Unit := do
  if slots.isEmpty then return
  if Amount.InRange slots.length then
    let amount ← StepM.ofExcept (rule.amount (← DraftM.cursor))
    spread rule (max (amount.tdiv slots.length) 1) slots
  else spread rule 0 slots

/-- Empty slots get a copy of the cursor. -/
def copyDrag (cursor : Stack) : List Nat → DraftM Unit
  | [] => return
  | slot :: rest => do
    if (← DraftM.read slot).isEmpty then DraftM.write slot cursor
    copyDrag cursor rest

def middleDrag (slots : List Nat) : DraftM Unit := do
  let cursor ← DraftM.cursor
  unless cursor.isEmpty do copyDrag cursor slots

/-- Part of a stack with up to `amount` items, and the rest of it. -/
def split (rule : StackingRule) (s : Stack) (amount : Int) : Except Fault (Option (Stack × Stack)) := do
  let available ← rule.amount s
  let part := min amount available
  if s.isEmpty || part ≤ 0 then return none
  return some (rule.withAmount s part, rule.withAmount s (← Amount.sub available part))

def dropFromCursor (rule : StackingRule) (amount : Int) : DraftM Unit := do
  match ← StepM.ofExcept (split rule (← DraftM.cursor) amount) with
  | some (part, rest) => do
    DraftM.setCursor rest
    DraftM.drop part
  | none => return

def dropFromSlot (rule : StackingRule) (slot : Nat) (amount : Int) : DraftM Unit := do
  match ← StepM.ofExcept (split rule (← DraftM.read slot) amount) with
  | some (part, rest) => do
    DraftM.write slot rest
    DraftM.drop part
  | none => return

/-- Window slot and player slot exchange their stacks, unless these are equal. -/
def swapWithPlayer (slot playerSlot : Nat) : DraftM Unit := do
  let own ← DraftM.readPlayer playerSlot
  let clicked ← DraftM.read slot
  unless own = clicked do
    DraftM.writePlayer playerSlot clicked
    DraftM.write slot own

def perform (menu : Menu) : Action → DraftM Unit
  | .click .left slot => leftClick menu.rule slot
  | .click .right slot => rightClick menu.rule slot
  | .click .middle slot => middleClick menu.rule slot
  | .shift _ slot => menu.shiftClick slot
  | .collect slot => menu.collectClick slot
  | .drag .left slots => leftDrag menu.rule slots
  | .drag .right slots => spread menu.rule 1 slots
  | .drag .middle slots => middleDrag slots
  | .dropCursor .left => do
    let all ← StepM.ofExcept (menu.rule.amount (← DraftM.cursor))
    dropFromCursor menu.rule all
  | .dropCursor .right => dropFromCursor menu.rule 1
  | .dropCursor .middle => return
  | .dropSlot slot true => do
    let all ← StepM.ofExcept (menu.rule.amount (← DraftM.read slot))
    dropFromSlot menu.rule slot all
  | .dropSlot slot false => dropFromSlot menu.rule slot 1
  | .hotbarSwap hotbar slot => swapWithPlayer slot (PlayerLayout.hotbarSlot hotbar)
  | .offhandSwap slot => swapWithPlayer slot PlayerLayout.offhand
  | .creativeSet slot s => DraftM.write slot s
  | .creativeDrop s => unless s.isEmpty do DraftM.drop s

/-- What the action does to the scene. -/
def process (menu : Menu) (scene : Scene) (action : Action) : Except Fault Outcome :=
  match (menu.perform action).run { scene } with
  | .ok _ d => .ok d.outcome
  | .error e _ => .error e

end Menu

end InventoryClicks
