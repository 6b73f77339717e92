import InventoryClicks.Click.Outcome
import InventoryClicks.Transfer.SlotStore

/-!
# Drafts

A draft is an outcome in the making, on top of a scene that stays as it is. Reads see what was staged before and
fall back to the scene, so a draft can be worked on as if it were the scene itself.
-/

namespace InventoryClicks

structure Draft where
  scene : Scene
  outcome : Outcome := {}
  deriving DecidableEq

namespace Draft

/-- Number of slots of the clicked inventory. -/
def clickedSize (d : Draft) : Nat := d.scene.clicked.slotCount

def hasContainer (d : Draft) : Bool := d.scene.container.isSome

def readPlayer (d : Draft) (slot : Nat) : Except Fault Stack :=
  match d.outcome.playerChanges.get? slot with
  | some s => .ok s
  | none => d.scene.player.read slot

def writePlayer (d : Draft) (slot : Nat) (s : Stack) : Draft :=
  { d with outcome := { d.outcome with playerChanges := d.outcome.playerChanges.insert slot s } }

theorem readPlayer_writePlayer (d : Draft) (slot j : Nat) (s : Stack) :
    (d.writePlayer slot s).readPlayer j = if j = slot then .ok s else d.readPlayer j := by
  simp only [readPlayer, writePlayer, NatMap.get?_insert]
  by_cases h : j = slot <;> simp [h]

def readCell (d : Draft) : Cell → Except Fault Stack
  | .container slot =>
    match d.outcome.changes.get? slot with
    | some s => .ok s
    | none => d.scene.clicked.read slot
  | .player slot => d.readPlayer slot

def writeCell (d : Draft) (s : Stack) : Cell → Draft
  | .container slot => { d with outcome := { d.outcome with changes := d.outcome.changes.insert slot s } }
  | .player slot => d.writePlayer slot s

/-- Cells do not overlap: a read sees the last write to its own cell. -/
theorem readCell_writeCell (d : Draft) (c k : Cell) (s : Stack) :
    (d.writeCell s c).readCell k = if k = c then .ok s else d.readCell k := by
  cases c with
  | container slot =>
    cases k with
    | container j =>
      simp only [readCell, writeCell, NatMap.get?_insert, Cell.container.injEq]
      by_cases h : j = slot <;> simp [h]
    | player j => rfl
  | player slot =>
    cases k with
    | container j => rfl
    | player j => simp only [readCell, writeCell, readPlayer_writePlayer, Cell.player.injEq]

/-- Reads a window slot. -/
def read (d : Draft) (slot : Nat) : Except Fault Stack := do d.readCell (← d.scene.locate slot)

/-- Stages a write to a window slot, which need not exist. -/
def write (d : Draft) (slot : Nat) (s : Stack) : Except Fault Draft := do
  return d.writeCell s (← d.scene.locate slot)

instance : SlotStore Draft := ⟨read, write⟩

def cursor (d : Draft) : Stack := d.outcome.cursor.getD d.scene.cursor

def setCursor (d : Draft) (s : Stack) : Draft :=
  { d with outcome := { d.outcome with cursor := some s } }

/-- Takes the place of the drops staged so far. -/
def setDrops (d : Draft) (dropped : List Stack) : Draft :=
  { d with outcome := { d.outcome with drops := some dropped } }

def drop (d : Draft) (s : Stack) : Draft := d.setDrops (d.outcome.dropped ++ [s])

end Draft

end InventoryClicks
