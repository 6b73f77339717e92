import InventoryClicks.StepM
import InventoryClicks.Inventory.Basic
import InventoryClicks.Inventory.PlayerLayout
import InventoryClicks.Click.DragTable
import InventoryClicks.Click.Packet

/-!
# Decoding packets

A decoder turns the click packets of one window into actions. A drag comes as a start packet, a packet per slot
and a finish packet; the decoder remembers the slots, and only the finish packet yields an action. A packet that
makes no sense for the window yields nothing.
-/

namespace InventoryClicks

structure Decoder where
  /-- Slots of the clicked inventory. -/
  clickedSize : Nat
  /-- The clicked inventory is the player's own, so no other slots follow it. -/
  ofPlayer : Bool
  drags : DragTable := {}
  deriving DecidableEq

namespace Decoder

def ofInventory (inv : Inventory) : Decoder :=
  { clickedSize := inv.slotCount, ofPlayer := inv.kind == .player }

/-- Number of window slots that a click may name. -/
def windowSize (d : Decoder) : Except Fault Nat :=
  if d.ofPlayer then .ok d.clickedSize
  else Bounded.add Bounded.slotLimit d.clickedSize PlayerLayout.mainSize

def pendingDrags (d : Decoder) : Nat := d.drags.size

/-- The window slot a packet names, if there is one. -/
def slot? (d : Decoder) (slot : Int) : Except Fault (Option Nat) :=
  if slot < 0 then .ok none
  else do
    let size ← d.windowSize
    return if slot < size then some slot.toNat else none

/-- Forgets the player's drag with that button. -/
def startDrag (button : Button) (player : Nat) : StepM Decoder (Option Action) := do
  modify fun d => { d with drags := d.drags.forget button player }
  return none

/-- The player's drag counts as begun from here on, also if the slot is not one of the window. -/
def addDragSlot (button : Button) (player : Nat) (slot : Int) : StepM Decoder (Option Action) := do
  let d ← get
  let slots := d.drags.slots button player
  set { d with drags := d.drags.record button player slots }
  match ← StepM.ofExcept (d.slot? slot) with
  | none => return none
  | some slot => do
    unless slots.contains slot do
      set { d with drags := d.drags.record button player (slots ++ [slot]) }
    return none

def finishDrag (button : Button) (player : Nat) : StepM Decoder (Option Action) := do
  let slots := (← get).drags.slots button player
  modify fun d => { d with drags := d.drags.forget button player }
  return some (.drag button slots)

/-- The middle button drags in creative mode only. -/
def decodeDrag (player : Nat) (mode : GameMode) (packet : Packet) : StepM Decoder (Option Action) :=
  match Packet.dragPart? packet.button with
  | none => return none
  | some (button, part) =>
    if button = .middle ∧ mode ≠ .creative then return none
    else match part with
      | .start => startDrag button player
      | .slot => addDragSlot button player packet.slot
      | .finish => finishDrag button player

/-- Action of a packet other than a drag that names window slot `slot`. -/
def slotAction (mode : GameMode) (packet : Packet) (slot : Nat) : Option Action :=
  match packet.mode with
  | .click =>
    match packet.button with
    | 0 => some (.click .left slot)
    | 1 => some (.click .right slot)
    | _ => none
  | .shiftClick => some (.shift (packet.button != 0) slot)
  | .hotbarKey =>
    if 0 ≤ packet.button ∧ packet.button ≤ 8 then some (.hotbarSwap packet.button.toNat slot)
    else if packet.button = 40 then some (.offhandSwap slot)
    else none
  | .middleClick => if mode = .creative then some (.click .middle slot) else none
  | .dropKey => some (.dropSlot slot (packet.button == 1))
  | .doubleClick => some (.collect slot)
  | .drag => none

/-- Action of a click outside of the window. -/
def outsideAction : Int → Option Action
  | 0 => some (.dropCursor .left)
  | 1 => some (.dropCursor .right)
  | 2 => some (.dropCursor .middle)
  | _ => none

/-- Reads a packet. Answers nothing if it is malformed, not allowed in the mode or only a part of a drag. -/
def decode (player : Nat) (mode : GameMode) (packet : Packet) : StepM Decoder (Option Action) := do
  if packet.mode = .drag then decodeDrag player mode packet
  else if packet.mode = .click ∧ packet.slot = Packet.outside then return outsideAction packet.button
  else
    let slot? ← StepM.ofExcept ((← get).slot? packet.slot)
    return slot?.bind (slotAction mode packet)

/-- Reads a packet of the creative inventory, which always means the player's own inventory. Slot -1 throws. -/
def decodeCreative (mode : GameMode) (slot : Int) (stack : Stack) : Option Action :=
  if mode ≠ .creative then none
  else if slot = -1 then some (.creativeDrop stack)
  else if 0 ≤ slot ∧ slot < Inventory.Kind.player.slotCount then some (.creativeSet slot.toNat stack)
  else none

/-- Forgets every drag of a player who looks elsewhere. -/
def forgetPlayer (d : Decoder) (player : Nat) : Decoder :=
  { d with drags := ((d.drags.forget .left player).forget .right player).forget .middle player }

end Decoder

end InventoryClicks
