import InventoryClicks.Click.Turn

/-!
# Players and containers

A player brings an inventory, a cursor and a decoder for the time no container is open. A container is an
inventory that any number of players may have open; its decoder keeps their drags apart, and its menu decides
where stacks go. A turn runs on one player and at most one container, and nothing else changes.
-/

namespace InventoryClicks

structure Player where
  inventory : Inventory
  cursor : Stack
  mode : GameMode
  decoder : Decoder
  deriving DecidableEq

def Player.ofInventory (inventory : Inventory) (cursor : Stack) (mode : GameMode) : Player :=
  { inventory, cursor, mode, decoder := .ofInventory inventory }

structure Container where
  inventory : Inventory
  decoder : Decoder
  menu : Menu

namespace Container

def withMenu (inventory : Inventory) (menu : Menu) : Container :=
  { inventory, menu, decoder := .ofInventory inventory }

/-- With the menu for its kind. -/
def ofInventory (inventory : Inventory) : Container := withMenu inventory (.ofKind inventory.kind)

/-- Forgets the drags of a player who closes it. -/
def close (c : Container) (player : Nat) : Container := { c with decoder := c.decoder.forgetPlayer player }

end Container

/-- What a turn answers and reports. -/
structure Reply where
  answer : Except Fault (Option Outcome)
  report : Report := {}

/-- A reply, with the player and the container after the turn. -/
structure Played extends Reply where
  player : Player
  container : Option Container := none

namespace Player

def scene (p : Player) (container : Option Inventory) : Scene :=
  { player := p.inventory, container, cursor := p.cursor }

def clicker (p : Player) (id : Nat) : Clicker := ⟨id, p.mode⟩

/-- The player after a turn that ended in the scene. -/
def leave (p : Player) (scene : Scene) : Player := { p with inventory := scene.player, cursor := scene.cursor }

/-- A packet for the player's own inventory. -/
def clickOwn (setup : Setup) (id : Nat) (p : Player) (packet : Packet) : Played :=
  let (answer, t) := (Turn.click setup Menu.player.process (p.clicker id) packet).outcome
    { decoder := p.decoder, scene := p.scene none }
  { answer, report := t.report, player := { p.leave t.scene with decoder := t.decoder } }

/-- A packet for a container. -/
def clickContainer (setup : Setup) (id : Nat) (p : Player) (c : Container) (packet : Packet) : Played :=
  let (answer, t) := (Turn.click setup c.menu.process (p.clicker id) packet).outcome
    { decoder := c.decoder, scene := p.scene (some c.inventory) }
  { answer, report := t.report, player := p.leave t.scene,
    container := some { c with inventory := t.scene.container.getD c.inventory, decoder := t.decoder } }

def click (setup : Setup) (id : Nat) (p : Player) (c : Option Container) (packet : Packet) : Played :=
  match c with
  | some c => p.clickContainer setup id c packet
  | none => p.clickOwn setup id packet

/-- A packet of the creative inventory. -/
def creative (setup : Setup) (id : Nat) (p : Player) (slot : Int) (stack : Stack) : Played :=
  let (answer, t) := (Turn.creative setup Menu.player.process (p.clicker id) slot stack).outcome
    { decoder := p.decoder, scene := p.scene none }
  { answer, report := t.report, player := { p.leave t.scene with decoder := t.decoder } }

/-- Forgets the drags over the player's own inventory. -/
def forgetDrags (p : Player) (id : Nat) : Player := { p with decoder := p.decoder.forgetPlayer id }

end Player

end InventoryClicks
