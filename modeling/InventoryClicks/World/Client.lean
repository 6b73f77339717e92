import InventoryClicks.Inventory.HeldSlot
import InventoryClicks.Session.Player

/-!
# Clients

A client is there before it has an inventory: the next update serves it, and only then can it click. What it
carries after that makes it a player.
-/

namespace InventoryClicks

/-- What a client carries once it has been served. -/
structure Gear where
  inventory : Inventory
  cursor : Stack
  held : HeldSlot
  /-- Decoder for the time no container is open. -/
  decoder : Decoder
  deriving DecidableEq

def Gear.initial : Gear :=
  { inventory := .empty .player, cursor := .empty, held := default, decoder := .ofInventory (.empty .player) }

structure Client where
  mode : Option GameMode
  gear : Option Gear := none
  /-- Number of the open container. -/
  viewing : Option Nat := none
  deriving DecidableEq

namespace Gear

/-- The client as a player. -/
def player (gear : Gear) (mode : GameMode) : Player :=
  { inventory := gear.inventory, cursor := gear.cursor, decoder := gear.decoder, mode }

/-- What is carried after a turn of the player. The held slot stays. -/
def leave (gear : Gear) (p : Player) : Gear :=
  { gear with inventory := p.inventory, cursor := p.cursor, decoder := p.decoder }

end Gear

/-- Inventory and the rest for a client that has none yet, and the default mode. -/
def Client.served (c : Client) : Client :=
  match c.gear with
  | some _ => c
  | none => { c with gear := some .initial, mode := some (c.mode.getD .survival) }

end InventoryClicks
