import InventoryClicks.World.Bulletin
import InventoryClicks.World.Client

/-!
# Worlds

Clients that come and go, containers, and packets that wait for the next update. An update first serves the new
clients, then runs every click packet, then every packet of the creative inventory, and last closes containers, each
in the order they came in. What a client that is not there sent is passed over. A stage that stops at a fault
drops what it has left to do, and the stages after it run all the same, but such an update is the last one: the
world stays, and can no more be updated.
-/

namespace InventoryClicks

structure World where
  /-- By number; those that left stay as `none`. -/
  clients : List (Option Client) := []
  containers : List Container := []
  setup : Setup := {}
  clicks : List (Nat × Packet) := []
  creatives : List (Nat × Int × Stack) := []
  closes : List Nat := []
  /-- An update stopped at a fault. -/
  halted : Bool := false

namespace World

def client? (w : World) (i : Nat) : Option Client := (w.clients[i]?).join

def setClient (w : World) (i : Nat) (c : Client) : World := { w with clients := w.clients.set i (some c) }

def spawn (w : World) (mode : Option GameMode) : World := { w with clients := w.clients ++ [some { mode }] }

def despawn (w : World) (i : Nat) : World := { w with clients := w.clients.set i none }

/-- State of an update. -/
structure Tick where
  world : World
  bulletin : Bulletin := {}

abbrev TickM := StepM Tick

/-- Ends a turn: the client and the container are put back, and what the turn reports is announced. A turn that
stopped at a fault announces no effects. -/
def settle (i : Nat) (client : Client) (gear : Gear) (viewing : Option Nat) (played : Played) : TickM Unit := do
  modify fun t => { t with world := t.world.setClient i { client with gear := some (gear.leave played.player) } }
  match viewing, played.container with
  | some j, some c =>
    modify fun t => { t with world := { t.world with containers := t.world.containers.set j c } }
  | _, _ => pure ()
  match played.answer with
  | .ok _ => modify fun t => { t with bulletin := t.bulletin.addReport gear.held viewing.isSome played.report }
  | .error e => do
    modify fun t => { t with
      bulletin := t.bulletin.addReport gear.held viewing.isSome { played.report with effects := [] } }
    throw e

def click (i : Nat) (packet : Packet) : TickM Unit := do
  let w := (← get).world
  match w.client? i with
  | some client@{ gear := some gear, mode := some mode, viewing } =>
    if gear.inventory.kind ≠ .player then
      modify fun t => { t with
        bulletin := { t.bulletin with notices := t.bulletin.notices ++ [.notPlayerInventory] } }
    else
      let c := viewing.bind (w.containers[·]?)
      settle i client gear viewing ((gear.player mode).click w.setup i c packet)
  | _ => return

def creative (i : Nat) (slot : Int) (stack : Stack) : TickM Unit := do
  let w := (← get).world
  match w.client? i with
  | some client@{ gear := some gear, mode := some mode, .. } =>
    settle i client gear none ((gear.player mode).creative w.setup i slot stack)
  | _ => return

/-- Forgets the client's drags, and closes the container it has open. -/
def close (w : World) (i : Nat) : World :=
  match w.client? i with
  | some client@{ gear := some gear, viewing, .. } =>
    let gear := { gear with decoder := gear.decoder.forgetPlayer i }
    let containers := match viewing with
      | some j => w.containers.modify j (·.close i)
      | none => w.containers
    { w.setClient i { client with gear := some gear, viewing := none } with containers }
  | _ => w

/-- Serves all that waits. Of two faults the later one counts. -/
def tick : TickM Unit := do
  let w := (← get).world
  modify fun t => { t with world := { t.world with
    clients := w.clients.map (·.map Client.served), clicks := [], creatives := [], closes := [] } }
  let clicked ← StepM.attempt (w.clicks.forM fun (i, packet) => click i packet)
  let created ← StepM.attempt (w.creatives.forM fun (i, slot, stack) => creative i slot stack)
  modify fun t => { t with world := w.closes.foldl close t.world }
  StepM.ofExcept created
  StepM.ofExcept clicked

/-- What the update tells, and the world after it. -/
def update (w : World) : Except Fault Bulletin × World :=
  if w.halted then (.error .scheduleLost, w)
  else match tick.outcome { world := w } with
    | (.ok _, t) => (.ok t.bulletin, t.world)
    | (.error e, t) => (.error e, { t.world with halted := true })

end World

end InventoryClicks
