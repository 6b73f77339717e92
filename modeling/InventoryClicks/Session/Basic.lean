import InventoryClicks.Session.Player

/-!
# Sessions

Any number of players and of containers they share, with calls that come one after the other. Players and
containers go by their number; a call that names none of them changes nothing.
-/

namespace InventoryClicks

structure Session where
  players : List Player
  containers : List Container := []

namespace Session

inductive Call where
  /-- A packet for a container, or for the player's own inventory. -/
  | click (player : Nat) (container : Option Nat) (packet : Packet)
  | creative (player : Nat) (slot : Int) (stack : Stack)
  /-- The player stops looking at a container, or at their own inventory. -/
  | close (player : Nat) (container : Option Nat)

def setPlayer (s : Session) (i : Nat) (p : Player) : Session := { s with players := s.players.set i p }

def setContainer (s : Session) (i : Nat) (c : Container) : Session :=
  { s with containers := s.containers.set i c }

def idle (s : Session) : Reply × Session := ({ answer := .ok none }, s)

def step (setup : Setup) (s : Session) : Call → Reply × Session
  | .click i none packet =>
    match s.players[i]? with
    | none => s.idle
    | some p =>
      let played := p.clickOwn setup i packet
      (played.toReply, s.setPlayer i played.player)
  | .click i (some j) packet =>
    match s.players[i]?, s.containers[j]? with
    | some p, some c =>
      let played := p.clickContainer setup i c packet
      (played.toReply, (s.setPlayer i played.player).setContainer j (played.container.getD c))
    | _, _ => s.idle
  | .creative i slot stack =>
    match s.players[i]? with
    | none => s.idle
    | some p =>
      let played := p.creative setup i slot stack
      (played.toReply, s.setPlayer i played.player)
  | .close i none =>
    match s.players[i]? with
    | none => s.idle
    | some p => ({ answer := .ok none }, s.setPlayer i (p.forgetDrags i))
  | .close i (some j) =>
    match s.containers[j]? with
    | none => s.idle
    | some c => ({ answer := .ok none }, s.setContainer j (c.close i))

/-- Replies of the calls in order, and the session after the last. Each call is made under a setup of its own. -/
def runEach (s : Session) : List (Setup × Call) → List Reply × Session
  | [] => ([], s)
  | (setup, call) :: rest =>
    let (reply, s) := s.step setup call
    let (replies, s) := s.runEach rest
    (reply :: replies, s)

/-- All calls are made under one setup. -/
def run (setup : Setup) (s : Session) (calls : List Call) : List Reply × Session := s.runEach (calls.map (setup, ·))

@[simp] theorem run_nil (setup : Setup) (s : Session) : s.run setup [] = ([], s) := rfl

theorem run_cons (setup : Setup) (s : Session) (call : Call) (rest : List Call) :
    s.run setup (call :: rest) = ((s.step setup call).1 :: ((s.step setup call).2.run setup rest).1,
      ((s.step setup call).2.run setup rest).2) := rfl

end Session

end InventoryClicks
