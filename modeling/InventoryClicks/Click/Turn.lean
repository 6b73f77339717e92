import InventoryClicks.Click.Decoder
import InventoryClicks.Click.Menu
import InventoryClicks.Click.Hooks
import InventoryClicks.Click.Notice

/-!
# Turns

A turn takes one packet of one player from decoding to the last hook. It ends in one of two ways. Either the
outcome is applied as a whole, or the scene is left as it was and the player is sent it again; a packet that
means nothing has no effect at all.
-/

namespace InventoryClicks

/-- What a turn does outside of the inventories. -/
inductive Effect where
  /-- A stack is thrown into the world near the player. -/
  | drop (player : Nat) (stack : Stack)
  /-- The player is sent the full state of the window again. -/
  | resync (player : Nat)
  | applied (player : Nat) (action : Action) (outcome : Outcome)
  deriving DecidableEq

structure Report where
  effects : List Effect := []
  notices : List Notice := []
  calls : List HookCall := []
  deriving DecidableEq

/-- State of a turn: the decoder of the window, the scene and what happened so far. -/
structure Turn where
  decoder : Decoder
  scene : Scene
  report : Report := {}
  deriving DecidableEq

abbrev TurnM := StepM Turn

structure Clicker where
  player : Nat
  mode : GameMode
  deriving DecidableEq, Repr

/-- What the application decides about all clicks. -/
structure Setup where
  hooks : Hooks := {}
  /-- Processed outcomes that create or destroy items are rejected, outside of creative mode. -/
  checkBalance : Bool := true

namespace TurnM

def emit (effects : List Effect) : TurnM Unit :=
  modify fun t => { t with report := { t.report with effects := t.report.effects ++ effects } }

def log (notices : List Notice) : TurnM Unit :=
  modify fun t => { t with report := { t.report with notices := t.report.notices ++ notices } }

def withScene {α : Type} (m : StepM Scene α) : TurnM α :=
  StepM.focus (·.scene) (fun scene t => { t with scene }) m

def withDecoder {α : Type} (m : StepM Decoder α) : TurnM α :=
  StepM.focus (·.decoder) (fun decoder t => { t with decoder }) m

def withTrace {α : Type} (m : Hooks.TraceM α) : TurnM α :=
  StepM.focus (·.report.calls) (fun calls t => { t with report := { t.report with calls } }) m

def context (who : Clicker) : TurnM Context := return ⟨who.player, who.mode, (← get).scene⟩

/-- Gives up and has the player sent the window again. -/
def abandon (who : Clicker) (why : Notice) : TurnM (Option Outcome) := do
  log [why]
  emit [.resync who.player]
  return none

end TurnM

/-- Works out what an action does to a scene. Menus are the processors of the library. -/
abbrev Processor := Scene → Action → Except Fault Outcome

namespace Turn

/-- First flaw of the outcome that hooks made of the processed one. Items are counted only if they kept it. -/
def outcomeFlaw? (setup : Setup) (who : Clicker) (scene : Scene) (processed outcome : Outcome) :
    Except Fault (Option OutcomeFlaw) :=
  match outcome.flaw? scene.toWindow with
  | some flaw => return some flaw
  | none =>
    if outcome = processed ∧ setup.checkBalance ∧ who.mode ≠ .creative then outcome.imbalance? scene
    else return none

/-- Applies an admitted outcome. The player predicted the click without the hooks, so a replaced one is resent. -/
def commit (setup : Setup) (who : Clicker) (action : Action) (outcome : Outcome) (replaced : Bool) :
    TurnM (Option Outcome) := do
  TurnM.withScene outcome.apply
  TurnM.emit (outcome.thrown.map (.drop who.player))
  TurnM.withTrace (setup.hooks.runPost (← TurnM.context who) action outcome)
  TurnM.emit [.applied who.player action outcome]
  if replaced then TurnM.emit [.resync who.player]
  return some outcome

/-- Processes an admitted action, up to and with the hooks on its outcome. -/
def perform (setup : Setup) (process : Processor) (who : Clicker) (action : Action) (replaced : Bool) :
    TurnM (Option Outcome) := do
  let cx ← TurnM.context who
  let processed ← StepM.ofExcept (process cx.scene action)
  match ← TurnM.withTrace (setup.hooks.runClick cx action processed) with
  | .cancel => TurnM.abandon who .cancelledAfter
  | .proceed outcome =>
    match ← StepM.ofExcept (outcomeFlaw? setup who cx.scene processed outcome) with
    | some flaw => TurnM.abandon who (.rejectedOutcome flaw)
    | none => commit setup who action outcome (replaced || outcome != processed)

/-- Takes a decoded action through the hooks. -/
def run (setup : Setup) (process : Processor) (who : Clicker) (decoded : Action) : TurnM (Option Outcome) := do
  let cx ← TurnM.context who
  match ← TurnM.withTrace (setup.hooks.runPre cx decoded) with
  | .cancel => TurnM.abandon who .cancelledBefore
  | .proceed action =>
    if action = decoded then perform setup process who action false
    else
      match action.flaw? cx.scene.toWindow who.mode with
      | some flaw => TurnM.abandon who (.rejectedAction flaw)
      | none => perform setup process who action true

/-- A click packet. Answers the applied outcome, if there is one. -/
def click (setup : Setup) (process : Processor) (who : Clicker) (packet : Packet) : TurnM (Option Outcome) := do
  let action? ← TurnM.withDecoder (Decoder.decode who.player who.mode packet)
  TurnM.log (Notice.ofDecoded action?)
  match action? with
  | none => return none
  | some action => run setup process who action

/-- A packet of the creative inventory, for a scene without a container. -/
def creative (setup : Setup) (process : Processor) (who : Clicker) (slot : Int) (stack : Stack) :
    TurnM (Option Outcome) := do
  TurnM.log (Notice.ofCreative who.mode)
  match Decoder.decodeCreative who.mode slot stack with
  | none => return none
  | some action => run setup process who action

end Turn

end InventoryClicks
