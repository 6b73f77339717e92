import InventoryClicks.StepM
import InventoryClicks.Click.Action
import InventoryClicks.Click.Outcome

/-!
# Hooks

Functions of the application that a click passes through: before it is processed, before its outcome is applied
and after that. They run in the order of their lists; one that cancels is the last to run. A trace keeps every
call that came to an end, because a hook may also stop at a fault.
-/

namespace InventoryClicks

/-- Carry on with a value, or stop the click. -/
inductive Verdict (α : Type) where
  | proceed (value : α)
  | cancel

/-- What a hook is shown. -/
structure Context where
  player : Nat
  mode : GameMode
  scene : Scene
  deriving DecidableEq

structure Hooks where
  pre : List (Context → Action → Except Fault (Verdict Action)) := []
  click : List (Context → Action → Outcome → Except Fault (Verdict Outcome)) := []
  post : List (Context → Action → Outcome → Except Fault Unit) := []

inductive Hooks.Stage where
  | pre | click | post
  deriving DecidableEq, Repr

/-- A call of the hook with that index in its list, and the values it was given. -/
structure HookCall where
  stage : Hooks.Stage
  index : Nat
  context : Context
  action : Action
  outcome : Option Outcome
  deriving DecidableEq

namespace Hooks

/-- Steps that leave a trace of calls. -/
abbrev TraceM := StepM (List HookCall)

/-- Runs hooks from index `i` on, each with the value of the one before. `call` describes a call. -/
def chain {α : Type} (call : Nat → α → HookCall) :
    Nat → List (α → Except Fault (Verdict α)) → α → TraceM (Verdict α)
  | _, [], a => return .proceed a
  | i, hook :: rest, a => do
    let verdict ← StepM.ofExcept (hook a)
    modify (· ++ [call i a])
    match verdict with
    | .proceed b => chain call (i + 1) rest b
    | .cancel => return .cancel

def runPre (hooks : Hooks) (cx : Context) (action : Action) : TraceM (Verdict Action) :=
  chain (fun i a => ⟨.pre, i, cx, a, none⟩) 0 (hooks.pre.map (· cx)) action

def runClick (hooks : Hooks) (cx : Context) (action : Action) (outcome : Outcome) : TraceM (Verdict Outcome) :=
  chain (fun i o => ⟨.click, i, cx, action, some o⟩) 0 (hooks.click.map (· cx action)) outcome

def runPostFrom (cx : Context) (action : Action) (outcome : Outcome) :
    Nat → List (Context → Action → Outcome → Except Fault Unit) → TraceM Unit
  | _, [] => return
  | i, hook :: rest => do
    StepM.ofExcept (hook cx action outcome)
    modify (· ++ [⟨.post, i, cx, action, some outcome⟩])
    runPostFrom cx action outcome (i + 1) rest

def runPost (hooks : Hooks) (cx : Context) (action : Action) (outcome : Outcome) : TraceM Unit :=
  runPostFrom cx action outcome 0 hooks.post

end Hooks

end InventoryClicks
