import InventoryClicks.SlotView.Basic

/-!
# View expressions

How a view is put together from constructors that check their parts. `build` makes the parts of an expression
from left to right, a parent before its child, and stops at the first that fails.
-/

namespace InventoryClicks.SlotView

inductive Expr where
  | range (min max : Nat)
  | span (start len : Nat)
  | singular (slot : Nat)
  | listed (slots : List Nat)
  | union (parts : List Expr)
  | join (parent child : Expr)
  deriving Repr

/-- A view could not be built: its parts do not fit, or sizes ran over. -/
inductive Failure where
  | misfit (cause : BuildError)
  | fault (cause : Fault)
  deriving DecidableEq, Repr

def orMisfit (r : Except BuildError SlotView) : Except Failure SlotView := r.mapError .misfit

mutual

def Expr.build : Expr → Except Failure SlotView
  | .range min max => orMisfit (ofRange min max)
  | .span start len => orMisfit (ofSpan start len)
  | .singular slot => .ok (SlotView.singular slot)
  | .listed slots => .ok (.listed slots)
  | .union parts => do
    let views ← buildAll parts
    (SlotView.union views).mapError .fault
  | .join parent child => do
    let p ← parent.build
    let c ← child.build
    orMisfit (ofJoin p c)

def buildAll : List Expr → Except Failure (List SlotView)
  | [] => .ok []
  | e :: rest => do
    let v ← e.build
    return v :: (← buildAll rest)

end

end InventoryClicks.SlotView
