import InventoryClicks.Fault

/-!
# Slot views

A view renumbers slots: its local slots `0 … size - 1` stand for external slots of an inventory or of another
view. `toList` is the meaning of a view, the external slots in local order; `toExternal?` looks one of them up
without building the list, which matters because a span may cover any part of the 64-bit range.
-/

namespace InventoryClicks

inductive SlotView where
  /-- `len` consecutive external slots. -/
  | span (start len : Nat)
  | listed (slots : List Nat)
  /-- The local slots of `rest` after those of `first`. -/
  | append (first rest : SlotView)
  /-- External slots of `child` read as local slots of `parent`. -/
  | join (parent child : SlotView)
  deriving DecidableEq, Repr

namespace SlotView

/-- Why parts do not make a view. -/
inductive BuildError where
  | invertedRange (min max : Nat)
  | childTooLarge (child parent : Nat)
  | childOutOfBounds (slot parent : Nat)
  | overflow (start len : Nat)
  deriving DecidableEq, Repr

def BuildError.message : BuildError → String
  | .invertedRange min max => s!"slot range {min}..{max} ends before it starts"
  | .childTooLarge child parent => s!"child view of size {child} does not fit in parent view of size {parent}"
  | .childOutOfBounds slot parent =>
    s!"child view maps to slot {slot}, outside of parent view of size {parent}"
  | .overflow start len => s!"{len} slots starting at slot {start} run past the largest slot index"

def size : SlotView → Nat
  | span _ len => len
  | listed slots => slots.length
  | append first rest => first.size + rest.size
  | join _ child => child.size

/-- The external slots in local order. -/
def toList : SlotView → List Nat
  | span start len => List.range' start len
  | listed slots => slots
  | append first rest => first.toList ++ rest.toList
  | join parent child => child.toList.filterMap (parent.toList[·]?)

def toExternal? : SlotView → Nat → Option Nat
  | span start len, l => if l < len ∧ start + l < Bounded.viewLimit then some (start + l) else none
  | listed slots, l => slots[l]?
  | append first rest, l =>
    if l < first.size then first.toExternal? l else rest.toExternal? (l - first.size)
  | join parent child, l => (child.toExternal? l).bind parent.toExternal?

/-- External slots found by looking up every local slot. -/
def externals (v : SlotView) : List Nat := (List.range v.size).filterMap v.toExternal?

/-- First external slot with property `p` among the `n` local slots from `l` on. -/
def findFrom (v : SlotView) (p : Nat → Bool) : Nat → Nat → Option Nat
  | _, 0 => none
  | l, n + 1 =>
    match v.toExternal? l with
    | some slot => if p slot then some slot else v.findFrom p (l + 1) n
    | none => v.findFrom p (l + 1) n

/-- First external slot with property `p`, in local order. Stops at the first hit, however large the view. -/
def find? (v : SlotView) (p : Nat → Bool) : Option Nat := v.findFrom p 0 v.size

def containsExternal (v : SlotView) (slot : Nat) : Bool :=
  match v with
  | span start len => start ≤ slot && slot - start < len
  | _ => (v.find? (· == slot)).isSome

/-! Constructors that check their parts. -/

def ofSpan (start len : Nat) : Except BuildError SlotView :=
  if start + len < Bounded.viewLimit then .ok (span start len) else .error (.overflow start len)

/-- External slots `min … max - 1`. -/
def ofRange (min max : Nat) : Except BuildError SlotView :=
  if max < min then .error (.invertedRange min max) else ofSpan min (max - min)

def singular (slot : Nat) : SlotView := span slot 1

/-- Parts one after the other. The sizes have to add up to a size. -/
def union : List SlotView → Except Fault SlotView
  | [] => .ok (listed [])
  | v :: rest => do
    let tail ← union rest
    let _ ← Bounded.add Bounded.viewLimit v.size tail.size
    return append v tail

def ofJoin (parent child : SlotView) : Except BuildError SlotView :=
  if parent.size < child.size then .error (.childTooLarge child.size parent.size)
  else
    match child.find? (parent.size ≤ ·) with
    | some slot => .error (.childOutOfBounds slot parent.size)
    | none => .ok (join parent child)

end SlotView

end InventoryClicks
