import InventoryClicks.Fault
import InventoryClicks.Item.Stack
import InventoryClicks.Inventory.Kind

/-!
# Inventories

An inventory is one stack per slot of its kind. The number of slots is part of the type, so no operation can
change it. `get?_set` says that a write changes the slot it names and no other.
-/

namespace InventoryClicks

structure Inventory where
  kind : Inventory.Kind
  slots : List Stack
  length_slots : slots.length = kind.slotCount
  deriving DecidableEq

namespace Inventory

/-- The inventory of a kind with nothing in it. -/
def empty (kind : Kind) : Inventory :=
  ⟨kind, .replicate kind.slotCount .empty, List.length_replicate ..⟩

instance : Inhabited Inventory := ⟨empty .player⟩

def slotCount (inv : Inventory) : Nat := inv.kind.slotCount

def get? (inv : Inventory) (slot : Nat) : Option Stack := inv.slots[slot]?

/-- Nothing happens outside of the inventory. -/
def set (inv : Inventory) (slot : Nat) (s : Stack) : Inventory :=
  ⟨inv.kind, inv.slots.set slot s, by simp [inv.length_slots]⟩

def read (inv : Inventory) (slot : Nat) : Except Fault Stack :=
  match inv.get? slot with
  | some s => .ok s
  | none => .error .readOutside

def write (inv : Inventory) (slot : Nat) (s : Stack) : Except Fault Inventory :=
  if slot < inv.slotCount then .ok (inv.set slot s) else .error (.writeOutside slot)

/-- The stack that was in the slot, and the inventory with `s` there. -/
def replace (inv : Inventory) (slot : Nat) (s : Stack) : Except Fault (Stack × Inventory) := do
  let written ← inv.write slot s
  return ((inv.get? slot).getD .empty, written)

/-- First empty slot from `start` on and before `stop`. Both have to lie in the inventory or at its end. -/
def firstEmptyIn (inv : Inventory) (start stop : Nat) : Except Fault (Option Nat) :=
  if start ≤ inv.slotCount ∧ stop ≤ inv.slotCount then
    .ok ((List.range' start (stop - start)).find? fun i => (inv.get? i).any (·.isEmpty))
  else .error .rangeOutside

def firstEmpty (inv : Inventory) : Option Nat :=
  (List.range inv.slotCount).find? fun i => (inv.get? i).any (·.isEmpty)

@[simp] theorem kind_set (inv : Inventory) (i : Nat) (s : Stack) : (inv.set i s).kind = inv.kind := rfl

@[simp] theorem slotCount_set (inv : Inventory) (i : Nat) (s : Stack) :
    (inv.set i s).slotCount = inv.slotCount := rfl

theorem get?_isSome_iff {inv : Inventory} {i : Nat} : (inv.get? i).isSome ↔ i < inv.slotCount := by
  simp [get?, slotCount, ← inv.length_slots]

theorem get?_set (inv : Inventory) (i j : Nat) (s : Stack) :
    (inv.set i s).get? j = if j = i ∧ i < inv.slotCount then some s else inv.get? j := by
  simp only [get?, set, slotCount, ← inv.length_slots, List.getElem?_set]
  grind

theorem read_eq_ok_iff {inv : Inventory} {i : Nat} {s : Stack} : inv.read i = .ok s ↔ inv.get? i = some s := by
  simp only [read]
  split <;> simp_all

end Inventory

end InventoryClicks
