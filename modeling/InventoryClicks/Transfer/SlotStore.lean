import InventoryClicks.Inventory.Basic
import InventoryClicks.NatMap

/-!
# Slot stores

A slot store is what a transfer reads from and writes to: an inventory itself, or an `Overlay` that keeps writes
apart from the inventory under it until they are wanted.
-/

namespace InventoryClicks

class SlotStore (σ : Type) where
  read : σ → Nat → Except Fault Stack
  write : σ → Nat → Stack → Except Fault σ

instance : SlotStore Inventory := ⟨Inventory.read, Inventory.write⟩

/-- Writes over an inventory. The inventory answers for slots that were not written. -/
structure Overlay where
  base : Inventory
  changes : NatMap Stack := ∅

namespace Overlay

def read (o : Overlay) (slot : Nat) : Except Fault Stack :=
  match o.changes.get? slot with
  | some s => .ok s
  | none => o.base.read slot

def write (o : Overlay) (slot : Nat) (s : Stack) : Overlay := { o with changes := o.changes.insert slot s }

/-- A read sees the last write to its slot. -/
theorem read_write (o : Overlay) (slot j : Nat) (s : Stack) :
    (o.write slot s).read j = if j = slot then .ok s else o.read j := by
  simp only [read, write, NatMap.get?_insert]
  by_cases h : j = slot <;> simp [h]

instance : SlotStore Overlay := ⟨read, fun o slot s => .ok (o.write slot s)⟩

end Overlay

namespace Inventory

/-- Writes the entries in ascending order. -/
def writeAll (inv : Inventory) (changes : NatMap Stack) : Except Fault Inventory :=
  changes.entries.foldlM (fun acc e => acc.write e.1 e.2) inv

end Inventory

end InventoryClicks
