import InventoryClicks.Transfer.OnInventory
import InventoryClicks.Proofs.Overwrite
import InventoryClicks.Proofs.Transfer

/-!
# Staged transfers

A transfer on an inventory is staged in an overlay and then written as a whole. Staging of operators that trade at slots of
the inventory comes to its end and names slots of the inventory only (`Transfer.stage_ends`), so that writing what was
staged overwrites the inventory (`Inventory.writeAll_eq_overwrite`).
-/

namespace InventoryClicks

open StepM

variable {inv : Inventory} {w u : Weight}

namespace Overlay

/-- An overlay of the inventory, with changes for slots that it has. -/
structure Over (inv : Inventory) (o : Overlay) : Prop where
  base : o.base = inv
  inside : ∀ slot s, o.changes.get? slot = some s → slot < inv.slotCount

theorem over_start (inv : Inventory) : ({ base := inv } : Overlay).Over inv :=
  ⟨rfl, fun slot s staged => by cases (NatMap.get?_empty slot).symm.trans staged⟩

theorem Over.read {o : Overlay} (covers : o.Over inv) {slot : Nat} {s : Stack}
    (shown : (inv.overwrite o.changes).get? slot = some s) : o.read slot = .ok s := by
  rw [Inventory.get?_overwrite, Option.map_eq_some_iff] at shown
  obtain ⟨old, here, stack⟩ := shown
  unfold Overlay.read
  rcases staged : o.changes.get? slot with _ | new
  · rw [staged, Option.getD_none] at stack
    rw [covers.base, ← stack]
    exact Inventory.read_eq_ok_iff.2 here
  · rw [staged, Option.getD_some] at stack
    rw [stack]

theorem Over.write {o : Overlay} (covers : o.Over inv) {slot : Nat} (here : slot < inv.slotCount) (s : Stack) :
    (o.write slot s).Over inv := by
  refine ⟨covers.base, fun k s' staged => ?_⟩
  simp only [Overlay.write, NatMap.get?_insert] at staged
  by_cases same : k = slot
  · omega
  · rw [if_neg same] at staged
    exact covers.inside k s' staged

/-- An overlay weighs what the inventory will weigh when it is written. -/
theorem account (inv : Inventory) (w : Weight) :
    SlotStore.Account w (· < inv.slotCount) (Over inv) fun o => (inv.overwrite o.changes).weight w := by
  refine ⟨fun o slot covers here => ?_⟩
  obtain ⟨old, shown⟩ : ∃ s, (inv.overwrite o.changes).get? slot = some s :=
    Option.isSome_iff_exists.1 (Inventory.get?_isSome_iff.2 here)
  refine ⟨old, covers.read shown, fun new => ⟨o.write slot new, rfl, covers.write here new, ?_⟩⟩
  show (inv.overwrite (o.changes.insert slot new)).weight w + old.weight w = _
  rw [Inventory.overwrite_insert, Inventory.weight_set shown]
  omega

end Overlay

/-- Changes of slots that the inventory has are written over it. -/
theorem Inventory.writeAll_eq_overwrite {changes : NatMap Stack}
    (inside : ∀ slot s, changes.get? slot = some s → slot < inv.slotCount) :
    inv.writeAll changes = .ok (inv.overwrite changes) := by
  have along (l : List (Nat × Stack)) (inv : Inventory) (inside : ∀ e ∈ l, e.1 < inv.slotCount) :
      l.foldlM (fun acc e => acc.write e.1 e.2) inv = .ok (l.foldl (fun acc e => acc.set e.1 e.2) inv) := by
    induction l generalizing inv with
    | nil => rfl
    | cons e l ih =>
      have here : inv.write e.1 e.2 = .ok (inv.set e.1 e.2) := by
        rw [Inventory.write, if_pos (inside e (by simp))]
      simp only [List.foldlM_cons, List.foldl_cons, here]
      exact ih (inv.set e.1 e.2) fun e' mem => inside e' (by simp [mem])
  rw [writeAll, along _ inv fun e mem => inside e.1 e.2 (NatMap.mem_entries_iff.1 mem), foldl_set_entries]

namespace Transfer

/-- **Staging.** What a transfer that trades does not leave over is in the inventory when the changes are written. -/
theorem stage_ends {rule : StackingRule} {t : Transfer} (inv : Inventory)
    (trades : t.Trades rule w u (· < inv.slotCount)) (item : Stack) :
    ∃ rest changes, t.stage rule inv item = .ok (rest, changes) ∧
      (∀ slot s, changes.get? slot = some s → slot < inv.slotCount) ∧
      (inv.overwrite changes).weight w + rest.weight u = inv.weight w + item.weight u := by
  obtain ⟨rest, o, run, covers, weight⟩ := run_trades (Overlay.account inv w) trades (Overlay.over_start inv) item
  refine ⟨rest, o.changes, ?_, covers.inside, ?_⟩
  · have staged : t.run rule item ({ base := inv } : Overlay) = .ok rest o := run
    simp only [stage, staged]
  · have start : inv.overwrite ({ base := inv } : Overlay).changes = inv := inv.overwrite_empty
    rw [start] at weight
    exact weight

end Transfer

end InventoryClicks
