import InventoryClicks.NatMap
import InventoryClicks.Proofs.Ends
import InventoryClicks.Proofs.Weight

/-!
# Overwritten inventories

`Inventory.overwrite` is an inventory in which some slots hold other stacks, whatever the order in which these were
written. It is what writes at ascending slots leave (`foldl_set_entries`), and `weight_overwrite` says what it weighs.
-/

namespace InventoryClicks

namespace NatMap

variable {α : Type} {m : NatMap α} {k : Nat} {a : α}

theorem mem_entries_iff : (k, a) ∈ m.entries ↔ m.get? k = some a := by
  obtain ⟨l, asc⟩ := m
  simp only [get?]
  induction l with
  | nil => simp
  | cons hd tl ih =>
    obtain ⟨j, b⟩ := hd
    rw [List.pairwise_cons] at asc
    rw [List.mem_cons, ih asc.2, List.lookup_cons]
    by_cases same : k = j
    · subst same
      have absent : tl.lookup k = none := lookup_eq_none fun e he => asc.1 e he
      simp [absent, eq_comm]
    · have differ : (k == j) = false := by simpa using same
      simp [same, differ]

theorem mem_keys_iff : k ∈ m.keys ↔ ∃ a, m.get? k = some a := by
  simp only [keys, List.mem_map]
  constructor
  · rintro ⟨⟨j, b⟩, mem, rfl⟩
    exact ⟨b, mem_entries_iff.1 mem⟩
  · rintro ⟨a, get⟩
    exact ⟨(k, a), mem_entries_iff.2 get, rfl⟩

theorem nodup_keys (m : NatMap α) : m.keys.Nodup := by
  rw [keys, List.nodup_iff_pairwise_ne, List.pairwise_map]
  exact m.ascending.imp fun h => Nat.ne_of_lt h

end NatMap

namespace Inventory

variable {inv : Inventory} {w : Weight}

/-- The changed slots hold what they were changed to, the others what they held. -/
def overwrite (inv : Inventory) (changes : NatMap Stack) : Inventory :=
  ⟨inv.kind, inv.slots.mapIdx fun i s => (changes.get? i).getD s, by simp [inv.length_slots]⟩

@[simp] theorem slotCount_overwrite (inv : Inventory) (changes : NatMap Stack) :
    (inv.overwrite changes).slotCount = inv.slotCount := rfl

theorem get?_overwrite (inv : Inventory) (changes : NatMap Stack) (i : Nat) :
    (inv.overwrite changes).get? i = (inv.get? i).map fun s => (changes.get? i).getD s := by
  simp [get?, overwrite]

@[simp] theorem overwrite_empty (inv : Inventory) : inv.overwrite ∅ = inv := by
  refine ext_get? rfl fun i => ?_
  rw [get?_overwrite]
  cases inv.get? i <;> rfl

theorem overwrite_insert (inv : Inventory) (changes : NatMap Stack) (k : Nat) (s : Stack) :
    inv.overwrite (changes.insert k s) = (inv.overwrite changes).set k s := by
  refine ext_get? rfl fun i => ?_
  rw [get?_set, get?_overwrite, get?_overwrite, NatMap.get?_insert, slotCount_overwrite]
  by_cases hi : i = k
  · subst hi
    rcases h : inv.get? i with _ | old
    · have out : ¬ i < inv.slotCount := by
        rw [← get?_isSome_iff, h]
        simp
      simp [out]
    · have inside : i < inv.slotCount := get?_isSome_iff.1 (by simp [h])
      simp [inside]
  · simp [hi]

/-- Writes at ascending slots, one after the other. -/
theorem get?_foldl_set {l : List (Nat × Stack)} (asc : l.Pairwise (·.1 < ·.1)) (inv : Inventory) (i : Nat) :
    (l.foldl (fun acc e => acc.set e.1 e.2) inv).get? i = (inv.get? i).map fun s => (l.lookup i).getD s := by
  induction l generalizing inv with
  | nil => simp
  | cons e l ih =>
    rw [List.pairwise_cons] at asc
    rw [List.foldl_cons, ih asc.2, get?_set, List.lookup_cons]
    by_cases hi : i = e.1
    · subst hi
      have absent : l.lookup e.1 = none := NatMap.lookup_eq_none asc.1
      rcases h : inv.get? e.1 with _ | old
      · have out : ¬ e.1 < inv.slotCount := by
          rw [← get?_isSome_iff, h]
          simp
        simp [out]
      · have inside : e.1 < inv.slotCount := get?_isSome_iff.1 (by simp [h])
        simp [inside, absent]
    · have differ : (i == e.1) = false := by simpa using hi
      simp [hi, differ]

theorem foldl_set_entries (inv : Inventory) (changes : NatMap Stack) :
    changes.entries.foldl (fun acc e => acc.set e.1 e.2) inv = inv.overwrite changes := by
  have kind : ∀ (l : List (Nat × Stack)) (inv : Inventory),
      (l.foldl (fun acc e => acc.set e.1 e.2) inv).kind = inv.kind := by
    intro l
    induction l with
    | nil => exact fun inv => rfl
    | cons e l ih => exact fun inv => ih (inv.set e.1 e.2)
  refine ext_get? (kind _ _) fun i => ?_
  rw [get?_foldl_set changes.ascending, get?_overwrite]
  rfl

/-- Writes one after the other, when one write sets a slot of the inventory that `put` places in a state. -/
theorem run_forM_write {σ : Type} {write : Nat → Stack → StepM σ Unit} (put : Inventory → σ)
    (step : ∀ inv slot s, slot < inv.slotCount → (write slot s).run (put inv) = .ok ⟨⟩ (put (inv.set slot s)))
    {l : List (Nat × Stack)} {inv : Inventory} (inside : ∀ e ∈ l, e.1 < inv.slotCount) :
    (l.forM fun e => write e.1 e.2).run (put inv) =
      .ok ⟨⟩ (put (l.foldl (fun acc e => acc.set e.1 e.2) inv)) := by
  induction l generalizing inv with
  | nil => rfl
  | cons e l ih =>
    rw [List.forM, StepM.run_bind_eq_ok]
    refine ⟨⟨⟩, put (inv.set e.1 e.2), step inv e.1 e.2 (inside e (by simp)), ?_⟩
    exact ih fun e' he' => inside e' (by simp [he'])

/-- What writing the entries adds to the weight of the inventory. -/
def gained (w : Weight) (inv : Inventory) (entries : List (Nat × Stack)) : Int :=
  (entries.map fun e => e.2.weight w - ((inv.get? e.1).getD .empty).weight w).sum

theorem weight_foldl_set {l : List (Nat × Stack)} (asc : l.Pairwise (·.1 < ·.1)) (inv : Inventory)
    (inside : ∀ e ∈ l, e.1 < inv.slotCount) :
    (l.foldl (fun acc e => acc.set e.1 e.2) inv).weight w = inv.weight w + inv.gained w l := by
  induction l generalizing inv with
  | nil => simp [gained]
  | cons e l ih =>
    rw [List.pairwise_cons] at asc
    have here : e.1 < inv.slotCount := inside e (by simp)
    obtain ⟨old, hold⟩ := Option.isSome_iff_exists.1 (get?_isSome_iff.2 here)
    have later : (inv.set e.1 e.2).gained w l = inv.gained w l := by
      unfold gained
      congr 1
      apply List.map_congr_left
      intro e' he'
      have differ : ¬ e'.1 = e.1 := by
        have := asc.1 e' he'
        omega
      simp [get?_set, differ]
    rw [List.foldl_cons, ih asc.2 (inv.set e.1 e.2) (fun e' he' => inside e' (by simp [he'])), later,
      weight_set hold]
    simp only [gained, List.map_cons, List.sum_cons, hold, Option.getD_some]
    omega

theorem weight_overwrite (inv : Inventory) (changes : NatMap Stack)
    (inside : ∀ k a, changes.get? k = some a → k < inv.slotCount) :
    (inv.overwrite changes).weight w = inv.weight w + inv.gained w changes.entries := by
  rw [← foldl_set_entries]
  apply weight_foldl_set changes.ascending
  intro e he
  exact inside e.1 e.2 (NatMap.mem_entries_iff.1 he)

end Inventory

end InventoryClicks
