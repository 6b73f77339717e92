import InventoryClicks.Proofs.Scene

/-!
# Counting what an outcome adds

The check that rejects an outcome which creates or destroys items adds up entries of maps, in a bounded amount.
`Scene.weight_overwrite` adds up the same entries for any weight and any outcome that fits, and `Outcome.eq_of_delta`
says that the check counts items this way. So the count of the check is what the scene gains when the outcome is applied.
-/

namespace InventoryClicks

theorem Amount.add_eq_ok_iff {a b c : Int} : Amount.add a b = .ok c ↔ Amount.InRange (a + b) ∧ a + b = c := by
  unfold Amount.add
  split <;> simp_all

namespace Inventory

variable {inv : Inventory} {w : Weight}

/-- Entries at slots whose stacks are the same gain the same. -/
theorem gained_congr {a b : Inventory} {entries : List (Nat × Stack)} (same : ∀ e ∈ entries, a.get? e.1 = b.get? e.1) :
    a.gained w entries = b.gained w entries := by
  unfold gained
  congr 1
  apply List.map_congr_left
  intro e he
  rw [same e he]

end Inventory

namespace Outcome

variable {o : Outcome} {scene : Scene} {w : Weight}

/-- What writing the outcome over a scene adds to its weight. -/
def gained (w : Weight) (scene : Scene) (o : Outcome) : Int :=
  scene.clicked.gained w o.changes.entries + scene.player.gained w o.playerChanges.entries +
    ((o.cursor.getD scene.cursor).weight w - scene.cursor.weight w)

/-- What the outcome throws into the world weighs. -/
def thrownWeight (w : Weight) (o : Outcome) : Int := (o.thrown.map (·.weight w)).sum

/-- Empty stacks are not thrown, and weigh nothing. -/
theorem thrownWeight_eq (w : Weight) (o : Outcome) : o.thrownWeight w = (o.dropped.map (·.weight w)).sum := by
  unfold thrownWeight thrown
  induction o.dropped with
  | nil => rfl
  | cons s l ih =>
    rcases h : s.isEmpty
    · rw [List.filter_cons_of_pos (by simp [h])]
      simp only [List.map_cons, List.sum_cons, ih]
    · rw [List.filter_cons_of_neg (by simp [h]), ih]
      simp [Stack.weight_of_isEmpty h]

end Outcome

theorem Scene.weight_overwrite {scene : Scene} {o : Outcome} {w : Weight} (fits : o.Fits scene.toWindow) :
    (scene.overwrite o).weight w = scene.weight w + o.gained w scene := by
  rcases container : scene.container with _ | c
  · have clicked : scene.clicked = scene.player := by simp [Window.clicked, container]
    have changes : ∀ k a, o.changes.get? k = some a → k < scene.player.slotCount := by
      simpa [clicked] using fits.changes
    have apart : (scene.player.overwrite o.changes).gained w o.playerChanges.entries =
        scene.player.gained w o.playerChanges.entries := by
      apply Inventory.gained_congr
      rintro ⟨k, s⟩ mem
      have own := NatMap.mem_entries_iff.1 mem
      have absent : o.changes.get? k = none := by
        rcases h : o.changes.get? k with _ | s'
        · rfl
        · have := fits.once container k s' h
          rw [own] at this
          cases this
      simp [Inventory.get?_overwrite, absent]
    rw [overwrite_own container]
    simp only [weight, Outcome.gained, clicked, container, Option.map_none, Option.getD_none]
    rw [Inventory.weight_overwrite (scene.player.overwrite o.changes) _ fits.playerChanges,
      Inventory.weight_overwrite _ _ changes, apart]
    omega
  · have clicked : scene.clicked = c := by simp [Window.clicked, container]
    have changes : ∀ k a, o.changes.get? k = some a → k < c.slotCount := by
      simpa [clicked] using fits.changes
    rw [overwrite_container container]
    simp only [weight, Outcome.gained, clicked, container, Option.map_some, Option.getD_some]
    rw [Inventory.weight_overwrite _ _ fits.playerChanges, Inventory.weight_overwrite _ _ changes]
    omega

namespace Outcome

variable {o : Outcome} {scene : Scene}

theorem eq_of_gain {inv : Inventory} {n m : Int} {entries : List (Nat × Stack)} (h : gain inv n entries = .ok m) :
    m = n + inv.gained .items entries := by
  induction entries generalizing n with
  | nil =>
    cases h
    simp [Inventory.gained]
  | cons e l ih =>
    obtain ⟨n', first, rest⟩ := bind_eq_ok.1 h
    obtain ⟨old, read, add⟩ := bind_eq_ok.1 first
    rw [Inventory.read_eq_ok_iff] at read
    obtain ⟨-, sum⟩ := Amount.add_eq_ok_iff.1 add
    rw [ih rest, ← sum]
    simp only [Inventory.gained, List.map_cons, List.sum_cons, read, Option.getD_some, Stack.weight_items]
    omega

theorem eq_of_delta {m : Int} (h : o.delta scene = .ok m) : m = o.gained .items scene := by
  obtain ⟨clicked, first, h⟩ := bind_eq_ok.1 h
  obtain ⟨both, second, h⟩ := bind_eq_ok.1 h
  rw [eq_of_gain first] at second
  rw [eq_of_gain second] at h
  unfold gained
  rcases cursor : o.cursor with _ | s
  · rw [cursor] at h
    cases h
    simp
  · rw [cursor] at h
    obtain ⟨-, sum⟩ := Amount.add_eq_ok_iff.1 h
    simp only [Option.getD_some, Stack.weight_items]
    omega

theorem eq_of_foldlM_count {l : List Stack} {n m : Int}
    (h : l.foldlM (fun n s => Amount.add n s.count) n = .ok m) : m = n + (l.map (·.weight .items)).sum := by
  induction l generalizing n with
  | nil =>
    cases h
    simp
  | cons s l ih =>
    obtain ⟨n', add, rest⟩ := bind_eq_ok.1 h
    obtain ⟨-, sum⟩ := Amount.add_eq_ok_iff.1 add
    rw [ih rest, ← sum]
    simp only [List.map_cons, List.sum_cons, Stack.weight_items]
    omega

/-- An outcome that passes the check gains what it throws. -/
theorem gained_of_imbalance? (h : o.imbalance? scene = .ok none) : o.gained .items scene = -o.thrownWeight .items := by
  obtain ⟨delta, count, h⟩ := bind_eq_ok.1 h
  obtain ⟨dropped, drops, h⟩ := bind_eq_ok.1 h
  have balanced : delta = -dropped := by
    by_contra differ
    rw [if_neg differ] at h
    cases h
  rw [← eq_of_delta count, balanced, eq_of_foldlM_count drops, thrownWeight_eq]
  omega

end Outcome

end InventoryClicks
