import InventoryClicks.Click.Admission
import InventoryClicks.Proofs.Ends
import InventoryClicks.Proofs.Overwrite

/-!
# Scenes as cells

A scene is a cursor and the cells of one or two inventories. `Scene.overwrite` is the scene with an outcome written
over it, cell by cell, and `Outcome.run_apply` says that applying an outcome which fits the scene ends there. An
outcome fits exactly when the admission check finds no flaw in it.
-/

namespace InventoryClicks

namespace Window

/-- The stack in a cell, if the window has the cell. -/
def at? (w : Window) : Cell → Option Stack
  | .container slot => w.container.bind (·.get? slot)
  | .player slot => w.player.get? slot

end Window

namespace Scene

variable {scene : Scene} {o : Outcome} {w : Weight}

/-- The scene with another stack in a cell. -/
def setCell (scene : Scene) (s : Stack) : Cell → Scene
  | .container slot => { scene with container := scene.container.map (·.set slot s) }
  | .player slot => { scene with player := scene.player.set slot s }

/-- The scene with the outcome written over it. Without a container its changes are the player's. -/
def overwrite (scene : Scene) (o : Outcome) : Scene where
  player := match scene.container with
    | some _ => scene.player.overwrite o.playerChanges
    | none => (scene.player.overwrite o.changes).overwrite o.playerChanges
  container := scene.container.map (·.overwrite o.changes)
  cursor := o.cursor.getD scene.cursor

/-- Both inventories and the cursor. -/
def weight (w : Weight) (scene : Scene) : Int :=
  scene.player.weight w + (scene.container.map (·.weight w)).getD 0 + scene.cursor.weight w

theorem weight_setCell {c : Cell} {old s : Stack} (h : scene.at? c = some old) :
    (scene.setCell s c).weight w = scene.weight w - old.weight w + s.weight w := by
  cases c with
  | container slot =>
    obtain ⟨inv, open_, get⟩ := Option.bind_eq_some_iff.1 h
    simp only [weight, setCell, open_, Option.map_some, Option.getD_some, Inventory.weight_set get]
    omega
  | player slot =>
    have get : scene.player.get? slot = some old := h
    simp only [weight, setCell, Inventory.weight_set get]
    omega

theorem overwrite_container {c : Inventory} (h : scene.container = some c) :
    scene.overwrite o =
      { player := scene.player.overwrite o.playerChanges, container := some (c.overwrite o.changes),
        cursor := o.cursor.getD scene.cursor } := by
  simp [overwrite, h]

theorem overwrite_own (h : scene.container = none) :
    scene.overwrite o =
      { player := (scene.player.overwrite o.changes).overwrite o.playerChanges, container := none,
        cursor := o.cursor.getD scene.cursor } := by
  simp [overwrite, h]

theorem kinds_overwrite (scene : Scene) (o : Outcome) :
    (scene.overwrite o).player.kind = scene.player.kind ∧
      (scene.overwrite o).container.map (·.kind) = scene.container.map (·.kind) := by
  rcases open_ : scene.container with _ | c
  · rw [overwrite_own open_]
    exact ⟨rfl, rfl⟩
  · rw [overwrite_container open_]
    exact ⟨rfl, rfl⟩

end Scene

namespace Outcome

variable {o : Outcome} {w : Window} {scene : Scene}

/-- Every slot that the outcome names exists, and no slot of the player's is named twice. -/
structure Fits (o : Outcome) (w : Window) : Prop where
  changes : ∀ k s, o.changes.get? k = some s → k < w.clicked.slotCount
  playerChanges : ∀ k s, o.playerChanges.get? k = some s → k < w.player.slotCount
  once : w.container = none → ∀ k s, o.changes.get? k = some s → o.playerChanges.get? k = none

theorem find?_keys_eq_none_iff {m : NatMap Stack} {n : Nat} :
    m.keys.find? (n ≤ ·) = none ↔ ∀ k s, m.get? k = some s → k < n := by
  rw [List.find?_eq_none]
  constructor
  · intro h k s get
    have := h k (NatMap.mem_keys_iff.2 ⟨s, get⟩)
    simpa using this
  · intro h k mem
    obtain ⟨s, get⟩ := NatMap.mem_keys_iff.1 mem
    have := h k s get
    simpa using this

theorem any_keys_contains_eq_false_iff {m n : NatMap Stack} :
    m.keys.any n.contains = false ↔ ∀ k s, m.get? k = some s → n.get? k = none := by
  rw [List.any_eq_false]
  constructor
  · intro h k s get
    have := h k (NatMap.mem_keys_iff.2 ⟨s, get⟩)
    simpa [NatMap.contains] using this
  · intro h k mem
    obtain ⟨s, get⟩ := NatMap.mem_keys_iff.1 mem
    simp [NatMap.contains, h k s get]

theorem flaw?_eq_none_iff : o.flaw? w = none ↔ o.Fits w := by
  unfold flaw?
  rcases clicked : o.changes.keys.find? (w.clicked.slotCount ≤ ·) with _ | k
  · rw [find?_keys_eq_none_iff] at clicked
    rcases own : o.playerChanges.keys.find? (w.player.slotCount ≤ ·) with _ | k
    · rw [find?_keys_eq_none_iff] at own
      rcases open_ : w.container with _ | c
      · simp only [Option.isNone_none, Bool.true_and, ite_eq_right_iff, reduceCtorEq, imp_false,
          Bool.not_eq_true, any_keys_contains_eq_false_iff]
        exact ⟨fun h => ⟨clicked, own, fun _ => h⟩, fun h => h.once open_⟩
      · simp only [Option.isNone_some, Bool.false_and, Bool.false_eq_true, ↓reduceIte, true_iff]
        exact ⟨clicked, own, fun h => by simp [open_] at h⟩
    · simp only [reduceCtorEq, false_iff]
      intro fits
      rw [find?_keys_eq_none_iff.2 fits.playerChanges] at own
      contradiction
  · simp only [reduceCtorEq, false_iff]
    intro fits
    rw [find?_keys_eq_none_iff.2 fits.changes] at clicked
    contradiction

theorem run_writePlayer {slot : Nat} {s : Stack} (inside : slot < scene.player.slotCount) :
    (writePlayer slot s).run scene = .ok ⟨⟩ { scene with player := scene.player.set slot s } := by
  simp [writePlayer, Inventory.write, inside]

theorem run_writeClicked_container {c : Inventory} {slot : Nat} {s : Stack} (open_ : scene.container = some c)
    (inside : slot < c.slotCount) :
    (writeClicked slot s).run scene = .ok ⟨⟩ { scene with container := some (c.set slot s) } := by
  simp [writeClicked, open_, Inventory.write, inside]

theorem run_writeClicked_own {slot : Nat} {s : Stack} (closed : scene.container = none)
    (inside : slot < scene.player.slotCount) :
    (writeClicked slot s).run scene = .ok ⟨⟩ { scene with player := scene.player.set slot s } := by
  simp [writeClicked, closed, run_writePlayer inside]

theorem run_forM_writePlayer {changes : NatMap Stack}
    (inside : ∀ e ∈ changes.entries, e.1 < scene.player.slotCount) :
    (changes.entries.forM fun e => writePlayer e.1 e.2).run scene =
      .ok ⟨⟩ { scene with player := scene.player.overwrite changes } := by
  rw [← Inventory.foldl_set_entries]
  exact Inventory.run_forM_write (fun inv => { scene with player := inv }) (fun _ _ _ h => run_writePlayer h) inside

/-- The changes go to the container if one is open, and to the player's inventory otherwise. -/
theorem run_forM_writeClicked {changes : NatMap Stack}
    (inside : ∀ e ∈ changes.entries, e.1 < scene.clicked.slotCount) :
    (changes.entries.forM fun e => writeClicked e.1 e.2).run scene =
      .ok ⟨⟩ (scene.overwrite { changes }) := by
  obtain ⟨⟨player, container⟩, cursor⟩ := scene
  rcases container with _ | c
  · have run := Inventory.run_forM_write (fun inv => ({ player := inv, container := none, cursor } : Scene))
      (fun _ _ _ h => run_writeClicked_own rfl h) inside
    rw [Inventory.foldl_set_entries] at run
    simpa [Scene.overwrite, Window.clicked] using run
  · have run := Inventory.run_forM_write (fun inv => ({ player, container := some inv, cursor } : Scene))
      (fun _ _ _ h => run_writeClicked_container rfl h) inside
    rw [Inventory.foldl_set_entries] at run
    simpa [Scene.overwrite, Window.clicked] using run

/-- **Applying.** An outcome that fits is written over the scene, without a fault. -/
theorem run_apply (fits : o.Fits scene.toWindow) : o.apply.run scene = .ok ⟨⟩ (scene.overwrite o) := by
  have clicked : ∀ e ∈ o.changes.entries, e.1 < scene.clicked.slotCount :=
    fun e he => fits.changes e.1 e.2 (NatMap.mem_entries_iff.1 he)
  have own : ∀ e ∈ o.playerChanges.entries, e.1 < (scene.overwrite { changes := o.changes }).player.slotCount := by
    intro e he
    have := fits.playerChanges e.1 e.2 (NatMap.mem_entries_iff.1 he)
    rcases open_ : scene.container <;> simpa [Scene.overwrite, open_] using this
  unfold apply
  rw [StepM.run_bind_eq_ok]
  refine ⟨_, _, run_forM_writeClicked clicked, ?_⟩
  rw [StepM.run_bind_eq_ok]
  refine ⟨_, _, run_forM_writePlayer own, ?_⟩
  rcases open_ : scene.container <;> rcases cursor : o.cursor <;> simp [Scene.overwrite, open_, cursor]

end Outcome

end InventoryClicks
