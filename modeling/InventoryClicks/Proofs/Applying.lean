import Mathlib.Data.List.Nodup
import InventoryClicks.Proofs.Draft
import InventoryClicks.Proofs.Equipment
import InventoryClicks.Proofs.Safety
import InventoryClicks.Proofs.Staging

/-!
# What the check of an outcome decides

Applying an outcome is its writes in turn, and comes to an end exactly if every cell that is written exists
(`Outcome.run_apply_eq_ok_iff`). The check of an outcome asks for that and for one more thing, that no cell is written twice;
and of an outcome that passes it, the count of items is what the inventories and the cursor gain (`Outcome.flaw?_exact`).
-/

namespace InventoryClicks

open StepM

namespace Window

variable {w : Window} {slot : Nat}

theorem has_player_iff : w.Has (.player slot) ↔ slot < w.player.slotCount := Inventory.get?_isSome_iff

theorem has_container_iff {inv : Inventory} (open_ : w.container = some inv) :
    w.Has (.container slot) ↔ slot < inv.slotCount := by
  unfold Has at?
  simpa [open_] using Inventory.get?_isSome_iff

end Window

theorem Inventory.write_eq_ok_iff {inv after : Inventory} {slot : Nat} {s : Stack} :
    inv.write slot s = .ok after ↔ slot < inv.slotCount ∧ after = inv.set slot s := by
  unfold write
  split
  · next inside => simp [inside, eq_comm]
  · next outside => simp [outside]

namespace Scene

theorem has_setCell (scene : Scene) (s : Stack) (c k : Cell) : (scene.setCell s c).Has k ↔ scene.Has k := by
  unfold Window.Has
  rw [at?_setCell, Option.isSome_map]

theorem viewing_setCell (scene : Scene) (s : Stack) (c : Cell) :
    (scene.setCell s c).container.isSome = scene.container.isSome := by
  cases c with
  | container slot => exact Option.isSome_map
  | player slot => rfl

theorem has_writeAll (scene : Scene) (writes : List (Cell × Stack)) (k : Cell) :
    (scene.writeAll writes).Has k ↔ scene.Has k := by
  induction writes generalizing scene with
  | nil => rfl
  | cons e writes ih => exact (ih _).trans (scene.has_setCell ..)

theorem cursor_writeAll (scene : Scene) (writes : List (Cell × Stack)) : (scene.writeAll writes).cursor = scene.cursor := by
  induction writes generalizing scene with
  | nil => rfl
  | cons e writes ih => exact (ih _).trans (scene.cursor_setCell ..)

end Scene

namespace Outcome

variable {o : Outcome} {scene after : Scene} {slot : Nat} {s : Stack}

theorem run_writePlayer_eq_ok_iff : (writePlayer slot s).run scene = .ok ⟨⟩ after ↔
    scene.Has (.player slot) ∧ after = scene.setCell s (.player slot) := by
  rw [Window.has_player_iff]
  constructor
  · intro run
    obtain ⟨_, _, read, rest⟩ := run_bind_eq_ok.1 run
    obtain ⟨rfl, rfl⟩ := run_get_eq_ok.1 read
    obtain ⟨inv, _, written, set⟩ := run_bind_eq_ok.1 rest
    obtain ⟨write, rfl⟩ := run_ofExcept_eq_ok.1 written
    obtain ⟨inside, rfl⟩ := Inventory.write_eq_ok_iff.1 write
    exact ⟨inside, (run_set_eq_ok.1 set).symm⟩
  · rintro ⟨inside, rfl⟩
    exact run_writePlayer inside

/-- The cell that the outcome calls a slot of the clicked inventory. -/
def clickedCell (viewing : Bool) (slot : Nat) : Cell := if viewing then .container slot else .player slot

theorem has_clickedCell_iff : scene.Has (clickedCell scene.container.isSome slot) ↔ slot < scene.clicked.slotCount := by
  rcases open_ : scene.container with _ | c
  · rw [Window.clicked, open_]
    exact Window.has_player_iff
  · rw [Window.clicked, open_]
    exact Window.has_container_iff open_

theorem run_writeClicked_eq_ok_iff {viewing : Bool} (view : scene.container.isSome = viewing) :
    (writeClicked slot s).run scene = .ok ⟨⟩ after ↔
      scene.Has (clickedCell viewing slot) ∧ after = scene.setCell s (clickedCell viewing slot) := by
  rcases open_ : scene.container with _ | c
  · rw [open_] at view
    cases view
    have own : (writeClicked slot s).run scene = (writePlayer slot s).run scene := by
      simp [writeClicked, open_]
    rw [own]
    exact run_writePlayer_eq_ok_iff
  · rw [open_] at view
    cases view
    show _ ↔ scene.Has (.container slot) ∧ after = scene.setCell s (.container slot)
    have set : scene.setCell s (.container slot) = { scene with container := some (c.set slot s) } := by
      rw [Scene.setCell, open_]
      rfl
    rw [Window.has_container_iff open_, set]
    constructor
    · intro run
      obtain ⟨_, _, read, rest⟩ := run_bind_eq_ok.1 run
      obtain ⟨rfl, rfl⟩ := run_get_eq_ok.1 read
      rw [open_] at rest
      obtain ⟨inv, _, written, set⟩ := run_bind_eq_ok.1 rest
      obtain ⟨write, rfl⟩ := run_ofExcept_eq_ok.1 written
      obtain ⟨inside, rfl⟩ := Inventory.write_eq_ok_iff.1 write
      exact ⟨inside, (run_set_eq_ok.1 set).symm⟩
    · rintro ⟨inside, rfl⟩
      exact run_writeClicked_container open_ inside

/-- Writes in turn, of which each comes to an end if its cell exists and changes that cell. -/
theorem run_forM_write_eq_ok_iff (write : Nat → Stack → StepM Scene Unit) (cell : Nat → Cell) {viewing : Bool}
    (step : ∀ scene after slot s, scene.container.isSome = viewing →
      ((write slot s).run scene = .ok ⟨⟩ after ↔ scene.Has (cell slot) ∧ after = scene.setCell s (cell slot)))
    (scene after : Scene) (view : scene.container.isSome = viewing) (l : List (Nat × Stack)) :
    (l.forM fun e => write e.1 e.2).run scene = .ok ⟨⟩ after ↔
      (∀ e ∈ l, scene.Has (cell e.1)) ∧ after = scene.writeAll (l.map fun e => (cell e.1, e.2)) := by
  induction l generalizing scene with
  | nil => simp [Scene.writeAll, eq_comm]
  | cons e l ih =>
    have view' : (scene.setCell e.2 (cell e.1)).container.isSome = viewing := (scene.viewing_setCell ..).trans view
    rw [List.forM, run_bind_eq_ok, List.forall_mem_cons]
    constructor
    · rintro ⟨⟨⟩, next, first, rest⟩
      obtain ⟨has, rfl⟩ := (step _ _ _ _ view).1 first
      obtain ⟨others, rfl⟩ := (ih _ view').1 rest
      exact ⟨⟨has, fun e' mem => (scene.has_setCell ..).1 (others e' mem)⟩, rfl⟩
    · rintro ⟨⟨has, others⟩, rfl⟩
      refine ⟨⟨⟩, scene.setCell e.2 (cell e.1), (step _ _ _ _ view).2 ⟨has, rfl⟩, ?_⟩
      exact (ih _ view').2 ⟨fun e' mem => (scene.has_setCell ..).2 (others e' mem), rfl⟩

/-- **Applying.** An outcome is applied by its writes in turn. It comes to an end if all their cells exist. -/
theorem run_apply_eq_ok_iff : o.apply.run scene = .ok ⟨⟩ after ↔
    (∀ e ∈ o.writes scene.container.isSome, scene.Has e.1) ∧
      after = { scene.writeAll (o.writes scene.container.isSome) with cursor := o.cursor.getD scene.cursor } := by
  let viewing := scene.container.isSome
  let clicked := o.changes.entries.map fun e => (clickedCell viewing e.1, e.2)
  let own := o.playerChanges.entries.map fun e => ((.player e.1, e.2) : Cell × Stack)
  have writes : o.writes viewing = clicked ++ own := rfl
  have both : scene.writeAll (o.writes viewing) = (scene.writeAll clicked).writeAll own := List.foldl_append
  have first (mid : Scene) := run_forM_write_eq_ok_iff writeClicked (clickedCell viewing)
    (fun _ _ _ _ => run_writeClicked_eq_ok_iff) scene mid rfl o.changes.entries
  have second (mid : Scene) := run_forM_write_eq_ok_iff writePlayer .player
    (fun _ _ _ _ _ => run_writePlayer_eq_ok_iff) (scene.writeAll clicked) mid rfl o.playerChanges.entries
  have cells : (∀ e ∈ o.writes viewing, scene.Has e.1) ↔
      (∀ e ∈ o.changes.entries, scene.Has (clickedCell viewing e.1)) ∧
        ∀ e ∈ o.playerChanges.entries, (scene.writeAll clicked).Has (.player e.1) := by
    simp only [writes, List.forall_mem_append, clicked, own, List.forall_mem_map, Scene.has_writeAll]
  have kept : ((scene.writeAll clicked).writeAll own).cursor = scene.cursor := by
    rw [Scene.cursor_writeAll, Scene.cursor_writeAll]
  rw [cells, both, apply]
  constructor
  · intro run
    obtain ⟨⟨⟩, mid, run, rest⟩ := run_bind_eq_ok.1 run
    obtain ⟨⟨⟩, mid', run', last⟩ := run_bind_eq_ok.1 rest
    obtain ⟨has, rfl⟩ := (first mid).1 run
    obtain ⟨has', rfl⟩ := (second mid').1 run'
    refine ⟨⟨has, has'⟩, ?_⟩
    split at last
    · next s moved =>
      rw [moved]
      exact (run_modify_eq_ok.1 last).symm
    · next moved =>
      rw [moved, Option.getD_none, ← kept]
      exact (run_pure_eq_ok.1 last).2.symm
  · rintro ⟨⟨has, has'⟩, rfl⟩
    refine run_bind_eq_ok.2 ⟨⟨⟩, scene.writeAll clicked, (first _).2 ⟨has, rfl⟩, ?_⟩
    refine run_bind_eq_ok.2 ⟨⟨⟩, _, (second _).2 ⟨has', rfl⟩, ?_⟩
    split
    · next s moved =>
      rw [moved]
      rfl
    · next moved =>
      rw [moved, Option.getD_none, ← kept]
      rfl

/-- The cells that are written are all different if no slot of the player's is named in both ways. -/
theorem nodup_writes_iff {viewing : Bool} : ((o.writes viewing).map Prod.fst).Nodup ↔
    (viewing = false → ∀ k s, o.changes.get? k = some s → o.playerChanges.get? k = none) := by
  have cells : (o.writes viewing).map Prod.fst =
      o.changes.keys.map (clickedCell viewing) ++ o.playerChanges.keys.map .player := by
    simp only [writes, NatMap.keys, List.map_append, List.map_map]
    rfl
  have injective : Function.Injective (clickedCell viewing) := by
    intro i j same
    cases viewing with
    | false => exact Cell.player.inj same
    | true => exact Cell.container.inj same
  have clicked : (o.changes.keys.map (clickedCell viewing)).Nodup := List.Nodup.map injective o.changes.nodup_keys
  have own : (o.playerChanges.keys.map Cell.player).Nodup :=
    List.Nodup.map (fun _ _ same => Cell.player.inj same) o.playerChanges.nodup_keys
  rw [cells, List.nodup_append]
  constructor
  · rintro ⟨-, -, apart⟩ rfl k s changed
    by_contra again
    obtain ⟨s', changed'⟩ := Option.ne_none_iff_exists'.1 again
    have mem : Cell.player k ∈ o.changes.keys.map (clickedCell false) :=
      List.mem_map.2 ⟨k, NatMap.mem_keys_iff.2 ⟨s, changed⟩, rfl⟩
    exact apart _ mem _ (List.mem_map.2 ⟨k, NatMap.mem_keys_iff.2 ⟨s', changed'⟩, rfl⟩) rfl
  · intro once
    refine ⟨clicked, own, ?_⟩
    rintro c mem c' mem' rfl
    obtain ⟨i, named, same⟩ := List.mem_map.1 mem
    obtain ⟨j, named', rfl⟩ := List.mem_map.1 mem'
    cases viewing with
    | true => cases same
    | false =>
      cases Cell.player.inj same
      obtain ⟨s, changed⟩ := NatMap.mem_keys_iff.1 named
      obtain ⟨s', changed'⟩ := NatMap.mem_keys_iff.1 named'
      rw [once rfl i s changed] at changed'
      cases changed'

/-- **The check is exact.** Applying an outcome is its writes in turn, to cells that exist or else to no end. The check finds
no flaw if and only if applying comes to an end and writes no cell twice; the items it then counts are those that the two
inventories and the cursor gain. -/
theorem flaw?_exact (o : Outcome) (scene : Scene) :
    let writes := o.writes scene.container.isSome
    (∀ after, o.apply.run scene = .ok ⟨⟩ after ↔ (∀ e ∈ writes, scene.Has e.1) ∧
      after = { scene.writeAll writes with cursor := o.cursor.getD scene.cursor }) ∧
    (o.flaw? scene.toWindow = none ↔ (∃ after, o.apply.run scene = .ok ⟨⟩ after) ∧ (writes.map Prod.fst).Nodup) ∧
    (o.flaw? scene.toWindow = none → ∃ after, o.apply.run scene = .ok ⟨⟩ after ∧
      o.delta scene = .ok (after.weight .items - scene.weight .items)) := by
  intro writes
  refine ⟨fun after => run_apply_eq_ok_iff, ?_, fun flawless => ?_⟩
  · rw [flaw?_eq_none_iff, nodup_writes_iff]
    constructor
    · intro fits
      refine ⟨⟨_, run_apply fits⟩, fun closed => fits.once ?_⟩
      exact Option.isNone_iff_eq_none.1 (by simpa using closed)
    · rintro ⟨⟨after, run⟩, once⟩
      have has := (run_apply_eq_ok_iff.1 run).1
      refine ⟨fun k s changed => ?_, fun k s changed => ?_, fun closed => once (by rw [closed]; rfl)⟩
      · rw [← has_clickedCell_iff]
        exact has (_, s) (List.mem_append_left _ (List.mem_map.2 ⟨(k, s), NatMap.mem_entries_iff.2 changed, rfl⟩))
      · rw [← Window.has_player_iff]
        exact has (_, s) (List.mem_append_right _ (List.mem_map.2 ⟨(k, s), NatMap.mem_entries_iff.2 changed, rfl⟩))
  · have fits := flaw?_eq_none_iff.1 flawless
    obtain ⟨n, count⟩ := delta_total fits
    refine ⟨scene.overwrite o, run_apply fits, ?_⟩
    rw [count, eq_of_delta count, Scene.weight_overwrite fits]
    congr 1
    omega

/-- Without a container, two slots of the player's are named in the two ways. -/
theorem flaw?_exact_own :
    let o : Outcome :=
      { changes := NatMap.empty.insert 9 (.of .egg 5 none)
        playerChanges := NatMap.empty.insert 10 (.of .stone 3 none)
        cursor := some .empty }
    let scene : Scene := { player := .empty .player, cursor := .of .egg 5 none }
    o.flaw? scene.toWindow = none ∧ ((o.writes false).map Prod.fst).Nodup ∧ ∃ after, o.apply.run scene = .ok ⟨⟩ after ∧
      o.delta scene = .ok (after.weight .items - scene.weight .items) := by
  intro o scene
  obtain ⟨-, exact_, counts⟩ := flaw?_exact o scene
  have flawless : o.flaw? scene.toWindow = none := by decide
  exact ⟨flawless, (exact_.1 flawless).2, counts flawless⟩

end Outcome

end InventoryClicks
