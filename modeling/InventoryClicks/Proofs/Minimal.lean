import InventoryClicks.Proofs.Edits

/-!
# Minimal outcomes

An outcome is minimal for a scene if everything that it names would be new there (`Outcome.Minimal`). Whatever the routing,
menus with the standard rule answer with minimal outcomes, so that an outcome is empty exactly when it changes nothing
(`Menu.outcome_minimal`).
-/

namespace InventoryClicks

open StepM

/-- Every slot that the outcome names exists and holds another stack, the cursor is another one, and all the stacks that are
thrown are some items. -/
structure Outcome.Minimal (o : Outcome) (scene : Scene) : Prop where
  changes : ∀ slot s, o.changes.get? slot = some s → ∃ old, scene.clicked.get? slot = some old ∧ s ≠ old
  playerChanges : ∀ slot s, o.playerChanges.get? slot = some s → ∃ old, scene.player.get? slot = some old ∧ s ≠ old
  cursor : ∀ s, o.cursor = some s → s ≠ scene.cursor
  drops : ∀ l, o.drops = some l → l ≠ [] ∧ ∀ s ∈ l, s.isEmpty = false

theorem Outcome.isEmpty_iff {o : Outcome} : o.isEmpty ↔ o = {} := by
  have unchanged {m : NatMap Stack} : m.isEmpty ↔ m = ∅ := by
    obtain ⟨entries, ascending⟩ := m
    rw [NatMap.isEmpty, List.isEmpty_iff]
    exact ⟨fun none => by subst none; rfl, fun same => congrArg NatMap.entries same⟩
  obtain ⟨changes, playerChanges, cursor, drops⟩ := o
  simp only [isEmpty, Bool.and_eq_true, unchanged, Option.isNone_iff_eq_none, Outcome.mk.injEq, and_assoc]

namespace Draft

variable {scene : Scene} {touched : Cell → Prop} {moves throws : Bool} {d : Draft}

theorem Edits.minimal (edits : d.Edits scene touched moves throws) : d.outcome.Minimal scene where
  changes slot s staged := by
    have has := edits.same ▸ edits.sound (.container slot) s staged
    obtain ⟨old, live⟩ := Option.isSome_iff_exists.1 has
    obtain ⟨c, open_, get⟩ := Option.bind_eq_some_iff.1 live
    refine ⟨old, by rw [Window.clicked, open_, Option.getD_some, get], ?_⟩
    rintro rfl
    exact edits.changed (.container slot) s staged live
  playerChanges slot s staged := by
    have has := edits.same ▸ edits.sound (.player slot) s staged
    obtain ⟨old, live⟩ := Option.isSome_iff_exists.1 has
    refine ⟨old, live, ?_⟩
    rintro rfl
    exact edits.changed (.player slot) s staged live
  cursor := edits.moved
  drops := edits.thrown

/-- Edits that leave the scene and throw nothing are none. -/
theorem Edits.outcome_eq_empty (edits : d.Edits scene touched moves throws) (same : d.view = scene)
    (kept : d.outcome.thrown = []) : d.outcome = {} := by
  have unstaged (c : Cell) : d.staged? c = none := by
    rcases staged : d.staged? c with _ | s
    · rfl
    · exact absurd (same ▸ edits.sound.at?_view_of_staged staged) (edits.changed c s staged)
  have changes : d.outcome.changes = ∅ := NatMap.ext_get? fun slot => unstaged (.container slot)
  have playerChanges : d.outcome.playerChanges = ∅ := NatMap.ext_get? fun slot => unstaged (.player slot)
  have cursor : d.outcome.cursor = none := by
    rcases staged : d.outcome.cursor with _ | s
    · rfl
    · have shown : d.view.cursor = s := by
        show d.outcome.cursor.getD d.scene.cursor = s
        rw [staged, Option.getD_some]
      exact absurd (same ▸ shown.symm) (edits.moved s staged)
  have drops : d.outcome.drops = none := by
    rcases staged : d.outcome.drops with _ | l
    · rfl
    · obtain ⟨some, filled⟩ := edits.thrown l staged
      obtain ⟨s, mem⟩ := List.exists_mem_of_ne_nil l some
      have thrown : s ∈ d.outcome.thrown := by
        rw [Outcome.thrown, Outcome.dropped, staged, Option.getD_some]
        exact List.mem_filter.2 ⟨mem, by rw [filled s mem]; rfl⟩
      rw [kept] at thrown
      cases thrown
  generalize d.outcome = o at changes playerChanges cursor drops
  obtain ⟨_, _, _, _⟩ := o
  subst changes playerChanges cursor drops
  rfl

theorem Edits.isEmpty_iff (edits : d.Edits scene touched moves throws) :
    d.outcome.isEmpty ↔ d.view = scene ∧ d.outcome.thrown = [] := by
  rw [Outcome.isEmpty_iff]
  constructor
  · intro none
    rw [view, edits.same, none]
    exact ⟨scene.overwrite_empty, rfl⟩
  · exact fun idle => edits.outcome_eq_empty idle.1 idle.2

end Draft

namespace Menu

variable {menu : Menu} {scene : Scene} {a : Action}

/-- There is no swap with a slot that the player does not have. -/
theorem swapWithPlayer_faults {slot playerSlot : Nat} {d : Draft} (outside : scene.player.slotCount ≤ playerSlot) :
    (swapWithPlayer slot playerSlot).run { scene } ≠ .ok ⟨⟩ d := by
  intro run
  obtain ⟨own, d', read, -⟩ := run_bind_eq_ok.1 run
  obtain ⟨start, d'', got, read⟩ := run_bind_eq_ok.1 read
  obtain ⟨rfl, rfl⟩ := run_get_eq_ok.1 got
  have here : scene.player.get? playerSlot = some own := Inventory.read_eq_ok_iff.1 (run_ofExcept_eq_ok.1 read).1
  have inside := Inventory.get?_isSome_iff.1 (Option.isSome_iff_exists.2 ⟨own, here⟩)
  omega

/-- **Minimal outcomes.** Whatever its routing, a menu with the standard rule names only what an action changes, unless the
action is a creative write. So an outcome is empty exactly when it leaves the scene and throws nothing. There is an outcome
for every action but a swap with a hotbar slot that does not exist. -/
theorem outcome_minimal (standard : menu.rule = .standard) (routes : menu.Routes scene)
    (own : scene.player.kind = .player) (inside : ∀ slot ∈ a.slots, slot < scene.slotCount)
    (moves : ∀ slot s, a ≠ .creativeSet slot s) :
    (∀ o, menu.process scene a = .ok o → o.Minimal scene ∧
      (o.isEmpty ↔ o.apply.run scene = .ok ⟨⟩ scene ∧ o.thrown = [])) ∧
    ((∀ hotbar slot, a = .hotbarSwap hotbar slot → PlayerLayout.hotbarSlot hotbar < scene.player.slotCount) →
      ∃ o, menu.process scene a = .ok o) := by
  have answers (key : ∀ hotbar slot, a = .hotbarSwap hotbar slot →
      PlayerLayout.hotbarSlot hotbar < scene.player.slotCount) :
      ∃ d, (menu.perform a).run { scene } = .ok ⟨⟩ d ∧ d.Edits scene (menu.Touches scene a) a.movesCursor a.throws := by
    obtain ⟨⟨⟩, d, run, edits⟩ := perform_edits standard routes own inside moves key
    exact ⟨d, run, edits⟩
  constructor
  · intro o processed
    have key : ∀ hotbar slot, a = .hotbarSwap hotbar slot →
        PlayerLayout.hotbarSlot hotbar < scene.player.slotCount := by
      rintro hotbar slot rfl
      by_contra outside
      unfold process at processed
      split at processed
      · next run => exact swapWithPlayer_faults (Nat.le_of_not_lt outside) run
      · cases processed
    obtain ⟨d, run, edits⟩ := answers key
    obtain ⟨answer, applied⟩ := process_of_run run edits.same edits.sound
    rw [answer] at processed
    cases processed
    refine ⟨edits.minimal, edits.isEmpty_iff.trans (and_congr_left fun _ => ?_)⟩
    rw [applied]
    exact ⟨fun same => by rw [same], fun same => by injection same⟩
  · intro key
    obtain ⟨d, run, edits⟩ := answers key
    exact ⟨d.outcome, (process_of_run run edits.same edits.sound).1⟩

/-- A menu may name slots again and again, and still none of what it collects from them is told twice. -/
theorem outcome_minimal_repeating :
    let menu : Menu := { shiftSlots := fun _ _ _ => [3, 3, 0], collectSlots := fun _ _ _ => [1, 2, 1, 2] }
    let hopper := ((Inventory.empty .hopper).set 1 (.of .egg 4 none)).set 2 (.of .stone 9 none)
    let scene : Scene := { player := .empty .player, container := some hopper, cursor := .of .egg 9 none }
    ∃ o, menu.process scene (.collect 1) = .ok o ∧ o.Minimal scene ∧
      (o.isEmpty ↔ o.apply.run scene = .ok ⟨⟩ scene ∧ o.thrown = []) := by
  intro menu hopper scene
  have standard : menu.rule = .standard := rfl
  have routes : menu.Routes scene :=
    ⟨fun _ _ _ _ => (by decide : ∀ i ∈ [3, 3, 0], i < 41), fun _ _ _ _ => (by decide : ∀ i ∈ [1, 2, 1, 2], i < 41)⟩
  obtain ⟨minimal, answers⟩ := outcome_minimal (a := .collect 1) standard routes rfl (by decide) nofun
  obtain ⟨o, answer⟩ := answers nofun
  exact ⟨o, answer, minimal o answer⟩

end Menu

end InventoryClicks
