import Mathlib.Logic.Equiv.Basic
import InventoryClicks.Proofs.Edits

/-!
# Exchanges undo themselves

Swaps with the hotbar or the offhand, and left clicks that merge nothing, exchange the stacks of two places
(`Scene.Exchanged`), each in a way of its own: a swap may find that both places are one cell, and a left click may put down,
pick up or swap. The same action then takes the stacks back to where they were (`Menu.exchange_undone`).
-/

namespace InventoryClicks

open StepM

/-- Where a scene has a stack. -/
inductive Place where
  | cell (c : Cell)
  | cursor
  deriving DecidableEq

theorem StackingRule.canStack_standard_comm (a b : Stack) : standard.canStack a b = standard.canStack b a := by
  rw [Bool.eq_iff_iff, canStack_standard_iff, canStack_standard_iff, eq_comm, eq_comm (a := a.data)]

/-- Stacks that are not merged are only like each other if both are empty. -/
theorem StackingRule.eq_of_canStack {a b : Stack}
    (apart : a.isEmpty = false → b.isEmpty = false → standard.canStack a b = false)
    (like : standard.canStack a b = true) : a = b := by
  have material := (canStack_standard_iff.1 like).1
  have air {s : Stack} (empty : s.isEmpty = true) : s.material = .air := by rw [Stack.isEmpty_iff.1 empty]; rfl
  cases left : a.isEmpty <;> cases right : b.isEmpty
  · rw [apart left right] at like
    cases like
  · exact absurd (material.trans (air right)) (Stack.material_ne_air left)
  · exact absurd (material.symm.trans (air left)) (Stack.material_ne_air right)
  · rw [Stack.isEmpty_iff.1 left, Stack.isEmpty_iff.1 right]

namespace Window

/-- A window slot is the same cell of all windows of a size. -/
theorem cell_congr {w w' : Window} (sizes : w'.container.map (·.kind) = w.container.map (·.kind)) (slot : Nat) :
    w'.cell slot = w.cell slot := by
  unfold cell
  rcases open_ : w.container with _ | c
  · rw [open_] at sizes
    rw [Option.map_eq_none_iff.1 sizes]
  · rw [open_] at sizes
    obtain ⟨c', open', kind⟩ := Option.map_eq_some_iff.1 sizes
    simp only [open', Inventory.slotCount, kind]
    rfl

end Window

namespace Scene

/-- The stack in a place, if the scene has the place. -/
def stack? (scene : Scene) : Place → Option Stack
  | .cell c => scene.at? c
  | .cursor => some scene.cursor

/-- Scenes around inventories of the same kinds are what they hold in every place. -/
theorem ext_stack? {a b : Scene} (player : a.player.kind = b.player.kind)
    (container : a.container.map (·.kind) = b.container.map (·.kind)) (same : ∀ p, a.stack? p = b.stack? p) : a = b := by
  have cursor : a.cursor = b.cursor := Option.some.inj (same .cursor)
  have mine : a.player = b.player := Inventory.ext_get? player fun i => same (.cell (.player i))
  have theirs (i : Nat) : a.container.bind (·.get? i) = b.container.bind (·.get? i) := same (.cell (.container i))
  obtain ⟨⟨p, c⟩, s⟩ := a
  obtain ⟨⟨p', c'⟩, s'⟩ := b
  cases cursor
  cases mine
  congr 2
  rcases c with _ | c <;> rcases c' with _ | c'
  · rfl
  · cases container
  · cases container
  · exact congrArg some (Inventory.ext_get? (Option.some.inj container) theirs)

/-- The scene with the stacks of two places exchanged. They may be one place. -/
structure Exchanged (p q : Place) (scene after : Scene) : Prop where
  player : after.player.kind = scene.player.kind
  container : after.container.map (·.kind) = scene.container.map (·.kind)
  stack : ∀ r, after.stack? r = scene.stack? (Equiv.swap p q r)

namespace Exchanged

variable {scene after last : Scene} {p q : Place}

theorem of_same (same : scene.stack? p = scene.stack? q) : scene.Exchanged p q scene where
  player := rfl
  container := rfl
  stack r := by
    rw [Equiv.swap_apply_def]
    split
    · next here => rw [here, same]
    · split
      · next here => rw [here, same]
      · rfl

variable (exchanged : scene.Exchanged p q after)

include exchanged

theorem undone (again : after.Exchanged p q last) : last = scene := by
  apply ext_stack?
  · rw [again.player, exchanged.player]
  · rw [again.container, exchanged.container]
  · intro r
    rw [again.stack, exchanged.stack, Equiv.swap_apply_self]

theorem slotCount : after.slotCount = scene.slotCount := by
  have same : scene.SameBut (fun _ => True) after :=
    ⟨exchanged.player, exchanged.container, fun _ untouched => absurd trivial untouched⟩
  exact same.slotCount

theorem left : after.stack? p = scene.stack? q := by rw [exchanged.stack, Equiv.swap_apply_left]

theorem right : after.stack? q = scene.stack? p := by rw [exchanged.stack, Equiv.swap_apply_right]

end Exchanged

end Scene

namespace Menu

variable {menu : Menu} {scene after : Scene} {a : Action} {p q : Place} {slot : Nat}

/-- The actions that exchange the stacks of two places. -/
inductive Exchanges (scene : Scene) : Action → Place → Place → Prop
  | hotbar {hotbar slot : Nat} (key : hotbar < 9) (inside : slot < scene.slotCount) :
    Exchanges scene (.hotbarSwap hotbar slot) (.cell (scene.cell slot)) (.cell (.player (PlayerLayout.hotbarSlot hotbar)))
  | offhand {slot : Nat} (inside : slot < scene.slotCount) :
    Exchanges scene (.offhandSwap slot) (.cell (scene.cell slot)) (.cell (.player PlayerLayout.offhand))
  /-- Items are not merged, and both stacks fit a slot. -/
  | left {slot : Nat} (inside : slot < scene.slotCount)
      (apart : scene.cursor.isEmpty = false → (scene.stackAt slot).isEmpty = false →
        StackingRule.standard.canStack scene.cursor (scene.stackAt slot) = false)
      (cursor : scene.cursor.count ≤ scene.cursor.material.maxStack)
      (clicked : (scene.stackAt slot).count ≤ (scene.stackAt slot).material.maxStack) :
    Exchanges scene (.click .left slot) (.cell (scene.cell slot)) .cursor

/-- After an exchange the same action is one again, of the same places. -/
theorem Exchanges.again (own : scene.player.kind = .player) (exchanges : Exchanges scene a p q)
    (exchanged : scene.Exchanged p q after) : Exchanges after a p q := by
  have cell (slot : Nat) := Window.cell_congr exchanged.container slot
  have size := exchanged.slotCount
  cases exchanges with
  | hotbar key inside => exact cell _ ▸ .hotbar key (size ▸ inside)
  | offhand inside => exact cell _ ▸ .offhand (size ▸ inside)
  | @left slot inside apart cursor clicked =>
    have live := Window.at?_cell own inside
    have held : after.cursor = scene.stackAt slot := Option.some.inj (exchanged.right.trans live)
    have shown : after.stackAt slot = scene.cursor := by
      have there : after.at? (scene.cell slot) = some scene.cursor := exchanged.left
      rw [Window.stackAt, cell, there, Option.getD_some]
    refine cell slot ▸ .left (size ▸ inside) ?_ ?_ ?_
    · rw [held, shown, StackingRule.canStack_standard_comm]
      exact fun filled filled' => apart filled' filled
    · rwa [held]
    · rwa [shown]

/-- The draft shows the stacks of two places exchanged. -/
def LeavesExchanged (scene : Scene) (p q : Place) (d : Draft) : Prop :=
  d.scene = scene ∧ d.Sound ∧ scene.Exchanged p q d.view

theorem leavesExchanged_of_sound {d : Draft} (same : d.scene = scene) (sound : d.Sound)
    (stack : ∀ r, d.view.stack? r = scene.stack? (Equiv.swap p q r)) : LeavesExchanged scene p q d := by
  have kinds : scene.SameBut (fun _ => True) d.view := sound.sameBut same fun _ _ _ => trivial
  exact ⟨same, sound, kinds.player, kinds.container, stack⟩

theorem leavesExchanged_start (same : scene.stack? p = scene.stack? q) : LeavesExchanged scene p q { scene } :=
  ⟨rfl, Draft.sound_start scene, by rw [Draft.view_start]; exact .of_same same⟩

section

variable (own : scene.player.kind = .player) (inside : slot < scene.slotCount)

include own inside

theorem exchangeCursor_exchanges : Ends (exchangeCursor slot scene.cursor (scene.stackAt slot)) { scene } fun _ =>
    LeavesExchanged scene (.cell (scene.cell slot)) .cursor := by
  have sound := Draft.sound_start scene
  have live := Window.at?_cell own inside
  have has : scene.Has (scene.cell slot) := Option.isSome_iff_exists.2 ⟨_, live⟩
  have written := sound.at?_view_writeCell has scene.cursor
  unfold exchangeCursor
  apply ends_bind_of_run (DraftM.run_write (sound.shows_cell own inside) scene.cursor)
  refine ends_of_run (DraftM.run_setCursor _ _) (leavesExchanged_of_sound ?_ (sound.writeCell has _) fun r => ?_)
  · exact Draft.scene_writeCell _ _ _
  cases r with
  | cursor => rw [Equiv.swap_apply_right]; exact live.symm
  | cell k =>
    refine (written k).trans ?_
    by_cases here : k = scene.cell slot
    · rw [if_pos here, here, Equiv.swap_apply_left]
      rfl
    · have unmoved : Equiv.swap (.cell (scene.cell slot)) .cursor (Place.cell k) = .cell k :=
        Equiv.swap_apply_of_ne_of_ne (by simpa using here) nofun
      rw [if_neg here, unmoved, Draft.view_start]
      rfl

theorem swapWithPlayer_exchanges {k : Nat} (mine : k < scene.player.slotCount) :
    Ends (swapWithPlayer slot k) { scene } fun _ =>
      LeavesExchanged scene (.cell (scene.cell slot)) (.cell (.player k)) := by
  have sound := Draft.sound_start scene
  have live := Window.at?_cell own inside
  have has : scene.Has (scene.cell slot) := Option.isSome_iff_exists.2 ⟨_, live⟩
  have has' : scene.Has (.player k) := Inventory.get?_isSome_iff.2 mine
  obtain ⟨held, live'⟩ := Option.isSome_iff_exists.1 has'
  have sound' := sound.writeCell has' (scene.stackAt slot)
  have written (c : Cell) := (sound'.at?_view_writeCell has held c).trans
    (congrArg _ (sound.at?_view_writeCell has' (scene.stackAt slot) c))
  unfold swapWithPlayer
  apply ends_bind_of_run (DraftM.run_readPlayer sound (by rwa [Draft.view_start]))
  apply ends_bind_of_read own inside
  split
  · next same => exact ends_pure (leavesExchanged_start (live.trans (same ▸ live'.symm)))
  apply ends_bind_of_run (DraftM.run_writePlayer _)
  refine ends_of_run (DraftM.run_write (sound'.shows_cell own inside) held)
    (leavesExchanged_of_sound ?_ (sound'.writeCell has _) fun r => ?_)
  · exact Draft.scene_writeCell _ _ _
  cases r with
  | cursor =>
    have unmoved : Equiv.swap (.cell (scene.cell slot)) (.cell (.player k)) Place.cursor = .cursor :=
      Equiv.swap_apply_of_ne_of_ne nofun nofun
    have kept := Draft.cursor_writeCell { scene } (scene.stackAt slot) (.player k)
    rw [unmoved]
    exact congrArg some ((Draft.cursor_writeCell _ held _).trans kept)
  | cell c =>
    refine (written c).trans ?_
    rw [Equiv.swap_apply_def, Draft.view_start]
    simp only [Place.cell.injEq]
    split
    · exact live'.symm
    · split
      · exact live.symm
      · rfl

theorem leftClick_exchanges
    (apart : scene.cursor.isEmpty = false → (scene.stackAt slot).isEmpty = false →
      StackingRule.standard.canStack scene.cursor (scene.stackAt slot) = false)
    (size : scene.cursor.count ≤ scene.cursor.material.maxStack) :
    Ends (leftClick .standard slot) { scene } fun _ => LeavesExchanged scene (.cell (scene.cell slot)) .cursor := by
  have exchange := exchangeCursor_exchanges own inside
  have live := Window.at?_cell own inside
  have cursor : ({ scene } : Draft).cursor = scene.cursor := rfl
  unfold leftClick
  apply ends_bind_of_run (DraftM.run_cursor _)
  apply ends_bind_of_read own inside
  rw [cursor, Operator.fill_unlimited]
  apply ends_bind_of_run (run_ofExcept_ok _ _)
  by_cases none : min scene.cursor.count ((scene.stackAt slot).room scene.cursor) = 0
  · -- nothing of the cursor goes into the slot, so the stacks change places unless they are equal
    rw [if_pos none]
    simp only
    split
    · next like =>
      have same : scene.cursor = scene.stackAt slot := StackingRule.eq_of_canStack apart like
      exact ends_pure (leavesExchanged_start (live.trans (same ▸ rfl)))
    · exact exchange
  · -- the slot has room because it is empty, so it takes the whole cursor and leaves it empty
    have filled : scene.cursor.isEmpty = false := Stack.isEmpty_eq_false_iff.2 (by omega)
    have empty : (scene.stackAt slot).isEmpty := by
      by_contra held
      rw [Bool.not_eq_true] at held
      have other := apart filled held
      rw [Stack.room_of_other held] at none
      · omega
      · intro holds
        rw [StackingRule.canStack_standard_iff.2 ⟨holds.2.1.symm, holds.2.2.symm⟩] at other
        cases other
    have room := Stack.room_of_isEmpty filled empty
    have all : min scene.cursor.count ((scene.stackAt slot).room scene.cursor) = scene.cursor.count := by omega
    rw [if_neg none, all, Stack.grown_of_isEmpty empty, Stack.withCount_count, Nat.sub_self]
    have left : scene.cursor.withCount ((0 : Nat) : Int) = scene.stackAt slot := by
      rw [Stack.isEmpty_iff.1 empty]
      exact Stack.withCount_zero _
    simp only [left]
    exact exchange

end

section

variable (standard : menu.rule = .standard) (own : scene.player.kind = .player) (exchanges : Exchanges scene a p q)

include standard own exchanges

theorem perform_exchanges : Ends (menu.perform a) { scene } fun _ => LeavesExchanged scene p q := by
  cases exchanges with
  | hotbar key inside =>
    refine swapWithPlayer_exchanges own inside ?_
    rw [Inventory.slotCount, own]
    unfold PlayerLayout.hotbarSlot PlayerLayout.hotbarStart
    simp only [Inventory.Kind.slotCount]
    omega
  | offhand inside => exact swapWithPlayer_exchanges own inside (by rw [Inventory.slotCount, own]; decide)
  | left inside apart cursor =>
    have click := leftClick_exchanges own inside apart cursor
    rwa [← standard] at click

/-- One exchange. -/
theorem process_exchanges : ∃ o after, menu.process scene a = .ok o ∧ o.apply.run scene = .ok ⟨⟩ after ∧
    scene.Exchanged p q after := by
  obtain ⟨⟨⟩, d, run, same, sound, exchanged⟩ := perform_exchanges standard own exchanges
  obtain ⟨answer, applied⟩ := process_of_run run same sound
  exact ⟨d.outcome, d.view, answer, applied, exchanged⟩

/-- **Exchanges undo themselves.** A swap with the hotbar or the offhand, and a left click that merges nothing, exchange the
stacks of two places; the same action again leaves the scene as it was before both. -/
theorem exchange_undone : ∃ o after o', menu.process scene a = .ok o ∧ o.apply.run scene = .ok ⟨⟩ after ∧
    scene.Exchanged p q after ∧ menu.process after a = .ok o' ∧ o'.apply.run after = .ok ⟨⟩ scene := by
  obtain ⟨o, after, answer, applied, exchanged⟩ := process_exchanges standard own exchanges
  obtain ⟨o', last, answer', applied', exchanged'⟩ :=
    process_exchanges standard (exchanged.player.trans own) (exchanges.again own exchanged)
  have restored : last = scene := exchanged.undone exchanged'
  exact ⟨o, after, o', answer, applied, exchanged, answer', restored ▸ applied'⟩

end

/-- A hopper gives the cursor its eggs for a full stack of stone, and gets them back. -/
theorem exchange_undone_hopper :
    let hopper := (Inventory.empty .hopper).set 2 (.of .egg 5 none)
    let scene : Scene := { player := .empty .player, container := some hopper, cursor := .of .stone 64 none }
    ∃ o after o', container.process scene (.click .left 2) = .ok o ∧ o.apply.run scene = .ok ⟨⟩ after ∧
      scene.Exchanged (.cell (.container 2)) .cursor after ∧
      container.process after (.click .left 2) = .ok o' ∧ o'.apply.run after = .ok ⟨⟩ scene := by
  intro hopper scene
  have own : scene.player.kind = .player := rfl
  have exchanges : Exchanges scene (.click .left 2) (.cell (.container 2)) .cursor :=
    .left (by decide) (by decide) (by decide) (by decide)
  exact exchange_undone rfl own exchanges

end Menu

end InventoryClicks
