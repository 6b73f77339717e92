import InventoryClicks.Proofs.Balance
import InventoryClicks.Proofs.Menu

/-!
# Processed outcomes

What a menu makes of an allowed action: an outcome that fits the scene, throws one stack at most, and, unless the
action is creative, gains what it throws (`Menu.process_settles`). The menus that inventories come with route stacks
inside of the window (`Menu.routes_ofKind`), so all of this holds of them.
-/

namespace InventoryClicks

/-- An outcome that can be applied to the scene and throws one stack at most. -/
structure Outcome.Settles (o : Outcome) (scene : Scene) : Prop where
  fits : o.Fits scene.toWindow
  drops : o.dropped.length ≤ 1

namespace Draft

/-- The draft that a menu begins with. -/
theorem sound_start (scene : Scene) : ({ scene } : Draft).Sound := by
  intro c s staged
  cases c <;> cases staged

theorem balance_start (w : Weight) (scene : Scene) : ({ scene } : Draft).balance w = scene.weight w := by
  have none_gained : ({} : Outcome).gained w scene = 0 := by
    have changes : (∅ : NatMap Stack).entries = [] := rfl
    simp [Outcome.gained, Inventory.gained, changes]
  have view : ({ scene } : Draft).view = scene.overwrite {} := rfl
  have drops : ({ scene } : Draft).outcome.dropped = [] := rfl
  simp only [balance, view, drops, List.map_nil, List.sum_nil]
  rw [Scene.weight_overwrite (sound_start scene).fits]
  simp [none_gained]

/-- The balance of a draft is that of its scene and what its outcome gains and throws. -/
theorem Sound.balance_eq {d : Draft} (sound : d.Sound) (w : Weight) :
    d.balance w = d.scene.weight w + d.outcome.gained w d.scene + d.outcome.thrownWeight w := by
  unfold balance view
  rw [Scene.weight_overwrite sound.fits, Outcome.thrownWeight_eq]

end Draft

namespace Menu

variable {menu : Menu} {scene : Scene}

/-- **Processing.** A menu with an honest rule makes an outcome of every allowed action. -/
theorem process_settles {w : Weight} {mode : GameMode} {a : Action} (honest : menu.rule.Honest)
    (respects : menu.rule.Respects w) (routes : menu.Routes scene) (own : scene.player.kind = .player)
    (allowed : a.Allowed scene.slotCount mode) :
    ∃ o, menu.process scene a = .ok o ∧ o.Settles scene ∧
      (a.isCreative = false → o.gained w scene = -o.thrownWeight w) := by
  obtain ⟨⟨⟩, d, run, more, trades⟩ :=
    perform_ends (d := { scene }) honest respects routes (Draft.sound_start scene) own allowed
  have same : d.scene = scene := more.scene
  refine ⟨d.outcome, by simp only [process, run], ⟨?_, ?_⟩, fun played => ?_⟩
  · rw [← same]
    exact more.sound.fits
  · exact more.drops
  · have kept := (trades played).balance
    rw [Draft.balance_start, more.sound.balance_eq, same] at kept
    omega

theorem lt_of_mem_playerShift (d : Draft) (s : Stack) (slot i : Nat) (h : i ∈ Routing.playerShift d s slot) : i < 46 := by
  have worn : ∀ i ∈ (s.material.equipment?.bind PlayerLayout.equipmentSlot?).toList, i < 46 := by
    rcases s.material.equipment? with _ | e
    · simp
    · cases e <;> decide
  have storage : ∀ i ∈ (if slot ∈ PlayerLayout.storage then [] else PlayerLayout.storage), i < 46 := by
    intro i mem
    split at mem
    · cases mem
    · exact (by decide : ∀ i ∈ PlayerLayout.storage, i < 46) i mem
  have hotbar : ∀ i ∈ (if slot ∈ PlayerLayout.hotbar then [] else PlayerLayout.hotbar), i < 46 := by
    intro i mem
    split at mem
    · cases mem
    · exact (by decide : ∀ i ∈ PlayerLayout.hotbar, i < 46) i mem
  unfold Routing.playerShift at h
  have either : i ∈ ((s.material.equipment?.bind PlayerLayout.equipmentSlot?).toList.filter (· != slot)) ++
      (if slot ∈ PlayerLayout.storage then [] else PlayerLayout.storage) ++
      (if slot ∈ PlayerLayout.hotbar then [] else PlayerLayout.hotbar) := by
    simp only at h
    split at h
    · exact List.mem_reverse.1 h
    · exact h
  rcases List.mem_append.1 either with mem | mem
  · rcases List.mem_append.1 mem with mem | mem
    · exact worn i (List.mem_filter.1 mem).1
    · exact storage i mem
  · exact hotbar i mem

theorem routes_player (large : 46 ≤ scene.slotCount) : player.Routes scene where
  shift d s slot _ i mem := Nat.lt_of_lt_of_le (lt_of_mem_playerShift d s slot i mem) large
  collect d s slot _ i mem := by
    have below : ∀ i ∈ PlayerLayout.craftGrid ++ PlayerLayout.armor ++ PlayerLayout.storage ++ PlayerLayout.hotbar ++
        [PlayerLayout.offhand], i < 46 := by decide
    exact Nat.lt_of_lt_of_le (below i mem) large

section

variable {c : Inventory} (open_ : scene.container = some c)

include open_

theorem slotCount_open : scene.slotCount = PlayerLayout.mainSize + c.slotCount := by
  rw [Window.slotCount, open_]

theorem clickedSize_open {d : Draft} (same : d.scene = scene) : d.clickedSize = c.slotCount := by
  rw [Draft.clickedSize, same, Window.clicked, open_, Option.getD_some]

theorem containerCollect_open {d : Draft} (same : d.scene = scene) (s : Stack) (slot i : Nat)
    (mem : i ∈ Routing.containerCollect d s slot) : i < scene.slotCount := by
  unfold Routing.containerCollect at mem
  rw [clickedSize_open open_ same, List.mem_range] at mem
  rw [slotCount_open open_]
  unfold PlayerLayout.mainSize at mem ⊢
  omega

theorem routes_container : container.Routes scene where
  shift d s slot same i mem := by
    change i ∈ Routing.containerShift d s slot at mem
    unfold Routing.containerShift at mem
    rw [clickedSize_open open_ same] at mem
    rw [slotCount_open open_]
    unfold PlayerLayout.mainSize at mem ⊢
    split at mem
    · rw [List.mem_range] at mem
      omega
    · rw [List.mem_range'_1] at mem
      omega
  collect d s slot same i mem := containerCollect_open open_ same s slot i mem

theorem routes_furnace : furnace.Routes scene where
  shift d s slot same i mem := by
    change i ∈ Routing.furnaceShift d s slot at mem
    unfold Routing.furnaceShift at mem
    simp only [clickedSize_open open_ same] at mem
    rw [slotCount_open open_]
    unfold PlayerLayout.mainSize at mem ⊢
    split at mem
    · rw [List.mem_range'_1] at mem
      omega
    · split at mem <;> rw [List.mem_range'_1] at mem <;> omega
  collect d s slot same i mem := containerCollect_open open_ same s slot i mem

/-- The menu of an open inventory. -/
theorem routes_ofKind : (ofKind c.kind).Routes scene := by
  unfold ofKind
  split
  · next kind =>
    apply routes_player
    rw [slotCount_open open_, Inventory.slotCount, kind]
    decide
  · exact routes_furnace open_
  · exact routes_furnace open_
  · exact routes_furnace open_
  · exact routes_container open_

end

theorem rule_ofKind (kind : Inventory.Kind) : (ofKind kind).rule = .standard := by
  cases kind <;> rfl

end Menu

end InventoryClicks
