import InventoryClicks.Proofs.Safety
import InventoryClicks.Proofs.Unhooked

/-!
# Honest menus are never rejected

A menu may route stacks along any slots of the window, over full ones and through the clicked slot again, and its rule may
hold another limit or be lax about the data of stacks. As long as the rule counts items as they are, no item of any
material is made or lost, so the outcome passes the check in every mode and is applied (`Menu.accepted`).
-/

namespace InventoryClicks

/-- Items of the material count, whatever their data. -/
def Weight.ofMaterial (material : Material) : Weight := fun m _ => if m = material then 1 else 0

namespace StackingRule

variable {rule : StackingRule}

/-- The standard rule, or one that differs from it in its limit or in its notion of like stacks. -/
inductive Variant : StackingRule → Prop where
  | standard : Variant .standard
  | limited (limit : Int) (lo : 0 ≤ limit) (hi : limit ≤ 127) : Variant (StackingRule.standard.limited limit)
  | byMaterial : Variant StackingRule.standard.byMaterial

theorem Honest.limited (honest : rule.Honest) {limit : Int} (lo : 0 ≤ limit) (hi : limit ≤ 127) :
    (rule.limited limit).Honest where
  amount := honest.amount
  withAmount := honest.withAmount
  maxSize_nonneg _ := lo
  maxSize_le _ := hi

theorem Honest.byMaterial (honest : rule.Honest) : rule.byMaterial.Honest where
  amount := honest.amount
  withAmount := honest.withAmount
  maxSize_nonneg := honest.maxSize_nonneg
  maxSize_le := honest.maxSize_le

/-- A stack that is merged by its material alone may change its data, but not what it weighs by material. -/
theorem respects_byMaterial {w : Weight} (blind : ∀ m d d', w m d = w m d') : rule.byMaterial.Respects w := by
  intro a b stack
  have same : a.material = b.material := by simpa [byMaterial] using stack
  rw [same]
  exact blind b.material a.data b.data

theorem Variant.honest (variant : Variant rule) : rule.Honest := by
  cases variant with
  | standard => exact honest_standard
  | limited limit lo hi => exact honest_standard.limited lo hi
  | byMaterial => exact honest_standard.byMaterial

theorem Variant.respects (variant : Variant rule) {w : Weight} (blind : ∀ m d d', w m d = w m d') : rule.Respects w := by
  cases variant with
  | standard => exact respects_standard w
  | limited limit lo hi => exact respects_standard w
  | byMaterial => exact respects_byMaterial blind

end StackingRule

/-- Every slot that the action is about exists, also the one that a key of the hotbar stands for. -/
structure Action.Within (a : Action) (w : Window) : Prop where
  slots : ∀ slot ∈ a.slots, slot < w.slotCount
  hotbar : ∀ hotbar slot, a = .hotbarSwap hotbar slot → PlayerLayout.hotbarSlot hotbar < w.player.slotCount

/-- An outcome that gains what it throws passes the check. -/
theorem Outcome.Settles.imbalance?_eq_none {o : Outcome} {scene : Scene} (settles : o.Settles scene)
    (gains : o.gained .items scene = -o.thrownWeight .items) : o.imbalance? scene = .ok none := by
  obtain ⟨delta, count⟩ := delta_total settles.fits
  obtain ⟨dropped, drops⟩ := droppedCount_total settles.drops
  have gained := eq_of_delta count
  have thrown := eq_of_foldlM_count drops
  have balanced : delta = -dropped := by
    rw [gained, gains, thrownWeight_eq, thrown]
    omega
  unfold imbalance?
  simp only [bind, Except.bind, count, drops, if_pos balanced]
  rfl

namespace Menu

variable {menu : Menu} {scene : Scene}

/-- The tenth key of the hotbar would be the offhand. -/
theorem process_settles_within {w : Weight} {a : Action} (honest : menu.rule.Honest) (respects : menu.rule.Respects w)
    (routes : menu.Routes scene) (own : scene.player.kind = .player) (played : a.isCreative = false)
    (within : a.Within scene.toWindow) :
    ∃ o, menu.process scene a = .ok o ∧ o.Settles scene ∧ o.gained w scene = -o.thrownWeight w := by
  have allowed {a : Action} (played : a.isCreative = false) (slots : ∀ slot ∈ a.slots, slot < scene.slotCount)
      (hotbar : a.badHotbar? = none) : a.Allowed scene.slotCount .survival :=
    ⟨fun creative => by simp [played] at creative, hotbar, slots⟩
  have settles {a : Action} (played : a.isCreative = false) (ok : a.Allowed scene.slotCount .survival) :
      ∃ o, menu.process scene a = .ok o ∧ o.Settles scene ∧ o.gained w scene = -o.thrownWeight w := by
    obtain ⟨o, process, settles, gains⟩ := process_settles honest respects routes own ok
    exact ⟨o, process, settles, gains played⟩
  cases a with
  | hotbarSwap hotbar slot =>
    have last : hotbar < 10 := by
      have inside := within.hotbar hotbar slot rfl
      rw [Inventory.slotCount, own] at inside
      simp only [PlayerLayout.hotbarSlot, PlayerLayout.hotbarStart, Inventory.Kind.slotCount] at inside
      omega
    by_cases key : hotbar < 9
    · exact settles played (allowed played within.slots (by simp [Action.badHotbar?, key]))
    · have tenth : hotbar = 9 := by omega
      subst tenth
      have same : menu.process scene (.hotbarSwap 9 slot) = menu.process scene (.offhandSwap slot) := rfl
      rw [same]
      exact settles rfl (allowed rfl within.slots rfl)
  | _ => exact settles played (allowed played within.slots rfl)

/-- **Acceptance.** Under a variant of the standard rule and with any routing inside of the window, an action that is not
creative is processed to an outcome that keeps the items of every material, counting those that it drops. The outcome is
accepted in every mode, and a turn without hooks applies it. -/
theorem accepted (variant : menu.rule.Variant) (routes : menu.Routes scene) (own : scene.player.kind = .player)
    {a : Action} (played : a.isCreative = false) (within : a.Within scene.toWindow) :
    ∃ o, menu.process scene a = .ok o ∧
      (∀ material, (scene.overwrite o).weight (.ofMaterial material) +
        (o.dropped.map (·.weight (.ofMaterial material))).sum = scene.weight (.ofMaterial material)) ∧
      o.flaw? scene.toWindow = none ∧ o.imbalance? scene = .ok none ∧
      (∀ setup who, Turn.outcomeFlaw? setup who scene o o = .ok none) ∧
      ∀ setup who (t : Turn), setup.hooks = {} → t.scene = scene → (Turn.run setup menu.process who a).outcome t =
        (.ok (some o), t.after (scene.overwrite o)
          { effects := o.thrown.map (.drop who.player) ++ [.applied who.player a o] }) := by
  have keeps (w : Weight) (blind : ∀ m d d', w m d = w m d') :=
    process_settles_within variant.honest (variant.respects blind) routes own played within
  obtain ⟨o, processed, settles, gains⟩ := keeps .items fun _ _ _ => rfl
  have flawless : o.flaw? scene.toWindow = none := Outcome.flaw?_eq_none_iff.2 settles.fits
  have balanced : o.imbalance? scene = .ok none := settles.imbalance?_eq_none gains
  have passes (setup : Setup) (who : Clicker) : Turn.outcomeFlaw? setup who scene o o = .ok none := by
    unfold Turn.outcomeFlaw?
    simp only [flawless, balanced]
    split <;> rfl
  refine ⟨o, processed, ?_, flawless, balanced, passes, ?_⟩
  · intro material
    obtain ⟨o', processed', -, gains'⟩ := keeps (.ofMaterial material) fun _ _ _ => rfl
    rw [processed] at processed'
    cases processed'
    rw [Scene.weight_overwrite settles.fits, gains', Outcome.thrownWeight_eq]
    omega
  · rintro setup who t unhooked rfl
    have ruled : Turn.judge setup menu who t.scene (.ok (some a)) = .applied a o := by
      simp only [Turn.judge, processed, passes]
    have run := Turn.outcome_run_unhooked unhooked menu who a t
    rw [ruled] at run
    exact run

/-- More eggs than fit a slot go past the clicked slot and twice to one that holds eggs with other data. -/
theorem accepted_lax :
    let menu : Menu :=
      { shiftSlots := fun _ _ _ => [0, 3, 3, 40, 0], collectSlots := fun _ _ _ => [], rule := .byMaterial .standard }
    let hopper := ((Inventory.empty .hopper).set 0 (.of .egg 100 (some [1]))).set 3 (.of .egg 5 none)
    let scene : Scene := { player := .empty .player, container := some hopper }
    let eggs (count : Int) : Stack := .of .egg count (some [1])
    let o : Outcome :=
      { changes := (NatMap.empty.insert 0 (eggs 73)).insert 3 (eggs 16)
        playerChanges := NatMap.empty.insert 44 (eggs 16) }
    menu.process scene (.shift false 0) = .ok o ∧
      (scene.overwrite o).weight (.ofMaterial .egg) = scene.weight (.ofMaterial .egg) ∧ o.imbalance? scene = .ok none := by
  intro menu hopper scene eggs o
  have inside : ∀ i ∈ [0, 3, 3, 40, 0], i < scene.slotCount := by decide
  have routes : menu.Routes scene := by
    constructor
    · exact fun _ _ _ _ => inside
    · exact fun _ _ _ _ _ mem => by cases mem
  have within : (Action.shift false 0).Within scene.toWindow := ⟨by decide, by simp⟩
  have made : menu.process scene (.shift false 0) = .ok o := by decide
  obtain ⟨o', processed, kept, -, balanced, -⟩ := accepted .byMaterial routes rfl rfl within
  rw [made] at processed
  cases processed
  have thrown : o.dropped = [] := rfl
  have same := kept .egg
  rw [thrown] at same
  exact ⟨made, by simpa using same, balanced⟩

/-- Keys past the hotbar and the offhand stand for no slot at all. The action is not creative, and the slot that it names is
one of the window, but no outcome is made of it. -/
theorem no_outcome_past_offhand :
    let scene : Scene := { player := (Inventory.empty .player).set 36 (.single .stone) }
    let a : Action := .hotbarSwap 200 36
    player.rule.Variant ∧ player.Routes scene ∧ scene.player.kind = .player ∧ a.isCreative = false ∧
      (∀ slot ∈ a.slots, slot < scene.slotCount) ∧ player.process scene a = .error .readOutside ∧
      ¬ ∃ o, player.process scene a = .ok o := by
  intro scene a
  have stops : player.process scene a = .error .readOutside := by decide
  refine ⟨.standard, routes_player (by decide), rfl, rfl, by decide, stops, ?_⟩
  rw [stops]
  simp

end Menu

end InventoryClicks
