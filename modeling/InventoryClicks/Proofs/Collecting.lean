import InventoryClicks.Proofs.Draining
import InventoryClicks.Proofs.WindowSlots

/-!
# Double clicks

A double click collects items like those on the cursor from all slots that the window names for it (`Scene.collectable`),
until the cursor holds a full stack. Stacks with room left are drained first, in order, and full ones only when all of these
are empty (`Scene.Collected`, `Menu.collect_exact`).
-/

namespace InventoryClicks

open StepM

namespace Stack

/-- There is room left for items of its own. -/
def isPartial (s : Stack) : Bool := s.count < s.material.maxStack

theorem slotPartial_standard (s incoming : Stack) : Condition.slotPartial .standard s incoming = .ok s.isPartial := by
  simp only [Condition.slotPartial, StackingRule.amount_standard, StackingRule.maxSize_standard, isPartial, bind,
    Except.bind, Int.ofNat_lt]
  rfl

theorem slotFull_standard (s incoming : Stack) : Condition.slotFull .standard s incoming = .ok !s.isPartial := by
  simp only [Condition.slotFull, StackingRule.amount_standard, StackingRule.maxSize_standard, isPartial, bind,
    Except.bind, Int.ofNat_le, ← Nat.not_lt, decide_not]
  rfl

end Stack

namespace Scene

/-- Where a double click collects from: every slot of the window but the crafting result. -/
def collectable (scene : Scene) : List Nat :=
  match scene.container with
  | none => List.range' 1 45
  | some c => List.range (c.slotCount + 36)

/-- How many items like `item` the slots hold. -/
def heldIn (scene : Scene) (item : Stack) (slots : List Nat) : Nat := ∑ i ∈ slots.toFinset, (scene.stackAt i).tally item

/-- The cursor with all that it can collect from slots. One that holds more than a full stack stays as it is. -/
def topped (scene : Scene) (slots : List Nat) : Stack :=
  scene.cursor.withCount ((max scene.cursor.count
    (min scene.cursor.material.maxStack (scene.cursor.count + scene.heldIn scene.cursor slots)) : Nat) : Int)

/-- What changes when the cursor collects from slots. -/
structure Collected (scene after : Scene) (slots : List Nat) : Prop
    extends scene.SameBut (scene.CellOf slots) after where
  cursor : after.cursor = scene.topped slots
  kept : ∑ i ∈ slots.toFinset, (after.stackAt i).count + after.cursor.count =
    ∑ i ∈ slots.toFinset, (scene.stackAt i).count + scene.cursor.count
  /-- A slot that changes held items of the type, and has lost some or all of them. -/
  lost : ∀ i ∈ slots, after.stackAt i ≠ scene.stackAt i → (scene.stackAt i).Holds scene.cursor ∧
    (after.stackAt i).count < (scene.stackAt i).count ∧
      after.stackAt i = (scene.stackAt i).withCount (after.stackAt i).count
  /-- A stack with room left loses items when those like it before it are gone. -/
  first : ∀ pre i post, slots = pre ++ i :: post → after.stackAt i ≠ scene.stackAt i → (scene.stackAt i).isPartial →
    ∀ j ∈ pre, (scene.stackAt j).Holds scene.cursor → (scene.stackAt j).isPartial → after.stackAt j = .empty
  /-- A full stack loses items when all stacks with room left are gone, and so are the full ones before it. -/
  last : ∀ pre i post, slots = pre ++ i :: post → after.stackAt i ≠ scene.stackAt i →
    (scene.stackAt i).isPartial = false →
      (∀ j ∈ slots, (scene.stackAt j).Holds scene.cursor → (scene.stackAt j).isPartial → after.stackAt j = .empty) ∧
        ∀ j ∈ pre, (scene.stackAt j).Holds scene.cursor → (scene.stackAt j).isPartial = false → after.stackAt j = .empty

variable {scene : Scene}

theorem nodup_collectable (scene : Scene) : scene.collectable.Nodup := by
  unfold collectable
  split
  · exact List.nodup_range'
  · exact List.nodup_range

theorem SameBut.collectable {touched : Cell → Prop} {after : Scene} (same : scene.SameBut touched after) :
    after.collectable = scene.collectable := by
  unfold Scene.collectable
  rcases open_ : scene.container with _ | c
  · rw [same.closed open_]
  · obtain ⟨c', open', size⟩ := same.opened open_
    rw [open']
    exact congrArg (fun n => List.range (n + 36)) size

end Scene

namespace Menu

variable {menu : Menu} {scene : Scene}

theorem Suits.collectSlots (suits : menu.Suits scene) (s : Stack) (slot : Nat) :
    menu.collectSlots { scene } s slot = scene.collectable := by
  have opened {c : Inventory} (open_ : scene.container = some c) :
      Routing.containerCollect { scene } s slot = scene.collectable := by
    rw [Routing.containerCollect, clickedSize_open open_ rfl, Scene.collectable, open_]
  cases suits with
  | player closed =>
    rw [Scene.collectable, closed]
    show PlayerLayout.craftGrid ++ PlayerLayout.armor ++ PlayerLayout.storage ++ PlayerLayout.hotbar ++
      [PlayerLayout.offhand] = List.range' 1 45
    decide
  | container open_ => exact opened open_
  | furnace open_ => exact opened open_

open Transfer Dealing

/-- Slots in the order in which they are drained. -/
def collectOrder (held : Nat → Stack) (slots : List Nat) : List Nat :=
  due Stack.isPartial held slots ++ due (fun s => !s.isPartial) held slots

/-- What slots hold when items like `item` have been collected from them. -/
def collected (held : Nat → Stack) (item : Stack) (slots : List Nat) : Nat → Stack :=
  (collecting item).after held (item.material.maxStack - item.count) (collectOrder held slots)

theorem toFinset_collectOrder (held : Nat → Stack) (slots : List Nat) :
    (collectOrder held slots).toFinset = slots.toFinset :=
  toFinset_due (fun s => by cases s.isPartial <;> simp) held slots

theorem total_collectOrder (scene : Scene) (slots : List Nat) :
    (collecting scene.cursor).total scene.stackAt (collectOrder scene.stackAt slots) =
      scene.heldIn scene.cursor slots := by
  rw [Dealing.total, toFinset_collectOrder]
  rfl

/-- A stack on which all the room is wanted is the stack itself. -/
theorem carry_collecting (item : Stack) : (collecting item).carry (item.material.maxStack - item.count) = item := by
  show item.withCount ((item.count + (_ - _) : Nat) : Int) = item
  rw [Nat.sub_self, Nat.add_zero, Stack.withCount_count]

theorem carry_topped (scene : Scene) (slots : List Nat) : (collecting scene.cursor).carry
    (scene.cursor.material.maxStack - scene.cursor.count - scene.heldIn scene.cursor slots) = scene.topped slots := by
  show scene.cursor.withCount _ = scene.cursor.withCount _
  congr 2
  omega

theorem nothing_of_topped (filled : scene.cursor.isEmpty = false) {slots : List Nat}
    (same : scene.topped slots = scene.cursor) :
    min (scene.cursor.material.maxStack - scene.cursor.count) (scene.heldIn scene.cursor slots) = 0 := by
  have size := scene.cursor.material.maxStack_le
  have count : (scene.topped slots).count = min _ 127 := Stack.count_withCount filled _
  rw [same] at count
  omega

/-- The draft that a double click ends with, if the cursor holds something. Where nothing is collected, it is the one that
it begins with. -/
theorem collectClick_ends (suits : menu.Suits scene) (own : scene.player.kind = .player)
    (filled : scene.cursor.isEmpty = false) (slot : Nat) :
    Ends (menu.collectClick slot) { scene } fun _ d => d.scene = scene ∧ d.Sound ∧ d.outcome.drops = none ∧
      scene.SameBut (scene.CellOf scene.collectable) d.view ∧
      d.view.stackAt = collected scene.stackAt scene.cursor scene.collectable ∧
      d.view.cursor = scene.topped scene.collectable ∧
      (scene.topped scene.collectable = scene.cursor → d = { scene }) := by
  have sound := Draft.sound_start scene
  have start := Draft.view_start scene
  have inside := (suits.routes own).collect { scene } scene.cursor slot rfl
  rw [suits.collectSlots] at inside
  have opens : ∀ i ∈ scene.collectable, Draft.Open scene (scene.CellOf scene.collectable) i :=
    fun i mem => Draft.open_of_mem (inside i mem) mem
  have ordered : due Stack.isPartial ({ scene } : Draft).view.stackAt scene.collectable ++
      due (fun s => !s.isPartial) ({ scene } : Draft).view.stackAt scene.collectable =
        collectOrder scene.stackAt scene.collectable := by
    rw [start]
    rfl
  have deals := Operator.collect_deals filled
  -- the second sweep looks at what the first one left, but a stack that the first one drained has no more to give
  obtain ⟨d, run, frame, look, unchanged⟩ := run_andThen_deals (Draft.shows_view { scene } own _)
    (deals.onlyIf Stack.slotPartial_standard) (deals.onlyIf Stack.slotFull_standard) opens opens (.refl sound) ordered
  simp only [start] at run look unchanged
  rw [carry_collecting, total_collectOrder, carry_topped] at run
  rw [total_collectOrder] at unchanged
  unfold collectClick
  apply ends_bind_of_run (DraftM.run_cursor _)
  have cursor : ({ scene } : Draft).cursor = scene.cursor := rfl
  rw [cursor, if_neg (by simp [filled])]
  apply ends_bind_of_run (run_get _)
  rw [suits.collectSlots, suits.rule]
  apply ends_bind_of_run (outcome_eq_ok.1 run)
  split
  · next same =>
    have idle := unchanged (nothing_of_topped filled same)
    exact ends_pure ⟨frame.scene, frame.sound, frame.drops, frame.sameBut, look, frame.view_cursor.trans same.symm,
      fun _ => idle⟩
  · next differ =>
    have others := frame.sameBut
    exact ends_of_run (DraftM.run_setCursor _ d) ⟨frame.scene, frame.sound, frame.drops,
      ⟨others.player, others.container, others.apart⟩, look, rfl, fun same => absurd same differ⟩

/-- What the slots give is on the cursor. -/
theorem sum_count_collected (filled : scene.cursor.isEmpty = false) (slots : List Nat) :
    ∑ i ∈ slots.toFinset, (collected scene.stackAt scene.cursor slots i).count + (scene.topped slots).count =
      ∑ i ∈ slots.toFinset, (scene.stackAt i).count + scene.cursor.count := by
  have size := scene.cursor.material.maxStack_le
  have count_le := scene.cursor.count_le
  have cursor : (scene.topped slots).count = min _ 127 := Stack.count_withCount filled _
  have parts : ∑ i ∈ slots.toFinset, (collecting scene.cursor).part scene.stackAt
      (scene.cursor.material.maxStack - scene.cursor.count) (collectOrder scene.stackAt slots) i =
        min (scene.cursor.material.maxStack - scene.cursor.count) (scene.heldIn scene.cursor slots) := by
    rw [← toFinset_collectOrder scene.stackAt slots, sum_part, total_collectOrder]
  have kept : ∑ i ∈ slots.toFinset, (collected scene.stackAt scene.cursor slots i).count +
      ∑ i ∈ slots.toFinset, (collecting scene.cursor).part scene.stackAt
        (scene.cursor.material.maxStack - scene.cursor.count) (collectOrder scene.stackAt slots) i =
      ∑ i ∈ slots.toFinset, (scene.stackAt i).count := by
    rw [← Finset.sum_add_distrib]
    refine Finset.sum_congr rfl fun i _ => ?_
    rw [collected, count_after_draining]
    exact Nat.sub_add_cancel part_draining_le
  omega

/-- What collecting from one list of slots leaves. -/
theorem collected_of_look {after : Scene} {slots : List Nat} (once : slots.Nodup)
    (filled : scene.cursor.isEmpty = false) (others : scene.SameBut (scene.CellOf slots) after)
    (look : after.stackAt = collected scene.stackAt scene.cursor slots) (cursor : after.cursor = scene.topped slots) :
    scene.Collected after slots := by
  refine { others with cursor, kept := ?_, lost := ?_, first := ?_, last := ?_ }
  · rw [look, cursor]
    exact sum_count_collected filled slots
  · intro i _ changed
    rw [look] at changed ⊢
    exact after_draining changed
  · intro pre i post split changed room j mem holds room'
    rw [look] at changed ⊢
    have gets := part_ne_zero changed
    exact after_of_drained holds (part_eq_share_of_first split (notMem_of_once once split) room gets mem room')
  · intro pre i post split changed full
    rw [look] at changed ⊢
    have gets := part_ne_zero changed
    refine ⟨fun j mem holds room => after_of_drained holds (part_eq_share_of_then full gets mem room), ?_⟩
    intro j mem holds full'
    refine after_of_drained holds (part_eq_share_of_then_before full gets split (notMem_of_once once split) ?_ mem ?_)
    · simp [full]
    · simp [full']

/-- **Double clicks.** Whatever slot is clicked, the cursor gets as many items of its type as the slots of the window hold
and as fit on it, from stacks with room left before full ones (`Scene.Collected`). If it was empty or collects nothing, the
outcome is empty. -/
theorem collect_exact (suits : menu.Suits scene) (own : scene.player.kind = .player) (slot : Nat) :
    ∃ o after, menu.process scene (.collect slot) = .ok o ∧ o.drops = none ∧ o.apply.run scene = .ok ⟨⟩ after ∧
      (scene.cursor.isEmpty → o = {}) ∧
      (scene.cursor.isEmpty = false →
        scene.Collected after scene.collectable ∧ (after.cursor = scene.cursor → o = {})) := by
  rcases filled : scene.cursor.isEmpty
  · obtain ⟨⟨⟩, d, run, same, sound, drops, others, look, cursor, idle⟩ := collectClick_ends suits own filled slot
    obtain ⟨answer, applied⟩ := process_of_run (a := .collect slot) run same sound
    refine ⟨d.outcome, d.view, answer, drops, applied, nofun, fun _ => ⟨?_, fun none => ?_⟩⟩
    · exact collected_of_look scene.nodup_collectable filled others look cursor
    · rw [cursor] at none
      rw [idle none]
  · have run : (menu.collectClick slot).run { scene } = .ok ⟨⟩ { scene } := by
      refine run_bind_eq_ok.2 ⟨scene.cursor, { scene }, DraftM.run_cursor _, ?_⟩
      rw [if_pos filled]
      rfl
    obtain ⟨answer, applied⟩ := process_of_run (a := .collect slot) run rfl (Draft.sound_start scene)
    exact ⟨_, _, answer, rfl, applied, fun _ => rfl, nofun⟩

/-- Eggs are collected from two stacks that are not full, in a hopper and below it, and then from a full one. -/
theorem collect_exact_hopper :
    let hopper := (((Inventory.empty .hopper).set 0 (.of .egg 16 none)).set 1 (.of .egg 5 none)).set 2 (.of .egg 20 none)
    let below := (Inventory.empty .player).set 10 (.of .egg 4 none)
    let scene : Scene := { player := below, container := some hopper, cursor := .of .egg 3 none }
    ∃ o after, container.process scene (.collect 3) = .ok o ∧ o.apply.run scene = .ok ⟨⟩ after ∧
      scene.Collected after (List.range 41) ∧ after.cursor = .of .egg 16 none := by
  intro hopper below scene
  have suits : container.Suits scene := .container rfl
  obtain ⟨o, after, answer, -, applied, -, collects⟩ := collect_exact suits rfl 3
  obtain ⟨collected, -⟩ := collects (by decide)
  have cursor : after.cursor = .of .egg 16 none := collected.cursor.trans (by decide)
  exact ⟨o, after, answer, applied, collected, cursor⟩

end Menu

end InventoryClicks
