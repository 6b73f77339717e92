import InventoryClicks.Proofs.Shifting

/-!
# Equipment that is moved with a shift click

The slot where an item is worn stands first in the table of the player's own window. It is still not filled first: stacks
like the item come before any empty slot, wherever they are. An empty slot where the item is worn gets what these leave,
which is all of it unless the items stack. The only equipment that does is a carved pumpkin (`Menu.worn_first`,
`Menu.pumpkins_not_worn`).
-/

namespace InventoryClicks

open StepM

/-- Of what is worn, only carved pumpkins share a slot. -/
theorem Material.maxStack_of_equipment? {m : Material} {e : Equipment} (worn : m.equipment? = some e)
    (other : m ≠ .carvedPumpkin) : m.maxStack = 1 := by
  cases m <;> first | rfl | contradiction

/-- How many items like `item` the stacks like it in the slots have room for. -/
def Scene.likeRoom (scene : Scene) (item : Stack) (slots : List Nat) : Nat :=
  ∑ i ∈ slots.toFinset with (scene.stackAt i).Holds item, (item.material.maxStack - (scene.stackAt i).count)

/-- Stacks of items that do not stack are full. -/
theorem Scene.likeRoom_eq_zero {scene : Scene} {item : Stack} {slots : List Nat} (single : item.material.maxStack = 1) :
    scene.likeRoom item slots = 0 := by
  refine Finset.sum_eq_zero fun i mem => ?_
  have some := Stack.isEmpty_eq_false_iff.1 (Finset.mem_filter.1 mem).2.1
  omega

namespace Transfer

open Dealing

variable {held : Nat → Stack} {item : Stack} {slots : List Nat} {slot : Nat}

/-- The first slot, if it is empty, gets what the stacks like the item leave. -/
theorem added_first (h : item.isEmpty = false) (empty : (held slot).isEmpty) (first : slot ∉ slots) :
    added held item (slot :: slots) (slot :: slots) slot =
      item.withCount ((min (item.material.maxStack) (item.count -
        ∑ i ∈ slots.toFinset with (held i).Holds item, (item.material.maxStack - (held i).count)) : Nat) : Int) := by
  have order : addOrder held (slot :: slots) (slot :: slots) =
      due (fun s => !s.isEmpty) held slots ++ slot :: due Stack.isEmpty held slots := by
    have skip : due (fun s => !s.isEmpty) held (slot :: slots) = due (fun s => !s.isEmpty) held slots :=
      List.filter_cons_of_neg (by simp [empty])
    have take : due Stack.isEmpty held (slot :: slots) = slot :: due Stack.isEmpty held slots :=
      List.filter_cons_of_pos empty
    rw [addOrder, skip, take]
  have apart : slot ∉ due (fun s => !s.isEmpty) held slots := fun mem => first (List.mem_filter.1 mem).1
  have share : (filling item).share (held slot) = item.material.maxStack := Stack.room_of_isEmpty h empty
  rw [added, after, order, part_of_split apart, share, total_due_filled]
  exact Stack.grown_of_isEmpty empty _

end Transfer

namespace Menu

variable {scene : Scene} {slot e : Nat}

/-- In the player's own window the slot where a stack is worn comes first, unless it was crafted. -/
theorem shiftsTo_worn (closed : scene.container = none) (own : scene.player.kind = .player) (inside : slot < scene.slotCount)
    (played : slot ≠ 0) (worn : (scene.stackAt slot).material.equipment?.bind PlayerLayout.equipmentSlot? = some e)
    (elsewhere : e ≠ slot) : ∃ targets, player.ShiftsTo scene slot (e :: targets) := by
  have last : slot < 46 := by
    rwa [Window.slotCount, closed, Inventory.slotCount, own] at inside
  have only : scene.wornSlots slot = [e] := by
    rw [Scene.wornSlots, worn]
    simp [elsewhere]
  suffices ∃ main, player.ShiftsTo scene slot (scene.wornSlots slot ++ main) by rwa [only] at this
  by_cases storage : 9 ≤ slot ∧ slot < 36
  · exact ⟨_, .fromStorage closed storage.1 storage.2⟩
  by_cases hotbar : 36 ≤ slot ∧ slot < 45
  · exact ⟨_, .fromHotbar closed hotbar.1 hotbar.2⟩
  · exact ⟨_, .fromElsewhere closed (by omega) (by omega)⟩

/-- **Equipment.** A stack that is not crafted goes to the empty slot where it is worn as far as the stacks like it among
the other targets leave it, up to a full stack. If it is not of carved pumpkins, these leave all of it. -/
theorem worn_first (closed : scene.container = none) (own : scene.player.kind = .player) (inside : slot < scene.slotCount)
    (played : slot ≠ 0) (filled : (scene.stackAt slot).isEmpty = false)
    (worn : (scene.stackAt slot).material.equipment?.bind PlayerLayout.equipmentSlot? = some e) (elsewhere : e ≠ slot)
    (vacant : (scene.stackAt e).isEmpty) (secondary : Bool) :
    let item := scene.stackAt slot
    ∃ targets o after, player.ShiftsTo scene slot (e :: targets) ∧
      player.process scene (.shift secondary slot) = .ok o ∧ o.apply.run scene = .ok ⟨⟩ after ∧
      after.stackAt e =
        item.withCount ((min item.material.maxStack (item.count - scene.likeRoom item targets) : Nat) : Int) ∧
      (item.material ≠ .carvedPumpkin →
        after.stackAt e = item.withCount ((min item.count item.material.maxStack : Nat) : Int)) := by
  intro item
  obtain ⟨targets, shifts⟩ := shiftsTo_worn closed own inside played worn elsewhere
  obtain ⟨⟨⟩, d, run, frame, look, -⟩ := shiftClick_ends shifts own inside rfl filled
  obtain ⟨answer, applied⟩ := process_of_run (a := .shift secondary slot) run frame.scene frame.sound
  have first : e ∉ targets := (List.nodup_cons.1 (List.nodup_cons.1 shifts.once).2).1
  have gets : d.view.stackAt e =
      item.withCount ((min item.material.maxStack (item.count - scene.likeRoom item targets) : Nat) : Int) := by
    rw [look, Function.update_of_ne elsewhere]
    exact Transfer.added_first filled vacant first
  refine ⟨targets, d.outcome, d.view, shifts, answer, applied, gets, fun other => ?_⟩
  obtain ⟨p, place, -⟩ := Option.bind_eq_some_iff.1 worn
  rw [gets, Scene.likeRoom_eq_zero (Material.maxStack_of_equipment? place other), Nat.sub_zero, Nat.min_comm]

/-- Of several helmets that share a slot one is worn, though there is a slot with another one. -/
theorem worn_first_helmets :
    let helmets := Stack.of .ironHelmet 3 none
    let scene : Scene := { player := ((Inventory.empty .player).set 36 helmets).set 20 (.single .ironHelmet) }
    ∃ o after, player.process scene (.shift false 36) = .ok o ∧ o.apply.run scene = .ok ⟨⟩ after ∧
      after.stackAt 5 = .single .ironHelmet := by
  intro helmets scene
  have inside : 36 < scene.slotCount := by decide
  have here : scene.stackAt 36 = helmets := by decide
  have worn : (scene.stackAt 36).material.equipment?.bind PlayerLayout.equipmentSlot? = some 5 := by
    rw [here]
    rfl
  obtain ⟨targets, o, after, -, answer, applied, -, alone⟩ :=
    worn_first rfl rfl inside (by decide) (by decide) worn (by decide) (by decide) false
  refine ⟨o, after, answer, applied, ?_⟩
  rw [alone (by decide), here]
  rfl

/-- Carved pumpkins go to other ones in the hotbar, and none of them is worn. -/
theorem pumpkins_not_worn :
    let pumpkins := Stack.of .carvedPumpkin 10 none
    let scene : Scene := { player := ((Inventory.empty .player).set 9 pumpkins).set 36 (.of .carvedPumpkin 5 none) }
    (scene.stackAt 9 = pumpkins ∧ pumpkins.material.equipment?.bind PlayerLayout.equipmentSlot? = some 5 ∧
      (scene.stackAt 5).isEmpty) ∧
    ∃ o after, player.process scene (.shift false 9) = .ok o ∧ o.apply.run scene = .ok ⟨⟩ after ∧
      after.stackAt 36 = .of .carvedPumpkin 15 none ∧ after.stackAt 5 = .empty ∧
      after.stackAt 5 ≠ pumpkins.withCount (min pumpkins.count pumpkins.material.maxStack : Nat) := by
  intro pumpkins scene
  let o : Outcome := { playerChanges := (NatMap.empty.insert 9 .empty).insert 36 (.of .carvedPumpkin 15 none) }
  have fits : o.Fits scene.toWindow := Outcome.flaw?_eq_none_iff.1 (by decide)
  exact ⟨by decide, o, scene.overwrite o, by decide, Outcome.run_apply fits, by decide, by decide, by decide⟩

end Menu

end InventoryClicks
