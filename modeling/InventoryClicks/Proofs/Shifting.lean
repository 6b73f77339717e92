import InventoryClicks.Proofs.Filling
import InventoryClicks.Proofs.WindowSlots

/-!
# Shift clicks

A shift click moves the stack of a window slot to other slots, which the menu's table names best first (`Menu.ShiftsTo`). As
many items leave the slot as there is room for in these, the stacks like it are filled in order before any empty slot is
used, and nothing else changes (`Scene.Shifted`, `Menu.shift_exact`).
-/

namespace InventoryClicks

open StepM

namespace Transfer

open Dealing

variable {held : Nat → Stack} {item : Stack} {slots : List Nat}

/-- With one list of slots, every one of them is filled or empty. -/
theorem toFinset_addOrder (held : Nat → Stack) (slots : List Nat) : (addOrder held slots slots).toFinset = slots.toFinset :=
  toFinset_due (fun s => by cases s.isEmpty <;> simp) held slots

theorem addRoom_self : addRoom held item slots slots = ∑ i ∈ slots.toFinset, (held i).room item := by
  rw [addRoom, total, toFinset_addOrder]
  rfl

/-- What is added is in the slots. -/
theorem sum_count_added (h : item.isEmpty = false) : ∑ i ∈ slots.toFinset, (added held item slots slots i).count =
    ∑ i ∈ slots.toFinset, (held i).count + min item.count (addRoom held item slots slots) := by
  have parts : ∑ i ∈ slots.toFinset, (filling item).part held item.count (addOrder held slots slots) i =
      min item.count (addRoom held item slots slots) := by
    rw [← toFinset_addOrder held slots]
    exact sum_part _
  rw [← parts, ← Finset.sum_add_distrib]
  exact Finset.sum_congr rfl fun i _ => count_after_filling h

end Transfer

namespace PlayerLayout

variable {slot : Nat}

theorem mem_storage_iff : slot ∈ storage ↔ 9 ≤ slot ∧ slot < 36 := List.mem_range'_1

theorem mem_hotbar_iff : slot ∈ hotbar ↔ 36 ≤ slot ∧ slot < 45 := List.mem_range'_1

/-- Items are worn outside of the main slots. -/
theorem outside_of_equipmentSlot? {e : Equipment} (worn : equipmentSlot? e = some slot) :
    0 < slot ∧ slot < 9 ∨ slot = 45 := by
  cases e <;> cases worn <;> decide

end PlayerLayout

namespace Scene

variable {scene : Scene} {slot : Nat}

/-- The slot of the player's own window where the stack in a slot is worn, if it is another one. -/
def wornSlots (scene : Scene) (slot : Nat) : List Nat :=
  ((scene.stackAt slot).material.equipment?.bind PlayerLayout.equipmentSlot?).toList.filter (· != slot)

theorem mem_wornSlots {i : Nat} (mem : i ∈ scene.wornSlots slot) : i ≠ slot ∧ (0 < i ∧ i < 9 ∨ i = 45) := by
  obtain ⟨here, differ⟩ := List.mem_filter.1 mem
  obtain ⟨e, -, worn⟩ := Option.bind_eq_some_iff.1 (Option.mem_toList.1 here)
  exact ⟨by simpa using differ, PlayerLayout.outside_of_equipmentSlot? worn⟩

/-- Where a stack is worn, and main slots without its own. -/
theorem nodup_wornSlots_append {start len : Nat} (lower : 9 ≤ start) (upper : start + len ≤ 45)
    (apart : slot < start ∨ start + len ≤ slot) : (slot :: (scene.wornSlots slot ++ List.range' start len)).Nodup := by
  have worn : (scene.wornSlots slot).Nodup := by
    apply List.Nodup.filter
    cases (scene.stackAt slot).material.equipment?.bind PlayerLayout.equipmentSlot? <;> simp
  refine List.nodup_cons.2 ⟨fun mem => ?_, List.nodup_append.2 ⟨worn, List.nodup_range', ?_⟩⟩
  · rcases List.mem_append.1 mem with mem | mem
    · exact (mem_wornSlots mem).1 rfl
    · rw [List.mem_range'_1] at mem
      omega
  · rintro i mem j mem' rfl
    have outside := mem_wornSlots mem
    rw [List.mem_range'_1] at mem'
    omega

/-- How many items like `item` the slots have room for. -/
def roomIn (scene : Scene) (item : Stack) (slots : List Nat) : Nat := ∑ i ∈ slots.toFinset, (scene.stackAt i).room item

/-- What changes when the stack of a slot is moved to others. -/
structure Shifted (scene after : Scene) (slot : Nat) (item : Stack) (targets : List Nat) : Prop
    extends scene.SameBut (scene.CellOf (slot :: targets)) after where
  cursor : after.cursor = scene.cursor
  /-- As many items leave the slot as there is room for. -/
  left : after.stackAt slot =
    item.withCount ((item.count - min item.count (scene.roomIn item targets) : Nat) : Int)
  arrived : ∑ i ∈ targets.toFinset, (after.stackAt i).count =
    ∑ i ∈ targets.toFinset, (scene.stackAt i).count + min item.count (scene.roomIn item targets)
  /-- A slot that changes was empty or held items of the type, and holds more of them now, up to a full stack. -/
  grown : ∀ i ∈ targets, after.stackAt i ≠ scene.stackAt i →
    ((scene.stackAt i).isEmpty ∨ (scene.stackAt i).Holds item) ∧ (after.stackAt i).Holds item ∧
      (scene.stackAt i).count < (after.stackAt i).count ∧ (after.stackAt i).count ≤ item.material.maxStack
  /-- A slot takes items when the stacks like them before it are full. -/
  merged : ∀ pre i post, targets = pre ++ i :: post → after.stackAt i ≠ scene.stackAt i →
    ∀ j ∈ pre, (scene.stackAt j).Holds item → item.material.maxStack ≤ (after.stackAt j).count
  /-- An empty slot takes items when all the stacks like them are full, and so are the empty slots before it. -/
  placed : ∀ pre i post, targets = pre ++ i :: post → (scene.stackAt i).isEmpty → after.stackAt i ≠ scene.stackAt i →
    (∀ j ∈ targets, (scene.stackAt j).Holds item → item.material.maxStack ≤ (after.stackAt j).count) ∧
      ∀ j ∈ pre, (scene.stackAt j).isEmpty → after.stackAt j = item.withCount item.material.maxStack

end Scene

namespace Menu

/-- Where a shift click moves the stack of a window slot, best slot first. -/
inductive ShiftsTo (scene : Scene) (slot : Nat) : Menu → List Nat → Prop
  /-- What was crafted goes to the far end of the main slots first, and is worn last. -/
  | crafted (closed : scene.container = none) (result : slot = 0) :
    ShiftsTo scene slot .player (scene.wornSlots slot ++ List.range' 9 36).reverse
  | fromStorage (closed : scene.container = none) (lower : 9 ≤ slot) (upper : slot < 36) :
    ShiftsTo scene slot .player (scene.wornSlots slot ++ List.range' 36 9)
  | fromHotbar (closed : scene.container = none) (lower : 36 ≤ slot) (upper : slot < 45) :
    ShiftsTo scene slot .player (scene.wornSlots slot ++ List.range' 9 27)
  /-- From the crafting grid, the armor and the offhand. -/
  | fromElsewhere (closed : scene.container = none) (pos : 0 < slot) (apart : slot < 9 ∨ slot = 45) :
    ShiftsTo scene slot .player (scene.wornSlots slot ++ List.range' 9 36)
  | intoContainer {c : Inventory} (open_ : scene.container = some c) (mine : c.slotCount ≤ slot) :
    ShiftsTo scene slot .container (List.range c.slotCount)
  | outOfContainer {c : Inventory} (open_ : scene.container = some c) (upper : slot < c.slotCount) :
    ShiftsTo scene slot .container (List.range' c.slotCount 36)
  | outOfFurnace {c : Inventory} (open_ : scene.container = some c) (upper : slot < c.slotCount) :
    ShiftsTo scene slot .furnace (List.range' c.slotCount 36)
  | besideFurnaceToHotbar {c : Inventory} (open_ : scene.container = some c) (lower : c.slotCount ≤ slot)
      (upper : slot < c.slotCount + 27) : ShiftsTo scene slot .furnace (List.range' (c.slotCount + 27) 9)
  | besideFurnaceToStorage {c : Inventory} (open_ : scene.container = some c) (lower : c.slotCount + 27 ≤ slot) :
    ShiftsTo scene slot .furnace (List.range' c.slotCount 27)

variable {menu : Menu} {scene : Scene} {slot : Nat} {targets : List Nat}

/-- The tables name a list for every slot. -/
theorem Suits.shiftsTo (suits : menu.Suits scene) (own : scene.player.kind = .player) (inside : slot < scene.slotCount) :
    ∃ targets, menu.ShiftsTo scene slot targets := by
  cases suits with
  | player closed =>
    have last : slot < 46 := by
      rwa [Window.slotCount, closed, Inventory.slotCount, own] at inside
    by_cases result : slot = 0
    · exact ⟨_, .crafted closed result⟩
    by_cases storage : 9 ≤ slot ∧ slot < 36
    · exact ⟨_, .fromStorage closed storage.1 storage.2⟩
    by_cases hotbar : 36 ≤ slot ∧ slot < 45
    · exact ⟨_, .fromHotbar closed hotbar.1 hotbar.2⟩
    · exact ⟨_, .fromElsewhere closed (by omega) (by omega)⟩
  | @container c open_ =>
    by_cases upper : slot < c.slotCount
    · exact ⟨_, .outOfContainer open_ upper⟩
    · exact ⟨_, .intoContainer open_ (by omega)⟩
  | @furnace c open_ =>
    by_cases upper : slot < c.slotCount
    · exact ⟨_, .outOfFurnace open_ upper⟩
    by_cases storage : slot < c.slotCount + 27
    · exact ⟨_, .besideFurnaceToHotbar open_ (by omega) storage⟩
    · exact ⟨_, .besideFurnaceToStorage open_ (by omega)⟩

namespace ShiftsTo

variable (shifts : menu.ShiftsTo scene slot targets)

include shifts

theorem suits : menu.Suits scene := by
  cases shifts with
  | crafted closed | fromStorage closed | fromHotbar closed | fromElsewhere closed => exact .player closed
  | intoContainer open_ | outOfContainer open_ => exact .container open_
  | outOfFurnace open_ | besideFurnaceToHotbar open_ | besideFurnaceToStorage open_ => exact .furnace open_

theorem routing : menu.shiftSlots { scene } (scene.stackAt slot) slot = targets := by
  have size {c : Inventory} (open_ : scene.container = some c) : ({ scene } : Draft).clickedSize = c.slotCount :=
    clickedSize_open open_ rfl
  have main : PlayerLayout.storage ++ PlayerLayout.hotbar = List.range' 9 36 := by decide
  have own : player.shiftSlots { scene } (scene.stackAt slot) slot =
      let order := scene.wornSlots slot ++ (if 9 ≤ slot ∧ slot < 36 then [] else PlayerLayout.storage) ++
        (if 36 ≤ slot ∧ slot < 45 then [] else PlayerLayout.hotbar)
      if slot = 0 then order.reverse else order := by
    simp only [← PlayerLayout.mem_storage_iff, ← PlayerLayout.mem_hotbar_iff]
    rfl
  have plain {c : Inventory} (open_ : scene.container = some c) :
      container.shiftSlots { scene } (scene.stackAt slot) slot =
        if c.slotCount ≤ slot then List.range c.slotCount else List.range' c.slotCount 36 := by
    rw [← size open_]
    rfl
  have heated {c : Inventory} (open_ : scene.container = some c) :
      furnace.shiftSlots { scene } (scene.stackAt slot) slot =
        if slot < c.slotCount then List.range' c.slotCount 36
        else if slot < c.slotCount + 27 then List.range' (c.slotCount + 27) 9
        else List.range' c.slotCount 27 := by
    rw [← size open_]
    rfl
  cases shifts with
  | crafted closed result =>
    rw [own, if_pos result, if_neg (by omega), if_neg (by omega), List.append_assoc, main]
  | fromStorage closed lower upper =>
    rw [own, if_neg (by omega), if_pos ⟨lower, upper⟩, if_neg (by omega), List.append_nil]
    rfl
  | fromHotbar closed lower upper =>
    rw [own, if_neg (by omega), if_neg (by omega), if_pos ⟨lower, upper⟩, List.append_nil]
    rfl
  | fromElsewhere closed pos apart =>
    rw [own, if_neg (by omega), if_neg (by omega), if_neg (by omega), List.append_assoc, main]
  | intoContainer open_ mine => rw [plain open_, if_pos mine]
  | outOfContainer open_ upper => rw [plain open_, if_neg (by omega)]
  | outOfFurnace open_ upper => rw [heated open_, if_pos upper]
  | besideFurnaceToHotbar open_ lower upper => rw [heated open_, if_neg (by omega), if_pos upper]
  | besideFurnaceToStorage open_ lower => rw [heated open_, if_neg (by omega), if_neg (by omega)]

/-- No slot is named twice, and the clicked one is not named. -/
theorem once : (slot :: targets).Nodup := by
  have range {start len : Nat} (apart : slot < start ∨ start + len ≤ slot) : (slot :: List.range' start len).Nodup := by
    refine List.nodup_cons.2 ⟨fun mem => ?_, List.nodup_range'⟩
    rw [List.mem_range'_1] at mem
    omega
  cases shifts with
  | crafted closed result =>
    have all : (slot :: (scene.wornSlots slot ++ List.range' 9 36)).Nodup :=
      Scene.nodup_wornSlots_append (by omega) (by omega) (by omega)
    rwa [List.nodup_cons, ← List.mem_reverse, ← List.nodup_reverse, ← List.nodup_cons] at all
  | fromStorage closed lower upper => exact Scene.nodup_wornSlots_append (by omega) (by omega) (by omega)
  | fromHotbar closed lower upper => exact Scene.nodup_wornSlots_append (by omega) (by omega) (by omega)
  | fromElsewhere closed pos apart => exact Scene.nodup_wornSlots_append (by omega) (by omega) (by omega)
  | intoContainer open_ mine =>
    rw [List.range_eq_range']
    exact range (by omega)
  | outOfContainer open_ upper => exact range (by omega)
  | outOfFurnace open_ upper => exact range (by omega)
  | besideFurnaceToHotbar open_ lower upper => exact range (by omega)
  | besideFurnaceToStorage open_ lower => exact range (by omega)

theorem apart : slot ∉ targets := (List.nodup_cons.1 shifts.once).1

/-- What is left of the table when the clicked slot is taken out of it. -/
theorem others : (menu.shiftSlots { scene } (scene.stackAt slot) slot).filter (· != slot) = targets := by
  rw [shifts.routing, List.filter_eq_self]
  intro i mem
  have differ : i ≠ slot := fun same => shifts.apart (same ▸ mem)
  simpa using differ

theorem inside (own : scene.player.kind = .player) : ∀ i ∈ targets, i < scene.slotCount := by
  have routes := (shifts.suits.routes own).shift { scene } (scene.stackAt slot) slot rfl
  rwa [shifts.routing] at routes

end ShiftsTo

open Transfer

variable {item : Stack}

/-- The draft that a shift click ends with. Where nothing fits, it is the one that it begins with. -/
theorem shiftClick_ends (shifts : menu.ShiftsTo scene slot targets) (own : scene.player.kind = .player)
    (inside : slot < scene.slotCount) (here : scene.stackAt slot = item) (filled : item.isEmpty = false) :
    Ends (menu.shiftClick slot) { scene } fun _ d =>
      Draft.Frame (scene.CellOf (slot :: targets)) { scene } d ∧
        d.view.stackAt = Function.update (added scene.stackAt item targets targets) slot
          (item.withCount ((item.count - addRoom scene.stackAt item targets targets : Nat) : Int)) ∧
        (addRoom scene.stackAt item targets targets = 0 → d = { scene }) := by
  have sound := Draft.sound_start scene
  have start := Draft.view_start scene
  obtain ⟨c, s, shows⟩ := sound.shows own inside
  have same : s = item := by rw [← here, ← shows.stackAt, start]
  subst same
  have opens : ∀ i ∈ targets, Draft.Open scene (scene.CellOf (slot :: targets)) i :=
    fun i mem => Draft.open_of_mem (shifts.inside own i mem) (List.mem_cons_of_mem _ mem)
  obtain ⟨d, run, frame, look, unchanged⟩ :=
    run_add (Draft.shows_view { scene } own _) opens opens (.refl sound) s
  simp only [start] at run look unchanged
  -- the clicked slot is not among the targets, and still holds the stack
  have kept : added scene.stackAt s targets targets slot = s := by
    rw [← here]
    by_contra changed
    rcases mem_addOrder.1 (mem_of_added changed) with ⟨mem, -⟩ | ⟨mem, -⟩ <;> exact shifts.apart mem
  unfold shiftClick
  apply ends_bind_of_run (DraftM.run_read sound shows)
  rw [if_neg (by simp [filled])]
  apply ends_bind_of_run (run_get _)
  have others := shifts.others
  rw [here] at others
  rw [others, shifts.suits.rule]
  apply ends_bind_of_run (outcome_eq_ok.1 run)
  generalize addRoom scene.stackAt s targets targets = room at *
  have pos := Stack.isEmpty_eq_false_iff.1 filled
  have count := Stack.count_withCount_of_le (Nat.sub_le s.count room)
  split
  · next stays =>
    rw [stays] at count
    refine ends_pure ⟨frame, ?_, fun _ => unchanged (by omega)⟩
    rw [stays, Function.update_eq_self_iff.2 kept.symm, look]
  · next moves =>
    have own' : d.scene.player.kind = .player := by rw [frame.scene, own]
    have inside' : slot < d.scene.slotCount := by rwa [frame.scene]
    obtain ⟨c', s', shows'⟩ := frame.sound.shows own' inside'
    refine ends_of_run (DraftM.run_write shows' _) ⟨?_, ?_, fun none => ?_⟩
    · refine frame.writeCell (frame.sound.has shows'.view) ⟨slot, by simp, ?_⟩ _
      rw [← Window.cell_of_locate shows'.locate, frame.scene]
    · rw [frame.sound.stackAt_writeCell shows', look]
    · rw [none, Nat.sub_zero, Stack.withCount_count] at moves
      exact absurd rfl moves

/-- What moving along one list of slots leaves, when the clicked slot is not in it. -/
theorem shifted_of_added {after : Scene} (shifts : menu.ShiftsTo scene slot targets) (filled : item.isEmpty = false)
    (others : scene.SameBut (scene.CellOf (slot :: targets)) after) (cursor : after.cursor = scene.cursor)
    (look : after.stackAt = Function.update (added scene.stackAt item targets targets) slot
      (item.withCount ((item.count - addRoom scene.stackAt item targets targets : Nat) : Int))) :
    scene.Shifted after slot item targets := by
  have room : scene.roomIn item targets = addRoom scene.stackAt item targets targets := addRoom_self.symm
  have there {i : Nat} (mem : i ∈ targets) : after.stackAt i = added scene.stackAt item targets targets i := by
    have differ : i ≠ slot := fun same => shifts.apart (same ▸ mem)
    rw [look, Function.update_of_ne differ]
  have once := (List.nodup_cons.1 shifts.once).2
  refine { others with cursor, left := ?_, arrived := ?_, grown := ?_, merged := ?_, placed := ?_ }
  · rw [look, Function.update_self, room]
    congr 2
    omega
  · rw [room, ← sum_count_added filled]
    exact Finset.sum_congr rfl fun i mem => congrArg Stack.count (there (List.mem_toFinset.1 mem))
  · intro i mem changed
    rw [there mem] at changed ⊢
    refine ⟨?_, Dealing.after_filling_fits changed⟩
    by_contra refuses
    obtain ⟨empty, other⟩ := not_or.1 refuses
    exact changed (Dealing.after_of_share (Stack.room_of_other (by simpa using empty) other))
  · intro pre i post split changed j mem holds
    rw [there (by simp [split])] at changed
    rw [there (by simp [split, mem])]
    exact full_of_added changed split (notMem_of_once once split) mem holds
  · intro pre i post split empty changed
    rw [there (by simp [split])] at changed
    refine ⟨fun j mem holds => ?_, fun j mem vacant => ?_⟩
    · rw [there mem]
      exact full_of_added_empty changed empty mem holds
    · rw [there (by simp [split, mem])]
      exact added_of_added_empty changed empty split (notMem_of_once once split) mem vacant

/-- **Shift clicks.** Every menu has a list of slots for the clicked one, and moves as many items of its stack to these as
there is room for, in order (`Scene.Shifted`). If there is no room at all, the outcome is empty. -/
theorem shift_exact (suits : menu.Suits scene) (own : scene.player.kind = .player) (inside : slot < scene.slotCount)
    (filled : (scene.stackAt slot).isEmpty = false) (secondary : Bool) :
    (∃ targets, menu.ShiftsTo scene slot targets) ∧
    ∀ targets, menu.ShiftsTo scene slot targets →
      ∃ o after, menu.process scene (.shift secondary slot) = .ok o ∧ o.drops = none ∧
        o.apply.run scene = .ok ⟨⟩ after ∧ scene.Shifted after slot (scene.stackAt slot) targets ∧
        (scene.roomIn (scene.stackAt slot) targets = 0 → o = {}) := by
  refine ⟨suits.shiftsTo own inside, fun targets shifts => ?_⟩
  obtain ⟨⟨⟩, d, run, frame, look, unchanged⟩ := shiftClick_ends shifts own inside rfl filled
  obtain ⟨answer, applied⟩ := process_of_run (a := .shift secondary slot) run frame.scene frame.sound
  refine ⟨d.outcome, d.view, answer, frame.drops, applied, ?_, fun none => ?_⟩
  · exact shifted_of_added shifts filled frame.sameBut frame.view_cursor look
  · rw [Scene.roomIn, ← addRoom_self] at none
    rw [unchanged none]

/-- Stone goes into a hopper, onto other stone and into an empty slot, and not onto stone that is more than a full stack. -/
theorem shift_exact_hopper :
    let stone := Stack.of .stone 127 none
    let hopper := ((((Inventory.empty .hopper).set 0 (.of .stone 60 none)).set 1 (.of .coal 5 none)).set 3
      (.of .stone 100 none)).set 4 (.single .egg)
    let scene : Scene :=
      { player := (Inventory.empty .player).set 9 stone, container := some hopper, cursor := .single .stick }
    ∃ o after, container.process scene (.shift true 5) = .ok o ∧ o.drops = none ∧ o.apply.run scene = .ok ⟨⟩ after ∧
      scene.Shifted after 5 stone [0, 1, 2, 3, 4] ∧ after.stackAt 5 = .of .stone 59 none := by
  intro stone hopper scene
  have room : scene.roomIn stone [0, 1, 2, 3, 4] = 68 := by decide
  have open_ : scene.container = some hopper := rfl
  have suits : container.Suits scene := .container open_
  have inside : 5 < scene.slotCount := by decide
  have shifts : container.ShiftsTo scene 5 [0, 1, 2, 3, 4] := .intoContainer open_ (by decide)
  obtain ⟨-, moves⟩ := shift_exact suits rfl inside (by decide) true
  obtain ⟨o, after, answer, drops, applied, shifted, -⟩ := moves [0, 1, 2, 3, 4] shifts
  have left := shifted.left
  have here : scene.stackAt 5 = stone := by decide
  rw [here, room] at left
  exact ⟨o, after, answer, drops, applied, shifted, left⟩

end Menu

end InventoryClicks
