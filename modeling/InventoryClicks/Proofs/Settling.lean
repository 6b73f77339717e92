import InventoryClicks.Proofs.Collecting
import InventoryClicks.Proofs.Dragging
import InventoryClicks.Proofs.Shifting

/-!
# Transfers settle

An action that moves all it can has nothing left to do: when a shift click, a double click or a creative drag has been
applied, the same action comes to an empty outcome (`Menu.transfers_settle`). What is left in a clicked slot found no room
and finds none now, what a cursor still has room for is in no slot any more, and the slots that were given copies are filled.
-/

namespace InventoryClicks

open StepM

/-- Where items are left over, no slot has a share any more. -/
theorem Dealing.share_after {d : Dealing} {held : Nat → Stack} {n slot : Nat} {slots : List Nat}
    (left : d.total held slots < n) (mem : slot ∈ slots) : d.share (d.after held n slots slot) = 0 := by
  have nothing : min (n - d.total held slots) (d.share (d.after held n slots slot)) = 0 := Dealing.nothing_left mem
  omega

namespace Transfer

variable {held look : Nat → Stack} {item : Stack} {slots : List Nat}

/-- What is left of an item that was added finds no room. -/
theorem addRoom_of_left (filled : item.isEmpty = false) (left : addRoom held item slots slots < item.count)
    (here : ∀ i ∈ slots, look i = added held item slots slots i) {m : Nat} (pos : 0 < m) :
    addRoom look (item.withCount m) slots slots = 0 := by
  rw [addRoom_self]
  refine Finset.sum_eq_zero fun i mem => ?_
  have due : i ∈ addOrder held slots slots := by
    rwa [← List.mem_toFinset, toFinset_addOrder]
  rw [here i (List.mem_toFinset.1 mem), Stack.room_withCount filled pos]
  exact Dealing.share_after left due

end Transfer

/-- The actions that move or copy stacks as far as they can. -/
inductive Action.IsTransfer : Action → Prop
  | shift (secondary : Bool) (slot : Nat) : IsTransfer (.shift secondary slot)
  | collect (slot : Nat) : IsTransfer (.collect slot)
  | copy (slots : List Nat) : IsTransfer (.drag .middle slots)

namespace Menu

variable {menu : Menu} {scene after : Scene} {a : Action} {slot : Nat} {slots targets : List Nat}

/-- The action leaves the draft that it begins with. -/
def Idle (menu : Menu) (scene : Scene) (a : Action) : Prop := (menu.perform a).run { scene } = .ok ⟨⟩ { scene }

theorem Idle.process (idle : menu.Idle scene a) :
    menu.process scene a = .ok {} ∧ ({} : Outcome).apply.run scene = .ok ⟨⟩ scene := by
  have answer := process_of_run idle rfl (Draft.sound_start scene)
  rwa [Draft.view_start] at answer

/-- The table names the same slots for a stack of the same material. -/
theorem ShiftsTo.of_same {touched : Cell → Prop} (shifts : menu.ShiftsTo scene slot targets)
    (same : scene.SameBut touched after) (material : (after.stackAt slot).material = (scene.stackAt slot).material) :
    menu.ShiftsTo after slot targets := by
  have worn : scene.wornSlots slot = after.wornSlots slot := by
    rw [Scene.wornSlots, Scene.wornSlots, material]
  cases shifts with
  | crafted closed result => exact worn ▸ .crafted (same.closed closed) result
  | fromStorage closed lower upper => exact worn ▸ .fromStorage (same.closed closed) lower upper
  | fromHotbar closed lower upper => exact worn ▸ .fromHotbar (same.closed closed) lower upper
  | fromElsewhere closed pos apart => exact worn ▸ .fromElsewhere (same.closed closed) pos apart
  | intoContainer open_ mine =>
    obtain ⟨c', open', size⟩ := same.opened open_
    exact size ▸ .intoContainer open' (size ▸ mine)
  | outOfContainer open_ upper =>
    obtain ⟨c', open', size⟩ := same.opened open_
    exact size ▸ .outOfContainer open' (size ▸ upper)
  | outOfFurnace open_ upper =>
    obtain ⟨c', open', size⟩ := same.opened open_
    exact size ▸ .outOfFurnace open' (size ▸ upper)
  | besideFurnaceToHotbar open_ lower upper =>
    obtain ⟨c', open', size⟩ := same.opened open_
    exact size ▸ .besideFurnaceToHotbar open' (size ▸ lower) (size ▸ upper)
  | besideFurnaceToStorage open_ lower =>
    obtain ⟨c', open', size⟩ := same.opened open_
    exact size ▸ .besideFurnaceToStorage open' (size ▸ lower)

section

variable (own : scene.player.kind = .player) (inside : slot < scene.slotCount) (secondary : Bool)

include own inside

/-- An empty slot has nothing to move. -/
theorem shiftClick_idle_of_empty (empty : (scene.stackAt slot).isEmpty) : menu.Idle scene (.shift secondary slot) := by
  have sound := Draft.sound_start scene
  obtain ⟨c, s, shows⟩ := sound.shows own inside
  have here : s = scene.stackAt slot := by rw [← shows.stackAt, Draft.view_start]
  refine run_bind_eq_ok.2 ⟨s, _, DraftM.run_read sound shows, ?_⟩
  rw [if_pos (here ▸ empty)]
  rfl

open Transfer

theorem shiftClick_idle_of_full (shifts : menu.ShiftsTo scene slot targets)
    (filled : (scene.stackAt slot).isEmpty = false)
    (full : addRoom scene.stackAt (scene.stackAt slot) targets targets = 0) :
    menu.Idle scene (.shift secondary slot) := by
  obtain ⟨⟨⟩, d, run, -, -, idle⟩ := shiftClick_ends shifts own inside rfl filled
  rwa [idle full] at run

/-- What a shift click leaves in the slot stays there. -/
theorem shiftClick_settles (suits : menu.Suits scene) : Ends (menu.perform (.shift secondary slot)) { scene } fun _ d =>
    d.scene = scene ∧ d.Sound ∧ menu.Idle d.view (.shift secondary slot) := by
  rcases filled : (scene.stackAt slot).isEmpty
  swap
  · have idle : menu.Idle scene (.shift secondary slot) := shiftClick_idle_of_empty own inside secondary filled
    exact ends_of_run idle ⟨rfl, Draft.sound_start scene, by rwa [Draft.view_start]⟩
  obtain ⟨targets, shifts⟩ := suits.shiftsTo own inside
  obtain ⟨⟨⟩, d, run, frame, look, -⟩ := shiftClick_ends shifts own inside rfl filled
  have same := frame.sameBut
  have own' : d.view.player.kind = .player := same.player.trans own
  have inside' : slot < d.view.slotCount := by rwa [same.slotCount]
  refine ends_of_run run ⟨frame.scene, frame.sound, ?_⟩
  generalize stack : scene.stackAt slot = item at filled look
  have rest : d.view.stackAt slot = item.withCount _ := look ▸ Function.update_self ..
  rcases Nat.eq_zero_or_pos (item.count - addRoom scene.stackAt item targets targets) with none | some
  · rw [none] at rest
    exact shiftClick_idle_of_empty own' inside' secondary (by simp [rest])
  · have there : ∀ i ∈ targets, d.view.stackAt i = added scene.stackAt item targets targets i := by
      intro i mem
      have differ : i ≠ slot := fun same => shifts.apart (same ▸ mem)
      rw [look, Function.update_of_ne differ]
    have material : (d.view.stackAt slot).material = (scene.stackAt slot).material := by
      rw [rest, stack, (Stack.type_withCount filled some).1]
    refine shiftClick_idle_of_full own' inside' secondary (shifts.of_same same material) ?_ ?_
    · rw [rest, Stack.isEmpty_eq_false_iff, Stack.count_withCount filled]
      omega
    · rw [rest]
      exact addRoom_of_left filled (by omega) there some

end

open Transfer Dealing

/-- A double click that cannot fill the cursor up changes nothing. -/
theorem collectClick_idle (suits : menu.Suits scene) (own : scene.player.kind = .player)
    (still : scene.cursor.isEmpty ∨ scene.topped scene.collectable = scene.cursor) (slot : Nat) :
    menu.Idle scene (.collect slot) := by
  rcases filled : scene.cursor.isEmpty
  · obtain ⟨⟨⟩, d, run, -, -, -, -, -, -, idle⟩ := collectClick_ends suits own filled slot
    have full := still.resolve_left (by simp [filled])
    rwa [idle full] at run
  · refine run_bind_eq_ok.2 ⟨scene.cursor, { scene }, DraftM.run_cursor _, ?_⟩
    rw [if_pos filled]
    rfl

/-- A cursor that has collected all that it can is full, or there are no more items like it. -/
theorem topped_again (filled : scene.cursor.isEmpty = false)
    (look : after.stackAt = collected scene.stackAt scene.cursor slots) (cursor : after.cursor = scene.topped slots) :
    after.topped slots = after.cursor := by
  have size := scene.cursor.material.maxStack_le
  have most := scene.cursor.count_le
  have some := Stack.isEmpty_eq_false_iff.1 filled
  have count : after.cursor.count = max scene.cursor.count
      (min scene.cursor.material.maxStack (scene.cursor.count + scene.heldIn scene.cursor slots)) := by
    rw [cursor, Scene.topped, Stack.count_withCount filled]
    omega
  have material : after.cursor.material = scene.cursor.material := by
    rw [cursor]
    exact (Stack.type_withCount filled (by omega)).1
  -- if the cursor is not full now, the slots gave all that they held
  have rest : after.cursor.count < after.cursor.material.maxStack → after.heldIn after.cursor slots = 0 := by
    intro lacks
    rw [material] at lacks
    refine Finset.sum_eq_zero fun i mem => ?_
    have due : i ∈ collectOrder scene.stackAt slots := by
      rwa [← List.mem_toFinset, toFinset_collectOrder]
    have left : (collecting scene.cursor).total scene.stackAt (collectOrder scene.stackAt slots) <
        scene.cursor.material.maxStack - scene.cursor.count := by
      rw [total_collectOrder]
      omega
    rw [look, cursor, Scene.topped, Stack.tally_withCount filled (by omega)]
    exact share_after left due
  have same : max after.cursor.count (min after.cursor.material.maxStack
      (after.cursor.count + after.heldIn after.cursor slots)) = after.cursor.count := by
    rcases Nat.lt_or_ge after.cursor.count after.cursor.material.maxStack with lacks | full
    · have none := rest lacks
      omega
    · omega
  rw [Scene.topped, same, Stack.withCount_count]

theorem collectClick_settles (suits : menu.Suits scene) (own : scene.player.kind = .player) (slot : Nat) :
    Ends (menu.perform (.collect slot)) { scene } fun _ d =>
      d.scene = scene ∧ d.Sound ∧ menu.Idle d.view (.collect slot) := by
  rcases filled : scene.cursor.isEmpty
  · obtain ⟨⟨⟩, d, run, scenes, sound, -, same, look, cursor, -⟩ := collectClick_ends suits own filled slot
    refine ends_of_run run ⟨scenes, sound, collectClick_idle (suits.of_same same) (same.player.trans own) (.inr ?_) slot⟩
    rw [same.collectable]
    exact topped_again filled look cursor
  · have idle := collectClick_idle suits own (.inl filled) slot
    exact ends_of_run idle ⟨rfl, Draft.sound_start scene, by rwa [Draft.view_start]⟩

/-- A creative drag over filled slots changes nothing, and none does with an empty cursor. -/
theorem middleDrag_idle (own : scene.player.kind = .player) (inside : ∀ slot ∈ slots, slot < scene.slotCount)
    (still : scene.cursor.isEmpty ∨ ∀ i ∈ slots, (scene.stackAt i).isEmpty = false) :
    menu.Idle scene (.drag .middle slots) := by
  obtain ⟨⟨⟩, d, run, -, -, idle⟩ := middleDrag_ends (fun _ => True) own inside fun _ _ _ => trivial
  rwa [idle still] at run

theorem middleDrag_settles (own : scene.player.kind = .player) (inside : ∀ slot ∈ slots, slot < scene.slotCount) :
    Ends (menu.perform (.drag .middle slots)) { scene } fun _ d =>
      d.scene = scene ∧ d.Sound ∧ menu.Idle d.view (.drag .middle slots) := by
  obtain ⟨⟨⟩, d, run, frame, copies, -⟩ :=
    middleDrag_ends (fun _ => True) own inside fun _ _ _ => trivial
  have same := frame.sameBut
  have cursor : d.view.cursor = scene.cursor := frame.view_cursor
  refine ends_of_run run ⟨frame.scene, frame.sound, middleDrag_idle (same.player.trans own) ?_ ?_⟩
  · rwa [same.slotCount]
  · rw [cursor]
    rcases filled : scene.cursor.isEmpty
    · refine .inr fun i mem => ?_
      rw [copies]
      split
      · exact filled
      · next taken => simpa [mem] using taken
    · exact .inl rfl

/-- **Transfers settle.** A shift click, a double click or a creative drag does all that it can: when its outcome has been
applied, the same action comes to an empty one. -/
theorem transfers_settle (suits : menu.Suits scene) (own : scene.player.kind = .player) (transfer : a.IsTransfer)
    (inside : ∀ slot ∈ a.slots, slot < scene.slotCount) :
    ∃ o after o', menu.process scene a = .ok o ∧ o.apply.run scene = .ok ⟨⟩ after ∧
      menu.process after a = .ok o' ∧ o'.isEmpty := by
  have settles : Ends (menu.perform a) { scene } fun _ d => d.scene = scene ∧ d.Sound ∧ menu.Idle d.view a := by
    cases transfer with
    | shift secondary slot => exact shiftClick_settles own (inside slot (by simp [Action.slots])) secondary suits
    | collect slot => exact collectClick_settles suits own slot
    | copy slots => exact middleDrag_settles own inside
  obtain ⟨⟨⟩, d, run, same, sound, idle⟩ := settles
  obtain ⟨answer, applied⟩ := process_of_run run same sound
  exact ⟨d.outcome, d.view, {}, answer, applied, idle.process.1, rfl⟩

/-- Three eggs are left of a stack that is moved into a hopper, and stay where they are. -/
theorem transfers_settle_hopper :
    let hopper := Inventory.empty .hopper
    let scene : Scene := { player := (Inventory.empty .player).set 9 (.of .egg 83 none), container := some hopper }
    ∃ o after o', container.process scene (.shift false 5) = .ok o ∧ o.apply.run scene = .ok ⟨⟩ after ∧
      container.process after (.shift false 5) = .ok o' ∧ o'.isEmpty := by
  intro hopper scene
  have suits : container.Suits scene := .container rfl
  exact transfers_settle suits rfl (.shift false 5) (by decide)

end Menu

end InventoryClicks
