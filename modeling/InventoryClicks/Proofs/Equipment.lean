import Mathlib.Logic.Function.Basic
import InventoryClicks.World.Bulletin
import InventoryClicks.Proofs.Scene

/-!
# Equipment and the writes of an outcome

An applied outcome is a list of writes, one after the other (`Outcome.writes`, `Scene.writeAll`). A mirror keeps a stack
for each of the six places on a body and is told of changes only. One write to a cell changes what is worn there as the
event of that write changes the mirror (`Scene.worn_setCell`), and hence so do all the writes of an outcome, in whichever
of the two maps they stand (`Scene.worn_writeAll`). The events of an outcome are those of its writes, and a write to a
container has none (`Bulletin.equipmentOf_eq`).
-/

namespace InventoryClicks

namespace HeldSlot

variable {held : HeldSlot} {slot : Nat} {e : Equipment}

/-- The slot where a piece of equipment is kept. -/
def slotOf (held : HeldSlot) (e : Equipment) : Nat := (PlayerLayout.equipmentSlot? e).getD held.slot

theorem slotOf_eq (held : HeldSlot) (e : Equipment) : held.slotOf e = match e with
    | .mainHand => held.slot
    | .offHand => 45
    | .feet => 8
    | .legs => 7
    | .chest => 6
    | .head => 5 := by
  cases e <;> rfl

theorem slotOf_lt (held : HeldSlot) (e : Equipment) : held.slotOf e < Inventory.Kind.player.slotCount := by
  have last := held.le_last
  show held.slotOf e < 46
  rw [slotOf_eq]
  cases e <;> simp only <;> omega

/-- The six places are six different slots, and equipment is kept in no other. -/
theorem equipmentAt?_eq_some_iff : PlayerLayout.equipmentAt? slot held.slot = some e ↔ slot = held.slotOf e := by
  have first := held.first_le
  have last := held.le_last
  rw [slotOf_eq, PlayerLayout.equipmentAt?]
  cases e <;> grind

/-- What a write is announced as, if it changes equipment. -/
def event? (held : HeldSlot) : Cell × Stack → Option (Equipment × Stack)
  | (.container _, _) => none
  | (.player slot, s) => (PlayerLayout.equipmentAt? slot held.slot).map (·, s)

end HeldSlot

/-- A stack for each of the six places, as somebody else sees the player. -/
abbrev Mirror := Equipment → Stack

/-- The mirror after events, of which each puts its stack in its place. -/
def Mirror.follow (m : Mirror) (events : List (Equipment × Stack)) : Mirror :=
  events.foldl (fun m e => Function.update m e.1 e.2) m

theorem Mirror.follow_append (m : Mirror) (a b : List (Equipment × Stack)) : m.follow (a ++ b) = (m.follow a).follow b :=
  List.foldl_append

namespace Inventory

variable {inv : Inventory} {held : HeldSlot}

/-- What the player wears and holds. -/
def worn (inv : Inventory) (held : HeldSlot) : Mirror := fun e => (inv.get? (held.slotOf e)).getD .empty

/-- Another stack in a slot is worn exactly if equipment is kept there, and then in one place. -/
theorem worn_set (own : inv.kind = .player) (slot : Nat) (s : Stack) :
    (inv.set slot s).worn held =
      (PlayerLayout.equipmentAt? slot held.slot).elim (inv.worn held) fun e => Function.update (inv.worn held) e s := by
  funext e
  have inside : held.slotOf e < inv.slotCount := by
    rw [slotCount, own]
    exact held.slotOf_lt e
  show ((inv.set slot s).get? (held.slotOf e)).getD .empty = _
  rw [get?_set]
  by_cases here : held.slotOf e = slot
  · have there : PlayerLayout.equipmentAt? slot held.slot = some e := HeldSlot.equipmentAt?_eq_some_iff.2 here.symm
    rw [there, if_pos ⟨here, here ▸ inside⟩, Option.getD_some]
    show s = Function.update (inv.worn held) e s e
    rw [Function.update_self]
  · rw [if_neg fun both => here both.1]
    rcases there : PlayerLayout.equipmentAt? slot held.slot with _ | e'
    · rfl
    · have other : e ≠ e' := by
        rintro rfl
        exact here (HeldSlot.equipmentAt?_eq_some_iff.1 there).symm
      show inv.worn held e = Function.update (inv.worn held) e' s e
      rw [Function.update_of_ne other]

end Inventory

namespace Scene

variable {scene : Scene} {held : HeldSlot}

@[simp] theorem kind_setCell (scene : Scene) (s : Stack) (c : Cell) :
    (scene.setCell s c).player.kind = scene.player.kind := by
  cases c <;> rfl

theorem worn_setCell (own : scene.player.kind = .player) (write : Cell × Stack) :
    (scene.setCell write.2 write.1).player.worn held = (scene.player.worn held).follow (held.event? write).toList := by
  obtain ⟨c, s⟩ := write
  cases c with
  | container slot => rfl
  | player slot =>
    show (scene.player.set slot s).worn held = _
    rw [Inventory.worn_set own, HeldSlot.event?]
    cases PlayerLayout.equipmentAt? slot held.slot <;> rfl

/-- Writes, one after the other. -/
def writeAll (scene : Scene) (writes : List (Cell × Stack)) : Scene :=
  writes.foldl (fun scene e => scene.setCell e.2 e.1) scene

/-- What is worn after writes is what a mirror shows that followed their events. -/
theorem worn_writeAll (own : scene.player.kind = .player) (writes : List (Cell × Stack)) :
    (scene.writeAll writes).player.worn held = (scene.player.worn held).follow (writes.filterMap held.event?) := by
  induction writes generalizing scene with
  | nil => rfl
  | cons write writes ih =>
    have rest : (writes.foldl (fun scene e => scene.setCell e.2 e.1) (scene.setCell write.2 write.1)).player.worn held =
        ((scene.setCell write.2 write.1).player.worn held).follow (writes.filterMap held.event?) :=
      ih ((scene.kind_setCell ..).trans own)
    rw [writeAll, List.foldl_cons, rest, worn_setCell own, ← Mirror.follow_append]
    congr 1
    rcases told : held.event? write with _ | event
    · rw [List.filterMap_cons_none told]
      rfl
    · rw [List.filterMap_cons_some told]
      rfl

theorem kind_writeAll (scene : Scene) (writes : List (Cell × Stack)) :
    (scene.writeAll writes).player.kind = scene.player.kind := by
  induction writes generalizing scene with
  | nil => rfl
  | cons write writes ih => exact (ih _).trans (scene.kind_setCell ..)

theorem writeAll_player (scene : Scene) (l : List (Nat × Stack)) :
    scene.writeAll (l.map fun e => (.player e.1, e.2)) =
      { scene with player := l.foldl (fun acc e => acc.set e.1 e.2) scene.player } := by
  induction l generalizing scene with
  | nil => rfl
  | cons e l ih => exact ih _

theorem writeAll_container (scene : Scene) (l : List (Nat × Stack)) :
    scene.writeAll (l.map fun e => (.container e.1, e.2)) =
      { scene with container := scene.container.map (l.foldl (fun acc e => acc.set e.1 e.2)) } := by
  induction l generalizing scene with
  | nil => rcases open_ : scene.container <;> simp [writeAll, ← open_]
  | cons e l ih =>
    refine (ih _).trans ?_
    rcases open_ : scene.container <;> simp [setCell, open_]

end Scene

/-- The writes of an outcome in their order. Its changes are for the container if one is in view. -/
def Outcome.writes (o : Outcome) (viewing : Bool) : List (Cell × Stack) :=
  (o.changes.entries.map fun e => (if viewing then .container e.1 else .player e.1, e.2)) ++
    o.playerChanges.entries.map fun e => (.player e.1, e.2)

namespace Scene

variable (scene : Scene) (o : Outcome)

/-- With a container in view. -/
theorem writeAll_shared : scene.writeAll (o.writes true) =
    { scene with
      player := scene.player.overwrite o.playerChanges
      container := scene.container.map (·.overwrite o.changes) } := by
  have split : scene.writeAll (o.writes true) =
      (scene.writeAll (o.changes.entries.map fun e => (.container e.1, e.2))).writeAll
        (o.playerChanges.entries.map fun e => (.player e.1, e.2)) := List.foldl_append
  rw [split, writeAll_container, writeAll_player]
  simp only [Inventory.foldl_set_entries]

/-- Without one in view, every write is to the player's own inventory, whatever else the scene holds. -/
theorem writeAll_own : scene.writeAll (o.writes false) =
    { scene with player := (scene.player.overwrite o.changes).overwrite o.playerChanges } := by
  have split : scene.writeAll (o.writes false) =
      (scene.writeAll (o.changes.entries.map fun e => (.player e.1, e.2))).writeAll
        (o.playerChanges.entries.map fun e => (.player e.1, e.2)) := List.foldl_append
  rw [split, writeAll_player, writeAll_player]
  simp only [Inventory.foldl_set_entries]

end Scene

namespace Bulletin

variable (held : HeldSlot) (viewing : Bool)

/-- **Equipment events.** They are those of the writes of the outcome, so a write to a container is never announced. -/
theorem equipmentOf_eq (o : Outcome) : equipmentOf held viewing o = (o.writes viewing).filterMap held.event? := by
  have own (l : List (Nat × Stack)) :
      (l.map fun e => ((.player e.1, e.2) : Cell × Stack)).filterMap held.event? =
        l.filterMap fun e => (PlayerLayout.equipmentAt? e.1 held.slot).map (·, e.2) := by
    rw [List.filterMap_map]
    rfl
  have shared (l : List (Nat × Stack)) :
      (l.map fun e => ((.container e.1, e.2) : Cell × Stack)).filterMap held.event? = [] := by
    rw [List.filterMap_map, List.filterMap_eq_nil_iff]
    exact fun _ _ => rfl
  unfold equipmentOf Outcome.writes
  rw [List.filterMap_append, List.filterMap_append, own]
  cases viewing with
  | false => exact congrArg (· ++ _) (own _).symm
  | true => exact congrArg (· ++ _) (shared _).symm

end Bulletin

namespace Effect

/-- The player, the action and the outcome of an effect that tells of one applied. -/
def applied? : Effect → Option (Nat × Action × Outcome)
  | .applied client action outcome => some (client, action, outcome)
  | .drop .. => none
  | .resync _ => none

end Effect

namespace Report

/-- What was applied, as the effects tell it. -/
def applied (r : Report) : List (Nat × Action × Outcome) := r.effects.filterMap Effect.applied?

end Report

namespace Bulletin

variable (held : HeldSlot) (viewing : Bool)

/-- Reports add what was applied, and the equipment that it changed. -/
theorem addReport_applied (b : Bulletin) (r : Report) :
    (b.addReport held viewing r).applied = b.applied ++ r.applied ∧
      (b.addReport held viewing r).equipment = b.equipment ++
        r.applied.flatMap fun a => (equipmentOf held viewing a.2.2).map (a.1, ·) := by
  have along (effects : List Effect) (b : Bulletin) :
      let b' := effects.foldl (addEffect held viewing) b
      b'.applied = b.applied ++ effects.filterMap Effect.applied? ∧
        b'.equipment = b.equipment ++
          (effects.filterMap Effect.applied?).flatMap fun a => (equipmentOf held viewing a.2.2).map (a.1, ·) := by
    induction effects generalizing b with
    | nil => simp
    | cons effect effects ih =>
      obtain ⟨applied, equipment⟩ := ih (addEffect held viewing b effect)
      rw [List.foldl_cons]
      cases effect with
      | drop client stack => exact ⟨applied, equipment⟩
      | resync client => exact ⟨applied, equipment⟩
      | applied client action outcome =>
        constructor
        · rw [applied, addEffect, List.append_assoc]
          rfl
        · rw [equipment, addEffect, List.append_assoc]
          rfl
  exact along r.effects _

end Bulletin

end InventoryClicks
