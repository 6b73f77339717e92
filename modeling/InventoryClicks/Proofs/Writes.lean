import InventoryClicks.Proofs.Collecting
import InventoryClicks.Proofs.Edits
import InventoryClicks.Proofs.Shifting

/-!
# What an outcome writes

An outcome says something about some cells, about the cursor and about stacks that are thrown. For every action there are
cells that it may write (`Menu.MayWrite`), and few actions may move the cursor (`Action.movesCursor`) or throw anything
(`Action.throws`). Nothing else is ever in an outcome (`Menu.writes_within`), so that applying it leaves all other cells.
-/

namespace InventoryClicks

open StepM

/-- The outcome has a stack for the cell. Without a container its changes are the player's. -/
def Outcome.Writes (o : Outcome) (scene : Scene) : Cell → Prop
  | .container slot => scene.container.isSome ∧ o.changes.contains slot
  | .player slot => o.playerChanges.contains slot ∨ scene.container = none ∧ o.changes.contains slot

namespace Menu

variable {menu : Menu} {scene : Scene} {a : Action} {c : Cell}

/-- The cells that an action may write. -/
inductive MayWrite (menu : Menu) (scene : Scene) : Action → Cell → Prop
  | clicked {button : Button} (slot : Nat) (plain : button ≠ .middle) :
    MayWrite menu scene (.click button slot) (scene.cell slot)
  | moved (secondary : Bool) (slot : Nat) : MayWrite menu scene (.shift secondary slot) (scene.cell slot)
  | target (secondary : Bool) {slot i : Nat} {targets : List Nat} (shifts : menu.ShiftsTo scene slot targets)
      (mem : i ∈ targets) : MayWrite menu scene (.shift secondary slot) (scene.cell i)
  /-- A slot that a double click collects from holds items like those on the cursor. -/
  | collected (slot : Nat) {i : Nat} (mem : i ∈ scene.collectable) (holds : (scene.stackAt i).Holds scene.cursor) :
    MayWrite menu scene (.collect slot) (scene.cell i)
  | dragged (button : Button) {slots : List Nat} {i : Nat} (mem : i ∈ slots) :
    MayWrite menu scene (.drag button slots) (scene.cell i)
  | dropped (slot : Nat) (all : Bool) : MayWrite menu scene (.dropSlot slot all) (scene.cell slot)
  | swapped (hotbar slot : Nat) : MayWrite menu scene (.hotbarSwap hotbar slot) (scene.cell slot)
  | hotbar (hotbar slot : Nat) : MayWrite menu scene (.hotbarSwap hotbar slot) (.player (36 + hotbar))
  | swappedOffhand (slot : Nat) : MayWrite menu scene (.offhandSwap slot) (scene.cell slot)
  | offhand (slot : Nat) : MayWrite menu scene (.offhandSwap slot) (.player 45)
  | created (slot : Nat) (s : Stack) : MayWrite menu scene (.creativeSet slot s) (scene.cell slot)

/-- A menu that suits the scene touches no other cells. -/
theorem Suits.mayWrite (suits : menu.Suits scene) (own : scene.player.kind = .player)
    (inside : ∀ slot ∈ a.slots, slot < scene.slotCount) (touch : menu.Touches scene a c) : menu.MayWrite scene a c := by
  have clicked {slot : Nat} (named : a.slots = [slot]) : slot < scene.slotCount := by
    apply inside
    simp [named]
  have here {slot : Nat} (of : scene.CellOf [slot] c) : scene.cell slot = c := by
    obtain ⟨i, mem, cell⟩ := of
    rw [← List.mem_singleton.1 mem, cell]
  cases a with
  | click button slot =>
    cases button with
    | left => exact here touch ▸ .clicked slot nofun
    | right => exact here touch ▸ .clicked slot nofun
    | middle => exact touch.elim
  | shift secondary slot =>
    obtain ⟨targets, shifts⟩ := suits.shiftsTo own (clicked rfl)
    obtain ⟨i, mem, rfl⟩ := touch
    rw [shifts.routing] at mem
    rcases List.mem_cons.1 mem with rfl | mem
    · exact .moved secondary i
    · exact .target secondary shifts mem
  | collect slot =>
    obtain ⟨⟨i, mem, rfl⟩, old, live, holds⟩ := touch
    have routed := (suits.routes own).collect { scene } scene.cursor slot rfl i mem
    rw [Window.at?_cell own routed] at live
    cases live
    rw [suits.collectSlots] at mem
    exact .collected slot mem holds
  | drag button slots =>
    obtain ⟨i, mem, rfl⟩ := touch
    exact .dragged button mem
  | dropSlot slot all => exact here touch ▸ .dropped slot all
  | hotbarSwap hotbar slot =>
    rcases touch with touch | rfl
    · exact here touch ▸ .swapped hotbar slot
    · exact .hotbar hotbar slot
  | offhandSwap slot =>
    rcases touch with touch | rfl
    · exact here touch ▸ .swappedOffhand slot
    · exact .offhand slot
  | creativeSet slot s => exact here touch ▸ .created slot s
  | dropCursor button => exact touch.elim
  | creativeDrop s => exact touch.elim

/-- What a draft's outcome writes is staged. -/
theorem staged_of_writes {d : Draft} (sound : d.Sound) (writes : d.outcome.Writes d.scene c) :
    ∃ s, d.staged? c = some s := by
  cases c with
  | container slot => exact Option.isSome_iff_exists.1 writes.2
  | player slot =>
    rcases writes with staged | ⟨closed, staged⟩
    · exact Option.isSome_iff_exists.1 staged
    · rw [sound.changes_of_closed closed] at staged
      cases staged

/-- **What is written.** In its own setting, a menu answers every action with an outcome that writes only the cells that the
action may write, and that moves the cursor or throws stacks only if the action may do that. All other cells stay as they are
when the outcome is applied. -/
theorem writes_within (suits : menu.Suits scene) (own : scene.player.kind = .player)
    (inside : ∀ slot ∈ a.slots, slot < scene.slotCount) (key : a.badHotbar? = none) :
    ∃ o after, menu.process scene a = .ok o ∧ (∀ c, o.Writes scene c → menu.MayWrite scene a c) ∧
      (o.cursor.isSome → a.movesCursor) ∧ (o.drops.isSome → a.throws) ∧
      o.apply.run scene = .ok ⟨⟩ after ∧ scene.SameBut (menu.MayWrite scene a) after := by
  have hotbar : ∀ hotbar slot, a = .hotbarSwap hotbar slot → PlayerLayout.hotbarSlot hotbar < scene.player.slotCount := by
    rintro hotbar slot rfl
    have below := Action.lt_of_badHotbar?_eq_none key
    rw [Inventory.slotCount, own]
    show 36 + hotbar < 46
    omega
  obtain ⟨⟨⟩, d, run, within⟩ := perform_within suits.rule (suits.routes own) own inside hotbar
  have may : ∀ c s, d.staged? c = some s → menu.MayWrite scene a c :=
    fun c s staged => suits.mayWrite own inside (within.cells c s staged)
  obtain ⟨answer, applied⟩ := process_of_run run within.same within.sound
  refine ⟨d.outcome, d.view, answer, fun c writes => ?_, fun some => ?_, fun some => ?_, applied, ?_⟩
  · obtain ⟨s, staged⟩ := staged_of_writes within.sound (within.same.symm ▸ writes)
    exact may c s staged
  · obtain ⟨s, staged⟩ := Option.isSome_iff_exists.1 some
    exact within.cursor s staged
  · obtain ⟨l, staged⟩ := Option.isSome_iff_exists.1 some
    exact within.drops l staged
  · exact within.sound.sameBut within.same may

/-- A swap with the offhand, above a furnace. -/
theorem writes_within_furnace :
    let furnace := (Inventory.empty .furnace).set 2 (.of .stone 7 none)
    let scene : Scene := { player := .empty .player, container := some furnace }
    ∃ o after, (ofKind .furnace).process scene (.offhandSwap 2) = .ok o ∧
      (∀ c, o.Writes scene c → (ofKind .furnace).MayWrite scene (.offhandSwap 2) c) ∧ o.cursor = none ∧ o.drops = none ∧
      o.apply.run scene = .ok ⟨⟩ after ∧ scene.SameBut ((ofKind .furnace).MayWrite scene (.offhandSwap 2)) after := by
  intro furnace scene
  have open_ : scene.container = some furnace := rfl
  obtain ⟨o, after, answer, writes, cursor, drops, applied, others⟩ :=
    writes_within (a := .offhandSwap 2) (suits_ofKind open_ (by decide)) rfl (by decide) rfl
  refine ⟨o, after, answer, writes, ?_, ?_, applied, others⟩
  · exact Option.not_isSome_iff_eq_none.1 fun some => by cases cursor some
  · exact Option.not_isSome_iff_eq_none.1 fun some => by cases drops some

end Menu

end InventoryClicks
