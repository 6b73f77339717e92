import InventoryClicks.Proofs.Link
import InventoryClicks.Proofs.Scene

/-!
# What stacks there are

For any property of stacks: inventories, outcomes and scenes in which only stacks with the property occur. If the operations
of a menu's stacking rule keep the property, then what the menu makes of a scene of such stacks is of such stacks again,
whatever its routing is (`Menu.process_only`). The same goes for transfers (`Transfer.stage_only`).
-/

namespace InventoryClicks

open StepM

variable {P : Stack → Prop}

def Inventory.Only (inv : Inventory) (P : Stack → Prop) : Prop := ∀ slot s, inv.get? slot = some s → P s

def NatMap.Only (changes : NatMap Stack) (P : Stack → Prop) : Prop := ∀ slot s, changes.get? slot = some s → P s

/-- The stacks that the action brings along. -/
def Action.Only (a : Action) (P : Stack → Prop) : Prop := ∀ s ∈ a.given, P s

structure Scene.Only (scene : Scene) (P : Stack → Prop) : Prop where
  player : scene.player.Only P
  container : ∀ c, scene.container = some c → c.Only P
  cursor : P scene.cursor

structure Outcome.Only (o : Outcome) (P : Stack → Prop) : Prop where
  changes : o.changes.Only P
  playerChanges : o.playerChanges.Only P
  cursor : ∀ s, o.cursor = some s → P s
  dropped : ∀ s ∈ o.dropped, P s

theorem NatMap.only_empty : NatMap.empty.Only P := by
  intro slot s staged
  rw [get?_empty] at staged
  cases staged

theorem NatMap.Only.insert {changes : NatMap Stack} (only : changes.Only P) {s : Stack} (new : P s) (slot : Nat) :
    (changes.insert slot s).Only P := by
  intro k s' staged
  rw [get?_insert] at staged
  by_cases same : k = slot
  · rw [if_pos same] at staged
    cases staged
    exact new
  · rw [if_neg same] at staged
    exact only k s' staged

theorem Outcome.only_empty : ({} : Outcome).Only P where
  changes := NatMap.only_empty
  playerChanges := NatMap.only_empty
  cursor s staged := by cases staged
  dropped s mem := by simp [Outcome.dropped] at mem

theorem Inventory.Only.set {inv : Inventory} (only : inv.Only P) {s : Stack} (new : P s) (slot : Nat) :
    (inv.set slot s).Only P := by
  intro k s' here
  rw [get?_set] at here
  split at here
  · cases here
    exact new
  · exact only k s' here

theorem Inventory.Only.overwrite {inv : Inventory} (only : inv.Only P) {changes : NatMap Stack} (new : changes.Only P) :
    (inv.overwrite changes).Only P := by
  intro slot s here
  rw [get?_overwrite, Option.map_eq_some_iff] at here
  obtain ⟨old, held, stack⟩ := here
  rcases staged : changes.get? slot with _ | s'
  · rw [staged, Option.getD_none] at stack
    rw [← stack]
    exact only slot old held
  · rw [staged, Option.getD_some] at stack
    rw [← stack]
    exact new slot s' staged

theorem Scene.Only.overwrite {scene : Scene} (only : scene.Only P) {o : Outcome} (new : o.Only P) :
    (scene.overwrite o).Only P := by
  have cursor : P (o.cursor.getD scene.cursor) := by
    rcases staged : o.cursor with _ | s
    · exact only.cursor
    · exact new.cursor s staged
  rcases open_ : scene.container with _ | c
  · rw [overwrite_own open_]
    exact ⟨(only.player.overwrite new.changes).overwrite new.playerChanges, nofun, cursor⟩
  · rw [overwrite_container open_]
    refine ⟨only.player.overwrite new.playerChanges, ?_, cursor⟩
    rintro _ ⟨⟩
    exact (only.container c open_).overwrite new.changes

namespace Draft

variable {d : Draft}

/-- All stacks that can be seen in the draft, or were staged in it. -/
structure Only (d : Draft) (P : Stack → Prop) : Prop where
  scene : d.scene.Only P
  outcome : d.outcome.Only P

theorem Only.readCell (only : d.Only P) {c : Cell} {s : Stack} (read : d.readCell c = .ok s) : P s := by
  have player {slot : Nat} (read : d.readPlayer slot = .ok s) : P s := by
    unfold readPlayer at read
    split at read
    · next staged =>
      cases read
      exact only.outcome.playerChanges slot s staged
    · exact only.scene.player slot s (Inventory.read_eq_ok_iff.1 read)
  cases c with
  | player slot => exact player read
  | container slot =>
    simp only [Draft.readCell] at read
    split at read
    · next staged =>
      cases read
      exact only.outcome.changes slot s staged
    · have held := Inventory.read_eq_ok_iff.1 read
      unfold Window.clicked at held
      rcases open_ : d.scene.container with _ | c
      · rw [open_] at held
        exact only.scene.player slot s held
      · rw [open_] at held
        exact only.scene.container c open_ slot s held

theorem Only.writeCell (only : d.Only P) {s : Stack} (new : P s) (c : Cell) : (d.writeCell s c).Only P := by
  cases c with
  | container slot =>
    exact ⟨only.scene, only.outcome.changes.insert new slot, only.outcome.playerChanges, only.outcome.cursor,
      only.outcome.dropped⟩
  | player slot =>
    exact ⟨only.scene, only.outcome.changes, only.outcome.playerChanges.insert new slot, only.outcome.cursor,
      only.outcome.dropped⟩

theorem Only.cursor (only : d.Only P) : P d.cursor := by
  unfold Draft.cursor
  rcases staged : d.outcome.cursor with _ | s
  · exact only.scene.cursor
  · exact only.outcome.cursor s staged

theorem Only.setCursor (only : d.Only P) {s : Stack} (new : P s) : (d.setCursor s).Only P := by
  refine ⟨only.scene, only.outcome.changes, only.outcome.playerChanges, ?_, only.outcome.dropped⟩
  rintro _ ⟨⟩
  exact new

theorem Only.drop (only : d.Only P) {s : Stack} (new : P s) : (d.drop s).Only P := by
  refine ⟨only.scene, only.outcome.changes, only.outcome.playerChanges, only.outcome.cursor, fun s' mem => ?_⟩
  rcases List.mem_append.1 mem with mem | mem
  · exact only.outcome.dropped s' mem
  · rw [List.mem_singleton.1 mem]
    exact new

/-- Drafts keep a property of stacks as long as stacks with it are handled. -/
theorem only_link : Draft.Link (fun d d' => d' = d ∧ d.Only P) (fun _ => True) P := by
  refine ⟨⟨?_, ?_⟩, ?_, ?_, ?_, ?_, ?_⟩
  · intro slot _
    apply agree_get
    rintro _ d ⟨rfl, only⟩
    refine ⟨rfl, agree_ofExcept fun s read => ?_⟩
    obtain ⟨c, -, read⟩ := bind_eq_ok.1 read
    exact only.readCell read
  · intro slot s _ new
    apply agree_update
    rintro _ d ⟨rfl, only⟩
    simp only [SlotStore.write, Draft.write]
    rcases d.scene.locate slot with e | c
    · exact .inr ⟨e, rfl, rfl⟩
    · exact .inl ⟨_, _, rfl, rfl, rfl, only.writeCell new c⟩
  · intro slot
    apply agree_get
    rintro _ d ⟨rfl, only⟩
    exact ⟨rfl, agree_ofExcept fun s read => only.readCell (c := .player slot) read⟩
  · intro slot s new
    apply agree_modify
    rintro _ d ⟨rfl, only⟩
    exact ⟨rfl, only.writeCell new (.player slot)⟩
  · apply agree_get
    rintro _ d ⟨rfl, only⟩
    exact ⟨rfl, agree_pure only.cursor⟩
  · intro s new
    apply agree_modify
    rintro _ d ⟨rfl, only⟩
    exact ⟨rfl, only.setCursor new⟩
  · intro s new
    apply agree_modify
    rintro _ d ⟨rfl, only⟩
    exact ⟨rfl, only.drop new⟩

end Draft

/-- What a menu makes of stacks with a property that its rule keeps has the property. -/
theorem Menu.process_only {menu : Menu} (keeps : menu.rule.Keeps P) {scene : Scene} (only : scene.Only P) {a : Action}
    (given : a.Only P) {o : Outcome} (processed : menu.process scene a = .ok o) : o.Only P := by
  have reaches : menu.Reaches (fun d d' => d' = d ∧ d.Only P) (fun _ => True) a := by
    cases a with
    | shift secondary slot =>
      rintro _ d s ⟨rfl, -⟩
      exact ⟨rfl, fun _ _ => trivial⟩
    | collect slot =>
      rintro _ d s ⟨rfl, -⟩
      exact ⟨rfl, fun _ _ => trivial⟩
    | _ => exact trivial
  have start : ({ scene } : Draft).Only P := ⟨only, Outcome.only_empty⟩
  have ends := perform_agree Draft.only_link keeps (fun _ _ => trivial) reaches given { scene } { scene } ⟨rfl, start⟩
  unfold process at processed
  generalize (menu.perform a).run { scene } = r at ends processed
  cases ends with
  | ok _ d _ _ after =>
    cases processed
    exact after.2.outcome
  | error e d _ _ => cases processed

variable {rule : StackingRule} {got good held : Stack → Prop}

/-- An overlay keeps what its inventory holds and what was written over it. -/
theorem Overlay.only_link (shown : ∀ s, good s → got s) :
    SlotStore.Link (fun o o' : Overlay => o' = o ∧ o.base.Only got ∧ o.changes.Only good) (fun _ => True) got good := by
  constructor
  · intro slot _
    apply agree_get
    rintro _ o ⟨rfl, base, changes⟩
    refine ⟨rfl, agree_ofExcept fun s read => ?_⟩
    simp only [SlotStore.read, Overlay.read] at read
    split at read
    · next staged =>
      cases read
      exact shown s (changes slot s staged)
    · exact base slot s (Inventory.read_eq_ok_iff.1 read)
  · intro slot s _ new
    apply agree_update
    rintro _ o ⟨rfl, base, changes⟩
    exact .inl ⟨o.write slot s, o.write slot s, rfl, rfl, rfl, base, changes.insert new slot⟩

/-- What is left over of an item, and what is staged for slots. -/
theorem Transfer.stage_only {t : Transfer} (keeps : t.Keeps rule (fun _ => True) got good held)
    (shown : ∀ s, good s → got s) {inv : Inventory} (only : inv.Only got) {item rest : Stack} (carried : held item)
    {changes : NatMap Stack} (staged : t.stage rule inv item = .ok (rest, changes)) :
    held rest ∧ changes.Only good := by
  have ends := run_agree (Overlay.only_link shown) keeps carried { base := inv } { base := inv }
    ⟨rfl, only, NatMap.only_empty⟩
  unfold stage at staged
  simp only [EStateM.run] at ends
  generalize t.run rule item ({ base := inv } : Overlay) = r at ends staged
  cases ends with
  | ok _ o _ left after =>
    cases staged
    exact ⟨left, after.2.2⟩
  | error e o _ _ => cases staged

end InventoryClicks
