import InventoryClicks.Proofs.Link
import InventoryClicks.Proofs.Unhooked

/-!
# What a click looks at

A click on a shared container that neither collects nor moves a stack into the container looks at no container slots but
those that its action names, and writes no others. So the ruling on it is the same when the container holds other stacks
elsewhere (`Turn.judge_alike`): neither processing nor the check of the outcome reads a slot in passing.
-/

namespace InventoryClicks

open StepM

/-- Another inventory of the kind, with the same stacks in slots with `seen`. -/
structure Inventory.Alike (seen : Nat → Prop) (c c' : Inventory) : Prop where
  kind : c'.kind = c.kind
  get? : ∀ slot, seen slot → c'.get? slot = c.get? slot

/-- The same scene around another container. -/
structure Scene.Around (c c' : Inventory) (scene scene' : Scene) : Prop where
  container : scene.container = some c
  container' : scene'.container = some c'
  player : scene'.player = scene.player
  cursor : scene'.cursor = scene.cursor

variable {seen : Nat → Prop} {c c' : Inventory} {scene scene' : Scene}

theorem Inventory.Alike.read (alike : c.Alike seen c') {slot : Nat} (named : seen slot) : c'.read slot = c.read slot := by
  unfold Inventory.read
  rw [alike.get? slot named]

namespace Scene.Around

variable (around : Scene.Around c c' scene scene')

include around

theorem clicked : scene.clicked = c ∧ scene'.clicked = c' := by
  constructor
  · rw [Window.clicked, around.container, Option.getD_some]
  · rw [Window.clicked, around.container', Option.getD_some]

/-- The two containers have their slots in the same place of the window. -/
theorem locate (alike : c.Alike seen c') (slot : Nat) : scene'.locate slot = scene.locate slot := by
  unfold Window.locate Inventory.slotCount
  rw [around.container, around.container']
  simp only [alike.kind]

end Scene.Around

theorem Window.locate_container {w : Window} (open_ : w.container = some c) {slot k : Nat}
    (located : w.locate slot = .ok (.container k)) : k = slot ∧ slot < c.slotCount := by
  unfold Window.locate at located
  simp only [open_] at located
  split at located
  · next below =>
    cases located
    exact ⟨rfl, below⟩
  · rcases main : PlayerLayout.ofWindowSlot c.kind slot with e | m <;> rw [main] at located <;> cases located

namespace Draft

/-- The same draft around another container, as long as nothing is staged for container slots other than `seen`. -/
structure Around (seen : Nat → Prop) (c c' : Inventory) (d d' : Draft) : Prop where
  scene : Scene.Around c c' d.scene d'.scene
  outcome : d'.outcome = d.outcome
  staged : ∀ slot s, d.outcome.changes.get? slot = some s → seen slot

namespace Around

variable {d d' : Draft} (around : Draft.Around seen c c' d d')

include around

theorem readCell (alike : c.Alike seen c') {cell : Cell} (named : ∀ slot, cell = .container slot → seen slot) :
    d'.readCell cell = d.readCell cell := by
  obtain ⟨clicked, clicked'⟩ := around.scene.clicked
  cases cell with
  | container slot =>
    simp only [Draft.readCell, around.outcome, clicked, clicked', alike.read (named slot rfl)]
  | player slot => simp only [Draft.readCell, Draft.readPlayer, around.outcome, around.scene.player]

theorem writeCell {cell : Cell} (named : ∀ slot, cell = .container slot → seen slot) (s : Stack) :
    Draft.Around seen c c' (d.writeCell s cell) (d'.writeCell s cell) := by
  cases cell with
  | container slot =>
    refine ⟨around.scene, by simp only [Draft.writeCell, around.outcome], fun k s' written => ?_⟩
    simp only [Draft.writeCell, NatMap.get?_insert] at written
    by_cases same : k = slot
    · rw [same]
      exact named slot rfl
    · rw [if_neg same] at written
      exact around.staged k s' written
  | player slot => exact ⟨around.scene, by simp only [Draft.writeCell, writePlayer, around.outcome], around.staged⟩

end Around

/-- Drafts around two containers are linked, along slots that are `seen` if they are the container's. -/
theorem around_link (alike : c.Alike seen c') :
    Draft.Link (Around seen c c') (fun slot => slot < c.slotCount → seen slot) fun _ => True := by
  have named {d : Draft} {slot k : Nat} {cell : Cell} (open_ : d.scene.container = some c)
      (may : slot < c.slotCount → seen slot) (located : d.scene.locate slot = .ok cell) (is : cell = .container k) :
      seen k := by
    rw [is] at located
    obtain ⟨rfl, below⟩ := Window.locate_container open_ located
    exact may below
  refine ⟨⟨?_, ?_⟩, ?_, ?_, ?_, ?_, ?_⟩
  · intro slot may
    apply agree_get
    intro d d' around
    have same : d'.read slot = d.read slot := by
      simp only [Draft.read, around.scene.locate alike]
      rcases located : d.scene.locate slot with e | cell
      · rfl
      · exact around.readCell alike fun k is => named around.scene.container may located is
    exact ⟨congrArg ofExcept same, agree_ofExcept fun _ _ => trivial⟩
  · intro slot s may _
    apply agree_update
    intro d d' around
    simp only [SlotStore.write, Draft.write, around.scene.locate alike]
    rcases located : d.scene.locate slot with e | cell
    · exact .inr ⟨e, rfl, rfl⟩
    · refine .inl ⟨_, _, rfl, rfl, ?_⟩
      exact around.writeCell (fun k is => named around.scene.container may located is) s
  · intro slot
    apply agree_get
    intro d d' around
    have own (k : Nat) (is : Cell.player slot = .container k) : seen k := by cases is
    have same : d'.readPlayer slot = d.readPlayer slot := around.readCell alike own
    exact ⟨congrArg ofExcept same, agree_ofExcept fun _ _ => trivial⟩
  · intro slot s _
    have own (k : Nat) (is : Cell.player slot = .container k) : seen k := by cases is
    exact agree_modify fun d d' around => around.writeCell own s
  · apply agree_get
    intro d d' around
    have same : d'.cursor = d.cursor := by simp only [Draft.cursor, around.outcome, around.scene.cursor]
    exact ⟨congrArg pure same, agree_pure trivial⟩
  · intro s _
    apply agree_modify
    intro d d' around
    exact ⟨around.scene, by simp only [setCursor, around.outcome], around.staged⟩
  · intro s _
    apply agree_modify
    intro d d' around
    exact ⟨around.scene, by simp only [drop, setDrops, around.outcome], around.staged⟩

end Draft

theorem Outcome.unchanged {slot : Nat} {s : Stack} : ({} : Outcome).changes.get? slot ≠ some s := nofun

/-- The action looks at no slots of a container with `size` slots but those it names: it does not collect, and does not
move a stack into the container. -/
def Action.Local (size : Nat) : Action → Prop
  | .collect _ => False
  | .shift _ slot => slot < size
  | _ => True

namespace Menu

/-- Nothing is demanded of stacks. -/
theorem keeps_any (rule : StackingRule) : rule.Keeps fun _ => True :=
  ⟨fun _ _ _ _ _ _ _ => ⟨trivial, trivial⟩, fun _ _ => trivial, fun _ _ _ _ _ _ => ⟨trivial, trivial⟩⟩

/-- A stack that leaves a container goes to slots behind those of the container. -/
theorem le_of_mem_shiftSlots {kind : Inventory.Kind} (shared : kind ≠ .player) {d : Draft} {s : Stack} {slot i : Nat}
    (inside : slot < d.clickedSize) (mem : i ∈ (ofKind kind).shiftSlots d s slot) : d.clickedSize ≤ i := by
  have plain (mem : i ∈ Routing.containerShift d s slot) : d.clickedSize ≤ i := by
    unfold Routing.containerShift at mem
    rw [if_neg (by omega), List.mem_range'_1] at mem
    exact mem.1
  have smelting (mem : i ∈ Routing.furnaceShift d s slot) : d.clickedSize ≤ i := by
    unfold Routing.furnaceShift at mem
    simp only [if_pos inside, List.mem_range'_1] at mem
    exact mem.1
  cases kind <;> first | exact plain mem | exact smelting mem | exact absurd rfl shared

theorem shiftSlots_congr {kind : Inventory.Kind} {d d' : Draft} (size : d'.clickedSize = d.clickedSize) (s : Stack)
    (slot : Nat) : (ofKind kind).shiftSlots d' s slot = (ofKind kind).shiftSlots d s slot := by
  cases kind <;>
    simp only [ofKind, player, container, furnace, Routing.playerShift, Routing.containerShift, Routing.furnaceShift, size]

/-- **Footprints.** A local action makes the same outcome of two scenes that differ in container slots it does not name,
and changes only container slots that it names. -/
theorem process_alike {kind : Inventory.Kind} (shared : kind ≠ .player) (alike : c.Alike seen c')
    (around : Scene.Around c c' scene scene') {a : Action} (locally : a.Local c.slotCount)
    (named : ∀ slot ∈ a.slots, slot < c.slotCount → seen slot) :
    (ofKind kind).process scene' a = (ofKind kind).process scene a ∧
      ∀ o, (ofKind kind).process scene a = .ok o → ∀ slot s, o.changes.get? slot = some s → seen slot := by
  have size {d d' : Draft} (h : Draft.Around seen c c' d d') :
      d.clickedSize = c.slotCount ∧ d'.clickedSize = c.slotCount := by
    obtain ⟨clicked, clicked'⟩ := h.scene.clicked
    unfold Draft.clickedSize Inventory.slotCount
    rw [clicked, clicked', alike.kind]
    exact ⟨rfl, rfl⟩
  have reaches : (ofKind kind).Reaches (Draft.Around seen c c') (fun slot => slot < c.slotCount → seen slot) a := by
    cases a with
    | collect slot => exact locally.elim
    | shift secondary slot =>
      intro d d' s h
      obtain ⟨here, there⟩ := size h
      refine ⟨shiftSlots_congr (there.trans here.symm) s slot, fun i mem below => ?_⟩
      have behind : d.clickedSize ≤ i := le_of_mem_shiftSlots shared (by rw [here]; exact locally) mem
      omega
    | _ => exact trivial
  have start : Draft.Around seen c c' { scene } { scene := scene' } :=
    ⟨around, rfl, fun _ _ staged => absurd staged Outcome.unchanged⟩
  have ends := perform_agree (Draft.around_link alike) (keeps_any _) named reaches (fun _ _ => trivial) _ _ start
  unfold process
  generalize ((ofKind kind).perform a).run { scene } = r, ((ofKind kind).perform a).run { scene := scene' } = r' at ends
  cases ends with
  | ok _ d d' _ h =>
    refine ⟨congrArg _ h.outcome, ?_⟩
    rintro o ⟨⟩
    exact h.staged
  | error e d d' h =>
    refine ⟨rfl, fun o stopped => ?_⟩
    cases stopped

end Menu

namespace Outcome

variable {o : Outcome}

theorem gain_congr {a b : Inventory} {n : Int} {entries : List (Nat × Stack)}
    (same : ∀ e ∈ entries, b.read e.1 = a.read e.1) : gain b n entries = gain a n entries := by
  induction entries generalizing n with
  | nil => rfl
  | cons e entries ih =>
    have here : b.read e.1 = a.read e.1 := same e (by simp)
    have later : ∀ e' ∈ entries, b.read e'.1 = a.read e'.1 := fun e' mem => same e' (by simp [mem])
    unfold gain at ih ⊢
    simp only [List.foldlM_cons, here]
    exact congrArg _ (funext fun n => ih later)

/-- Outcomes are checked with what is in the slots that they change. -/
theorem imbalance?_alike (alike : c.Alike seen c') (around : Scene.Around c c' scene scene')
    (within : ∀ slot s, o.changes.get? slot = some s → seen slot) : o.imbalance? scene' = o.imbalance? scene := by
  obtain ⟨clicked, clicked'⟩ := around.clicked
  have counted : gain c' 0 o.changes.entries = gain c 0 o.changes.entries :=
    gain_congr fun e mem => alike.read (within e.1 e.2 (NatMap.mem_entries_iff.1 mem))
  unfold imbalance? delta
  rw [clicked, clicked', counted, around.player, around.cursor]

theorem flaw?_alike (alike : c.Alike seen c') (around : Scene.Around c c' scene scene') :
    o.flaw? scene'.toWindow = o.flaw? scene.toWindow := by
  obtain ⟨clicked, clicked'⟩ := around.clicked
  unfold flaw? Inventory.slotCount
  rw [clicked, clicked', alike.kind, around.player, around.container, around.container']
  rfl

end Outcome

namespace Turn

/-- The ruling on a local action is the same around two containers that differ in slots it does not name. What it writes
is in slots that it names. -/
theorem judge_alike (setup : Setup) {kind : Inventory.Kind} (shared : kind ≠ .player) (who : Clicker)
    (alike : c.Alike seen c') (around : Scene.Around c c' scene scene') {decoded : Except Fault (Option Action)}
    (locally : ∀ a, decoded = .ok (some a) → a.Local c.slotCount)
    (named : ∀ a, decoded = .ok (some a) → ∀ slot ∈ a.slots, slot < c.slotCount → seen slot) :
    judge setup (.ofKind kind) who scene' decoded = judge setup (.ofKind kind) who scene decoded ∧
      ∀ slot s, (judge setup (.ofKind kind) who scene decoded).written.changes.get? slot = some s → seen slot := by
  have unwritten : ∀ slot s, ({} : Outcome).changes.get? slot = some s → seen slot :=
    fun _ _ written => absurd written Outcome.unchanged
  match decoded with
  | .error e => exact ⟨rfl, unwritten⟩
  | .ok none => exact ⟨rfl, unwritten⟩
  | .ok (some a) =>
    obtain ⟨same, within⟩ := Menu.process_alike shared alike around (locally a rfl) (named a rfl)
    rcases processed : (Menu.ofKind kind).process scene a with e | o
    · simp only [judge, same, processed]
      exact ⟨trivial, unwritten⟩
    have checked : outcomeFlaw? setup who scene' o o = outcomeFlaw? setup who scene o o := by
      unfold outcomeFlaw?
      rw [Outcome.flaw?_alike alike around, Outcome.imbalance?_alike alike around (within o processed)]
    rcases flawed : outcomeFlaw? setup who scene o o with e | flaw?
    · simp only [judge, same, processed, checked, flawed]
      exact ⟨trivial, unwritten⟩
    cases flaw? with
    | some flaw =>
      simp only [judge, same, processed, checked, flawed]
      exact ⟨trivial, unwritten⟩
    | none =>
      simp only [judge, same, processed, checked, flawed]
      exact ⟨trivial, within o processed⟩

end Turn

end InventoryClicks
