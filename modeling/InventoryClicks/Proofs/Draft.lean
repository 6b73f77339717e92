import InventoryClicks.Click.Menu
import InventoryClicks.Proofs.Scene
import InventoryClicks.Proofs.Transfer

/-!
# Drafts as scenes

`Draft.view` is the scene that a draft would leave if it were applied now. Reads of a sound draft read the view, and
writes write it, so that a draft weighs what its view weighs. A transfer over a draft changes what is staged for the
slots it names and nothing else (`Draft.run_transfer`).
-/

namespace InventoryClicks

namespace Window

/-- The window has the cell. -/
def Has (w : Window) (c : Cell) : Prop := (w.at? c).isSome

/-- Every window slot is a cell that the window has. -/
theorem locate_has {w : Window} (own : w.player.kind = .player) {slot : Nat} (inside : slot < w.slotCount) :
    ∃ c, w.locate slot = .ok c ∧ w.Has c := by
  have mine : w.player.slotCount = 46 := by rw [Inventory.slotCount, own, Inventory.Kind.slotCount]
  unfold slotCount at inside
  rcases open_ : w.container with _ | c
  · rw [open_] at inside
    exact ⟨.player slot, by simp [locate, open_], Inventory.get?_isSome_iff.2 inside⟩
  · rw [open_] at inside
    simp only [PlayerLayout.mainSize] at inside
    by_cases upper : slot < c.slotCount
    · refine ⟨.container slot, by simp [locate, open_, upper], ?_⟩
      unfold Has at?
      simpa [open_] using Inventory.get?_isSome_iff.2 upper
    · have size : c.kind.slotCount = c.slotCount := rfl
      have main : Bounded.sub slot c.kind.slotCount = .ok (slot - c.slotCount) := Bounded.sub_eq_ok (by omega)
      have sum : Bounded.add Bounded.slotLimit (slot - c.slotCount) PlayerLayout.mainStart = .ok (slot - c.slotCount + 9) :=
        Bounded.add_eq_ok (by simp only [Bounded.slotLimit, PlayerLayout.mainStart]; omega)
      refine ⟨.player (slot - c.slotCount + 9), ?_, Inventory.get?_isSome_iff.2 (by omega)⟩
      simp [locate, open_, upper, PlayerLayout.ofWindowSlot, main, sum, bind, Except.bind, Functor.map, Except.map]

theorem eq_of_ofWindowSlot {kind : Inventory.Kind} {slot m : Nat} (h : PlayerLayout.ofWindowSlot kind slot = .ok m) :
    kind.slotCount ≤ slot ∧ m = slot - kind.slotCount + PlayerLayout.mainStart := by
  obtain ⟨main, difference, sum⟩ := bind_eq_ok.1 h
  unfold Bounded.sub at difference
  unfold Bounded.add at sum
  split at difference
  · next above =>
    cases difference
    split at sum
    · cases sum
      exact ⟨above, rfl⟩
    · cases sum
  · cases difference

/-- No two window slots are the same cell. -/
theorem locate_inj {w : Window} {i j : Nat} {c : Cell} (hi : w.locate i = .ok c) (hj : w.locate j = .ok c) : i = j := by
  have main : ∀ {kind : Inventory.Kind} {slot : Nat}, (Cell.player <$> PlayerLayout.ofWindowSlot kind slot) = .ok c →
      kind.slotCount ≤ slot ∧ c = .player (slot - kind.slotCount + PlayerLayout.mainStart) := by
    intro kind slot h
    rcases below : PlayerLayout.ofWindowSlot kind slot with e | m
    · rw [below] at h
      cases h
    · obtain ⟨above, same⟩ := eq_of_ofWindowSlot below
      rw [below] at h
      cases h
      exact ⟨above, by rw [same]⟩
  unfold locate at hi hj
  split at hi
  · next inv open_ =>
    rw [open_] at hj
    simp only at hj
    have size : inv.kind.slotCount = inv.slotCount := rfl
    split at hi <;> split at hj
    · cases hi
      cases hj
      rfl
    · cases hi
      cases (main hj).2
    · cases hj
      cases (main hi).2
    · obtain ⟨above, rfl⟩ := main hi
      obtain ⟨above', same⟩ := main hj
      injection same
      omega
  · next closed =>
    rw [closed] at hj
    cases hi
    cases hj
    rfl

theorem readCell_of_at? {w : Window} {c : Cell} {s : Stack} (here : w.at? c = some s) : w.readCell c = .ok s := by
  cases c with
  | container slot =>
    obtain ⟨inv, open_, get⟩ := Option.bind_eq_some_iff.1 here
    simpa [readCell, clicked, open_] using Inventory.read_eq_ok_iff.2 get
  | player slot => exact Inventory.read_eq_ok_iff.2 here

end Window

namespace Draft

variable {d : Draft} {c : Cell} {old s : Stack} {w : Weight}

/-- The stack staged for a cell. -/
def staged? (d : Draft) : Cell → Option Stack
  | .container slot => d.outcome.changes.get? slot
  | .player slot => d.outcome.playerChanges.get? slot

theorem staged?_writeCell (d : Draft) (s : Stack) (c k : Cell) :
    (d.writeCell s c).staged? k = if k = c then some s else d.staged? k := by
  cases c <;> cases k <;> simp [writeCell, writePlayer, staged?, NatMap.get?_insert]

/-- Writes are staged for cells of the scene only. -/
def Sound (d : Draft) : Prop := ∀ c s, d.staged? c = some s → d.scene.Has c

/-- The scene with the outcome written over it. -/
def view (d : Draft) : Scene := d.scene.overwrite d.outcome

theorem Sound.fits (sound : d.Sound) : d.outcome.Fits d.scene.toWindow where
  changes k s staged := by
    have has := sound (.container k) s staged
    unfold Window.Has Window.at? at has
    rcases open_ : d.scene.container with _ | inv
    · simp [open_] at has
    · simpa [open_, Window.clicked, Inventory.get?_isSome_iff] using has
  playerChanges k s staged := Inventory.get?_isSome_iff.1 (sound (.player k) s staged)
  once closed k s staged := by
    have has := sound (.container k) s staged
    simp [Window.Has, Window.at?, closed] at has

theorem Sound.changes_of_closed (sound : d.Sound) (closed : d.scene.container = none) : d.outcome.changes = ∅ := by
  refine NatMap.ext_get? fun k => ?_
  rcases staged : d.outcome.changes.get? k with _ | s
  · rfl
  · have has := sound (.container k) s staged
    simp [Window.Has, Window.at?, closed] at has

theorem Sound.at?_view (sound : d.Sound) (c : Cell) :
    d.view.at? c = (d.scene.at? c).map fun s => (d.staged? c).getD s := by
  unfold view
  rcases open_ : d.scene.container with _ | inv
  · rw [Scene.overwrite_own open_, sound.changes_of_closed open_, Inventory.overwrite_empty]
    cases c <;> simp [Window.at?, staged?, open_, Inventory.get?_overwrite]
  · rw [Scene.overwrite_container open_]
    cases c <;> simp [Window.at?, staged?, open_, Inventory.get?_overwrite]

theorem readCell_eq (d : Draft) (c : Cell) :
    d.readCell c = match d.staged? c with
      | some s => .ok s
      | none => d.scene.readCell c := by
  cases c <;> rfl

/-- A read of a cell sees the view. -/
theorem Sound.readCell (sound : d.Sound) (shown : d.view.at? c = some s) : d.readCell c = .ok s := by
  rw [sound.at?_view c, Option.map_eq_some_iff] at shown
  obtain ⟨old, here, stack⟩ := shown
  rw [readCell_eq]
  rcases staged : d.staged? c with _ | s'
  · rw [staged, Option.getD_none] at stack
    rw [← stack]
    exact Window.readCell_of_at? here
  · rw [staged, Option.getD_some] at stack
    rw [stack]

@[simp] theorem scene_writeCell (d : Draft) (s : Stack) (c : Cell) : (d.writeCell s c).scene = d.scene := by
  cases c <;> rfl

@[simp] theorem cursor_writeCell (d : Draft) (s : Stack) (c : Cell) : (d.writeCell s c).cursor = d.cursor := by
  cases c <;> rfl

@[simp] theorem dropped_writeCell (d : Draft) (s : Stack) (c : Cell) :
    (d.writeCell s c).outcome.dropped = d.outcome.dropped := by
  cases c <;> rfl

theorem Sound.writeCell (sound : d.Sound) (has : d.scene.Has c) (s : Stack) : (d.writeCell s c).Sound := by
  intro k s' staged
  rw [scene_writeCell]
  rw [staged?_writeCell] at staged
  by_cases same : k = c
  · rw [same]
    exact has
  · rw [if_neg same] at staged
    exact sound k s' staged

/-- A write of a cell writes the view. -/
theorem view_writeCell (has : d.scene.Has c) (s : Stack) : (d.writeCell s c).view = d.view.setCell s c := by
  unfold view Draft.writeCell
  cases c with
  | container slot =>
    unfold Window.Has Window.at? at has
    rcases open_ : d.scene.container with _ | inv
    · simp [open_] at has
    · simp [Scene.overwrite, Scene.setCell, open_, Inventory.overwrite_insert]
  | player slot =>
    rcases open_ : d.scene.container with _ | inv <;>
      simp [Scene.overwrite, Scene.setCell, writePlayer, open_, Inventory.overwrite_insert]

theorem Sound.at?_view_writeCell (sound : d.Sound) (has : d.scene.Has c) (s : Stack) (k : Cell) :
    (d.writeCell s c).view.at? k = if k = c then some s else d.view.at? k := by
  rw [(sound.writeCell has s).at?_view k, sound.at?_view k, scene_writeCell, staged?_writeCell]
  by_cases same : k = c
  · obtain ⟨old, here⟩ := Option.isSome_iff_exists.1 has
    simp [same, here]
  · simp [same]

theorem Sound.has (sound : d.Sound) (shown : d.view.at? c = some s) : d.scene.Has c := by
  rw [sound.at?_view c, Option.map_eq_some_iff] at shown
  obtain ⟨old, here, -⟩ := shown
  simp [Window.Has, here]

theorem Sound.weight_writeCell (sound : d.Sound) (shown : d.view.at? c = some old) (s : Stack) :
    (d.writeCell s c).view.weight w = d.view.weight w - old.weight w + s.weight w := by
  rw [view_writeCell (sound.has shown), Scene.weight_setCell shown]

/-- Window slot `slot` is the cell `c`, and shows `s`. -/
structure Shows (d : Draft) (slot : Nat) (c : Cell) (s : Stack) : Prop where
  locate : d.scene.locate slot = .ok c
  view : d.view.at? c = some s

theorem Sound.shows (sound : d.Sound) (own : d.scene.player.kind = .player) {slot : Nat}
    (inside : slot < d.scene.slotCount) : ∃ c s, d.Shows slot c s := by
  obtain ⟨c, located, has⟩ := Window.locate_has own inside
  obtain ⟨s, here⟩ := Option.isSome_iff_exists.1 has
  exact ⟨c, (d.staged? c).getD s, located, by rw [sound.at?_view c, here, Option.map_some]⟩

section

variable {slot : Nat}

theorem Shows.read (shows : d.Shows slot c s) (sound : d.Sound) : d.read slot = .ok s := by
  simp only [Draft.read, shows.locate, bind, Except.bind, sound.readCell shows.view]

theorem Shows.write (shows : d.Shows slot c s) (new : Stack) : d.write slot new = .ok (d.writeCell new c) := by
  simp only [Draft.write, shows.locate, bind, Except.bind, pure, Except.pure]

end

/-- `d'` is `d` with other stacks staged for touched cells. -/
structure Frame (touched : Cell → Prop) (d d' : Draft) : Prop where
  scene : d'.scene = d.scene
  sound : d'.Sound
  cursor : d'.outcome.cursor = d.outcome.cursor
  drops : d'.outcome.drops = d.outcome.drops
  staged : ∀ c, ¬ touched c → d'.staged? c = d.staged? c

namespace Frame

variable {touched : Cell → Prop} {d' : Draft}

theorem refl (sound : d.Sound) : Frame touched d d := ⟨rfl, sound, rfl, rfl, fun _ _ => rfl⟩

theorem trans {d'' : Draft} (frame : Frame touched d d') (frame' : Frame touched d' d'') : Frame touched d d'' where
  scene := frame'.scene.trans frame.scene
  sound := frame'.sound
  cursor := frame'.cursor.trans frame.cursor
  drops := frame'.drops.trans frame.drops
  staged c untouched := (frame'.staged c untouched).trans (frame.staged c untouched)

theorem writeCell (frame : Frame touched d d') (has : d'.scene.Has c) (touch : touched c) (s : Stack) :
    Frame touched d (d'.writeCell s c) where
  scene := by rw [scene_writeCell, frame.scene]
  sound := frame.sound.writeCell has s
  cursor := by cases c <;> exact frame.cursor
  drops := by cases c <;> exact frame.drops
  staged k untouched := by
    have other : k ≠ c := by
      rintro rfl
      exact untouched touch
    rw [staged?_writeCell, if_neg other, frame.staged k untouched]

theorem view_cursor (frame : Frame touched d d') : d'.cursor = d.cursor := by
  unfold Draft.cursor
  rw [frame.cursor, frame.scene]

theorem dropped (frame : Frame touched d d') : d'.outcome.dropped = d.outcome.dropped := by
  unfold Outcome.dropped
  rw [frame.drops]

/-- Untouched cells show what they showed. -/
theorem at?_view (frame : Frame touched d d') (sound : d.Sound) (untouched : ¬ touched c) :
    d'.view.at? c = d.view.at? c := by
  rw [frame.sound.at?_view c, sound.at?_view c, frame.scene, frame.staged c untouched]

end Frame

/-- Slot of the window whose cell may be touched. -/
def Open (scene : Scene) (touched : Cell → Prop) (slot : Nat) : Prop :=
  slot < scene.slotCount ∧ ∀ c, scene.locate slot = .ok c → touched c

theorem account (d : Draft) (own : d.scene.player.kind = .player) (touched : Cell → Prop) :
    SlotStore.Account w (Open d.scene touched) (Frame touched d) (·.view.weight w) := by
  refine ⟨fun d' slot frame here => ?_⟩
  have own' : d'.scene.player.kind = .player := by rw [frame.scene, own]
  have inside : slot < d'.scene.slotCount := by
    rw [frame.scene]
    exact here.1
  obtain ⟨c, old, shows⟩ := frame.sound.shows own' inside
  have touch : touched c := here.2 c (by rw [← frame.scene]; exact shows.locate)
  refine ⟨old, shows.read frame.sound, fun new => ?_⟩
  refine ⟨d'.writeCell new c, shows.write new, frame.writeCell (frame.sound.has shows.view) touch new, ?_⟩
  rw [frame.sound.weight_writeCell shows.view]
  omega

/-- A balanced transfer over a draft. -/
theorem run_transfer {rule : StackingRule} {touched : Cell → Prop} (sound : d.Sound)
    (own : d.scene.player.kind = .player) {t : Transfer} (balanced : t.Balanced rule w (Open d.scene touched))
    (item : Stack) :
    StepM.Ends (t.run rule item) d fun rest d' =>
      Frame touched d d' ∧ d'.view.weight w + rest.weight w = d.view.weight w + item.weight w :=
  Transfer.run_trades (d.account own touched) balanced (.refl sound) item

end Draft

end InventoryClicks
