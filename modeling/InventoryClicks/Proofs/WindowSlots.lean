import InventoryClicks.Proofs.Dealing
import InventoryClicks.Proofs.Staging

/-!
# Window slots

Every slot of a window shows the stack of its cell (`Window.stackAt`), and different slots are different cells. A sound draft
is a store that shows what its view does (`Draft.shows_view`), so that a transfer over a draft can be told by window slots. A
menu whose work on a draft comes to its end answers with an outcome that leaves the view (`Menu.process_of_run`).
-/

namespace InventoryClicks

open StepM

namespace Window

/-- The stack that a window slot shows. -/
def stackAt (w : Window) (slot : Nat) : Stack := (w.at? (w.cell slot)).getD .empty

/-- The cell is that of one of the slots. -/
def CellOf (w : Window) (slots : List Nat) (c : Cell) : Prop := ∃ i ∈ slots, w.cell i = c

/-- Different slots are different cells, also outside of the window. -/
theorem cell_inj {w : Window} {i j : Nat} (same : w.cell i = w.cell j) : i = j := by
  unfold cell at same
  rcases open_ : w.container with _ | c
  · rw [open_] at same
    exact Cell.player.inj same
  · rw [open_] at same
    simp only at same
    split at same <;> split at same
    · exact Cell.container.inj same
    · cases same
    · cases same
    · have main := Cell.player.inj same
      omega

theorem at?_cell {w : Window} (own : w.player.kind = .player) {slot : Nat} (inside : slot < w.slotCount) :
    w.at? (w.cell slot) = some (w.stackAt slot) := by
  obtain ⟨s, here, -⟩ := read_cell own inside
  rw [stackAt, here, Option.getD_some]

end Window

/-- Another scene with the same window, in which only touched cells and the cursor may hold other stacks. -/
structure Scene.SameBut (touched : Cell → Prop) (scene after : Scene) : Prop where
  player : after.player.kind = scene.player.kind
  container : after.container.map (·.kind) = scene.container.map (·.kind)
  apart : ∀ c, ¬ touched c → after.at? c = scene.at? c

namespace Scene.SameBut

variable {touched : Cell → Prop} {scene after : Scene} (same : scene.SameBut touched after)

include same

theorem closed (closed : scene.container = none) : after.container = none := by
  have kinds := same.container
  rw [closed] at kinds
  exact Option.map_eq_none_iff.1 kinds

theorem opened {c : Inventory} (open_ : scene.container = some c) :
    ∃ c', after.container = some c' ∧ c'.slotCount = c.slotCount := by
  have kinds := same.container
  rw [open_, Option.map_some] at kinds
  obtain ⟨c', open', kind⟩ := Option.map_eq_some_iff.1 kinds
  exact ⟨c', open', congrArg Inventory.Kind.slotCount kind⟩

theorem slotCount : after.slotCount = scene.slotCount := by
  unfold Window.slotCount
  rcases open_ : scene.container with _ | c
  · rw [same.closed open_]
    exact congrArg Inventory.Kind.slotCount same.player
  · obtain ⟨c', open', size⟩ := same.opened open_
    rw [open']
    exact congrArg (PlayerLayout.mainSize + ·) size

end Scene.SameBut

namespace Draft

variable {d d' : Draft} {slot : Nat} {c : Cell} {s : Stack} {touched : Cell → Prop}

theorem Shows.stackAt (shows : d.Shows slot c s) : d.view.stackAt slot = s := by
  rw [Window.stackAt, cell_view, Window.cell_of_locate shows.locate, shows.view, Option.getD_some]

theorem Sound.shows_cell (sound : d.Sound) (own : d.scene.player.kind = .player) (inside : slot < d.scene.slotCount) :
    d.Shows slot (d.scene.cell slot) (d.view.stackAt slot) := by
  obtain ⟨c, s, shows⟩ := sound.shows own inside
  rwa [shows.stackAt, Window.cell_of_locate shows.locate]

/-- A write of a window slot's cell changes what that slot shows. -/
theorem Sound.stackAt_writeCell (sound : d.Sound) (shows : d.Shows slot c s) (new : Stack) :
    (d.writeCell new c).view.stackAt = Function.update d.view.stackAt slot new := by
  funext i
  have here : d.scene.cell slot = c := Window.cell_of_locate shows.locate
  have cells : (d.writeCell new c).view.cell i = d.scene.cell i := by rw [cell_view, scene_writeCell]
  rw [Window.stackAt, cells, sound.at?_view_writeCell (sound.has shows.view)]
  by_cases same : i = slot
  · rw [same, if_pos here, Function.update_self, Option.getD_some]
  · have apart : d.scene.cell i ≠ c := fun there => same (Window.cell_inj (there.trans here.symm))
    rw [if_neg apart, Function.update_of_ne same, Window.stackAt, cell_view]

/-- A draft shows the stacks of its view in the window slots whose cells may be touched. -/
theorem shows_view (d : Draft) (own : d.scene.player.kind = .player) (touched : Cell → Prop) :
    SlotStore.Shows (Open d.scene touched) (Frame touched d) fun d' => d'.view.stackAt := by
  have shown (d' : Draft) (slot : Nat) (frame : Frame touched d d') (here : Open d.scene touched slot) :
      ∃ c s, d'.Shows slot c s ∧ touched c := by
    rw [← frame.scene] at own here
    obtain ⟨c, s, shows⟩ := frame.sound.shows own here.1
    exact ⟨c, s, shows, here.2 c shows.locate⟩
  constructor
  · intro d' slot frame here
    obtain ⟨c, s, shows, -⟩ := shown d' slot frame here
    rw [shows.stackAt]
    exact shows.read frame.sound
  · intro d' slot new frame here
    obtain ⟨c, s, shows, touch⟩ := shown d' slot frame here
    exact ⟨d'.writeCell new c, shows.write new, frame.writeCell (frame.sound.has shows.view) touch new,
      frame.sound.stackAt_writeCell shows new⟩

theorem open_of_mem {scene : Scene} {slots : List Nat} (inside : slot < scene.slotCount) (mem : slot ∈ slots) :
    Open scene (scene.CellOf slots) slot :=
  ⟨inside, fun _ located => ⟨slot, mem, Window.cell_of_locate located⟩⟩

theorem view_start (scene : Scene) : ({ scene } : Draft).view = scene := scene.overwrite_empty

theorem Frame.touched_of_staged {scene : Scene} (frame : Frame touched { scene } d) (staged : d.staged? c = some s) :
    touched c := by
  by_contra untouched
  rw [frame.staged c untouched] at staged
  cases c <;> cases staged

/-- The view differs from the scene where something is staged. -/
theorem Sound.sameBut {scene : Scene} (sound : d.Sound) (same : d.scene = scene)
    (cells : ∀ c s, d.staged? c = some s → touched c) : scene.SameBut touched d.view := by
  obtain ⟨player, container⟩ := d.scene.kinds_overwrite d.outcome
  rw [same] at player container
  refine ⟨?_, ?_, fun c untouched => ?_⟩
  · rw [view, same, player]
  · rw [view, same, container]
  · rcases staged : d.staged? c with _ | s
    · rw [sound.at?_view, staged, same]
      exact Option.map_id'
    · exact absurd (cells c s staged) untouched

theorem Frame.sameBut {scene : Scene} (frame : Frame touched { scene } d) : scene.SameBut touched d.view :=
  frame.sound.sameBut frame.scene fun _ _ => frame.touched_of_staged

end Draft

namespace Menu

variable {menu : Menu} {scene : Scene} {a : Action} {d : Draft}

/-- The menus for a scene: a player's own without a container, and those of containers with one. -/
inductive Suits (scene : Scene) : Menu → Prop
  | player (closed : scene.container = none) : Suits scene .player
  | container {c : Inventory} (open_ : scene.container = some c) : Suits scene .container
  | furnace {c : Inventory} (open_ : scene.container = some c) : Suits scene .furnace

/-- The menu of an open container that is not a player's. -/
theorem suits_ofKind {c : Inventory} (open_ : scene.container = some c) (other : c.kind ≠ .player) :
    (ofKind c.kind).Suits scene := by
  unfold ofKind
  split
  · next kind => exact absurd kind other
  · exact .furnace open_
  · exact .furnace open_
  · exact .furnace open_
  · exact .container open_

theorem Suits.rule (suits : menu.Suits scene) : menu.rule = .standard := by
  cases suits <;> rfl

theorem Suits.routes (suits : menu.Suits scene) (own : scene.player.kind = .player) : menu.Routes scene := by
  cases suits with
  | player closed =>
    apply routes_player
    rw [Window.slotCount, closed, Inventory.slotCount, own]
    decide
  | container open_ => exact routes_container open_
  | furnace open_ => exact routes_furnace open_

/-- The menu suits the same window whatever it holds. -/
theorem Suits.of_same {touched : Cell → Prop} {after : Scene} (suits : menu.Suits scene)
    (same : scene.SameBut touched after) : menu.Suits after := by
  cases suits with
  | player closed => exact .player (same.closed closed)
  | container open_ =>
    obtain ⟨c', open', -⟩ := same.opened open_
    exact .container open'
  | furnace open_ =>
    obtain ⟨c', open', -⟩ := same.opened open_
    exact .furnace open'

/-- Work on a draft that comes to its end is answered with an outcome that leaves the draft's view. -/
theorem process_of_run (run : (menu.perform a).run { scene } = .ok ⟨⟩ d) (same : d.scene = scene) (sound : d.Sound) :
    menu.process scene a = .ok d.outcome ∧ d.outcome.apply.run scene = .ok ⟨⟩ d.view := by
  refine ⟨by simp only [process, run], ?_⟩
  have fits := sound.fits
  rw [same] at fits
  rw [Draft.view, same]
  exact Outcome.run_apply fits

end Menu

end InventoryClicks
