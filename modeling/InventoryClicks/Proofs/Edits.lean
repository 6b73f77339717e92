import InventoryClicks.Proofs.Dragging
import InventoryClicks.Proofs.Draining

/-!
# Edits

What an action makes of a draft is told by what it stages (`Draft.Edits`): stacks other than the live ones, in cells that the
action has to do with (`Menu.Touches`), another cursor than the live one, and stacks to be thrown that are not empty. A
transfer may come to a slot more than once, but while it fills, the slots hold more and more, and while it collects, less and
less, so that no stack in a slot is ever the live one again (`Draft.Moved`).
-/

namespace InventoryClicks

open StepM

namespace Action

/-- The action may leave another cursor. -/
def movesCursor : Action → Bool
  | click .. | collect _ | drag .left _ | drag .right _ | dropCursor .left | dropCursor .right => true
  | _ => false

/-- The action may throw stacks out of the window. -/
def throws : Action → Bool
  | dropCursor .left | dropCursor .right | dropSlot .. | creativeDrop _ => true
  | _ => false

end Action

/-- Cells whose stacks the action may replace, as the menu routes it. -/
def Menu.Touches (menu : Menu) (scene : Scene) : Action → Cell → Prop
  | .click .left slot | .click .right slot | .dropSlot slot _ | .creativeSet slot _ => scene.CellOf [slot]
  | .shift _ slot => scene.CellOf (slot :: menu.shiftSlots { scene } (scene.stackAt slot) slot)
  | .collect slot => fun c => scene.CellOf (menu.collectSlots { scene } scene.cursor slot) c ∧
      ∃ old, scene.at? c = some old ∧ old.Holds scene.cursor
  | .drag _ slots => scene.CellOf slots
  | .hotbarSwap hotbar slot => fun c => scene.CellOf [slot] c ∨ c = .player (PlayerLayout.hotbarSlot hotbar)
  | .offhandSwap slot => fun c => scene.CellOf [slot] c ∨ c = .player PlayerLayout.offhand
  | .click .middle _ | .dropCursor _ | .creativeDrop _ => fun _ => False

/-- Stacks that do not stack are different ones. -/
theorem StackingRule.ne_of_canStack {a b : Stack} (other : standard.canStack a b = false) : a ≠ b := by
  rintro rfl
  rw [canStack_standard_iff.2 ⟨rfl, rfl⟩] at other
  cases other

namespace Stack

variable {item a b c : Stack}

/-- A stack that is filled: there are more items now. -/
def Grows (old new : Stack) : Prop := old.count < new.count

/-- A stack like `item` that is drained: there are fewer items now. -/
def Drains (item old new : Stack) : Prop := old.Holds item ∧ new.count < old.count

theorem Grows.trans (h : a.Grows b) (h' : b.Grows c) : a.Grows c := Nat.lt_trans h h'

theorem Drains.trans (h : item.Drains a b) (h' : item.Drains b c) : item.Drains a c := ⟨h.1, Nat.lt_trans h'.2 h.2⟩

theorem not_grows_self (s : Stack) : ¬ s.Grows s := Nat.lt_irrefl _

theorem not_drains_self (item s : Stack) : ¬ item.Drains s s := fun h => Nat.lt_irrefl _ h.2

end Stack

namespace Operator

/-- The operator always answers. A stack in a slot is followed by one that `next` allows after it, and `carried` holds of
what is on its way. -/
def Advances (op : Operator) (rule : StackingRule) (next : Stack → Stack → Prop) (carried : Stack → Prop) : Prop :=
  ∀ slot incoming, carried incoming → ∃ e?, op rule slot incoming = .ok e? ∧
    ∀ e, e? = some e → next slot e.slot ∧ carried e.incoming

theorem Advances.onlyIf {op : Operator} {rule : StackingRule} {next : Stack → Stack → Prop} {carried : Stack → Prop}
    (advances : op.Advances rule next carried) {holds : Condition} (answers : holds.Answers rule) :
    (op.onlyIf holds).Advances rule next carried := by
  intro slot incoming h
  obtain ⟨b, answer⟩ := answers slot incoming
  unfold Operator.onlyIf
  cases b with
  | true =>
    obtain ⟨e?, moved, kept⟩ := advances slot incoming h
    exact ⟨e?, by simp [answer, moved, bind, Except.bind], kept⟩
  | false => exact ⟨none, by simp [answer, bind, Except.bind, pure, Except.pure], by simp⟩

/-- A slot that is filled holds more. -/
theorem fill_advances (limit : Int) :
    (fill limit).Advances .standard Stack.Grows fun _ => True := by
  intro slot incoming _
  obtain ⟨e?, answer, moves⟩ := fill_moves limit slot incoming
  refine ⟨e?, answer, fun e some => ⟨?_, trivial⟩⟩
  obtain ⟨m, pos, -, room, rfl⟩ := moves e some
  exact (Stack.grown_fits pos room).2.1

/-- A slot that items like `item` are collected from held such items, and holds less. -/
theorem collect_advances (limit : Int) (item : Stack) :
    (collect limit).Advances .standard item.Drains (·.Holds item) := by
  intro slot incoming holds
  obtain ⟨e?, answer, moves⟩ := collect_moves limit slot incoming
  refine ⟨e?, answer, fun e some => ?_⟩
  obtain ⟨m, pos, most, room, rfl⟩ := moves e some
  -- there is room on what is on its way because it is of the same type
  have like : incoming.Holds slot := by
    by_contra other
    rw [Stack.room_of_other holds.1 other] at room
    omega
  have filled : slot.isEmpty = false := Stack.isEmpty_eq_false_iff.2 (by omega)
  have same : slot.Holds item := ⟨filled, like.2.1 ▸ holds.2.1, like.2.2 ▸ holds.2.2⟩
  have grown := (Stack.grown_fits pos room).1
  have fewer : (slot.shrunk m).count < slot.count := by
    rw [Stack.count_shrunk]
    omega
  exact ⟨⟨same, fewer⟩, grown.1, grown.2.1.trans same.2.1, grown.2.2.trans same.2.2⟩

end Operator

namespace Draft

/-- Cells, cursor and drops are staged only where they may be. -/
structure Within (scene : Scene) (touched : Cell → Prop) (moves throws : Bool) (d : Draft) : Prop where
  same : d.scene = scene
  sound : d.Sound
  cells : ∀ c s, d.staged? c = some s → touched c
  cursor : ∀ s, d.outcome.cursor = some s → moves
  drops : ∀ l, d.outcome.drops = some l → throws

/-- And whatever is staged makes a difference. -/
structure Edits (scene : Scene) (touched : Cell → Prop) (moves throws : Bool) (d : Draft) : Prop
    extends d.Within scene touched moves throws where
  changed : ∀ c s, d.staged? c = some s → scene.at? c ≠ some s
  moved : ∀ s, d.outcome.cursor = some s → s ≠ scene.cursor
  thrown : ∀ l, d.outcome.drops = some l → l ≠ [] ∧ ∀ s ∈ l, s.isEmpty = false

variable {scene : Scene} {touched touched' : Cell → Prop} {moves throws : Bool} {d : Draft} {c k : Cell} {s s' : Stack}
  {slot : Nat}

/-- What is staged after a write is what was written or what was staged before. -/
theorem eq_or_staged (staged : (d.writeCell s c).staged? k = some s') : k = c ∧ s' = s ∨ d.staged? k = some s' := by
  rw [staged?_writeCell] at staged
  split at staged
  · next same => exact .inl ⟨same, (Option.some.inj staged).symm⟩
  · exact .inr staged

theorem Sound.at?_view_of_staged (sound : d.Sound) (staged : d.staged? c = some s) : d.view.at? c = some s := by
  obtain ⟨old, here⟩ := Option.isSome_iff_exists.1 (sound c s staged)
  rw [sound.at?_view, here, staged, Option.map_some, Option.getD_some]

theorem within_start (scene : Scene) : ({ scene } : Draft).Within scene touched moves throws where
  same := rfl
  sound := sound_start scene
  cells c s staged := by cases c <;> cases staged
  cursor := nofun
  drops := nofun

theorem edits_start (scene : Scene) : ({ scene } : Draft).Edits scene touched moves throws where
  toWithin := within_start scene
  changed c s staged := by cases c <;> cases staged
  moved := nofun
  thrown := nofun

theorem Within.writeCell (within : d.Within scene touched moves throws) (has : scene.Has c) (touch : touched c) :
    (d.writeCell s c).Within scene touched moves throws where
  same := by rw [scene_writeCell, within.same]
  sound := within.sound.writeCell (within.same ▸ has) s
  cells k s' staged := by
    rcases eq_or_staged staged with ⟨rfl, -⟩ | staged
    · exact touch
    · exact within.cells k s' staged
  cursor := by cases c <;> exact within.cursor
  drops := by cases c <;> exact within.drops

namespace Edits

theorem writeCell (edits : d.Edits scene touched moves throws) (has : scene.Has c) (touch : touched c)
    (differ : scene.at? c ≠ some s) : (d.writeCell s c).Edits scene touched moves throws where
  toWithin := edits.toWithin.writeCell has touch
  changed k s' staged := by
    rcases eq_or_staged staged with ⟨rfl, rfl⟩ | staged
    · exact differ
    · exact edits.changed k s' staged
  moved := by cases c <;> exact edits.moved
  thrown := by cases c <;> exact edits.thrown

theorem setCursor (edits : d.Edits scene touched true throws) (differ : s ≠ scene.cursor) :
    (d.setCursor s).Edits scene touched true throws where
  same := edits.same
  sound := edits.sound
  cells := edits.cells
  cursor _ _ := rfl
  drops := edits.drops
  changed := edits.changed
  moved := by
    rintro _ ⟨⟩
    exact differ
  thrown := edits.thrown

theorem drop (edits : d.Edits scene touched moves true) (filled : s.isEmpty = false) :
    (d.drop s).Edits scene touched moves true where
  same := edits.same
  sound := edits.sound
  cells := edits.cells
  cursor := edits.cursor
  drops _ _ := rfl
  changed := edits.changed
  moved := edits.moved
  thrown := by
    rintro _ ⟨⟩
    refine ⟨by simp, fun s' mem => ?_⟩
    rcases List.mem_append.1 mem with mem | mem
    · rcases drops : d.outcome.drops with _ | l
      · simp [Outcome.dropped, drops] at mem
      · rw [Outcome.dropped, drops, Option.getD_some] at mem
        exact (edits.thrown l drops).2 s' mem
    · rw [List.mem_singleton.1 mem]
      exact filled

end Edits

/-- Edits of cells only. -/
theorem Frame.edits (frame : Frame touched { scene } d)
    (cells : ∀ c s, d.staged? c = some s → touched' c ∧ scene.at? c ≠ some s) : d.Edits scene touched' moves throws := by
  have cursor (s : Stack) : d.outcome.cursor ≠ some s := by
    rw [frame.cursor]
    nofun
  have drops (l : List Stack) : d.outcome.drops ≠ some l := by
    rw [frame.drops]
    nofun
  exact ⟨⟨frame.scene, frame.sound, fun c s staged => (cells c s staged).1, fun s here => absurd here (cursor s),
    fun l here => absurd here (drops l)⟩, fun c s staged => (cells c s staged).2, fun s here => absurd here (cursor s),
    fun l here => absurd here (drops l)⟩

/-- Every stack that is staged follows on the live one. -/
structure Moved (next : Stack → Stack → Prop) (touched : Cell → Prop) (scene : Scene) (d : Draft) : Prop where
  frame : Frame touched { scene } d
  follows : ∀ c s, d.staged? c = some s → ∃ old, scene.at? c = some old ∧ next old s

variable {next : Stack → Stack → Prop} {carried : Stack → Prop}

theorem moved_start (scene : Scene) : ({ scene } : Draft).Moved next touched scene where
  frame := .refl (sound_start scene)
  follows c s staged := by cases c <;> cases staged

theorem Moved.writeCell (moved : d.Moved next touched scene) (trans : ∀ {a b c}, next a b → next b c → next a c)
    (shown : d.view.at? c = some s) (touch : touched c) (step : next s s') :
    (d.writeCell s' c).Moved next touched scene where
  frame := moved.frame.writeCell (moved.frame.sound.has shown) touch s'
  follows k s'' staged := by
    rcases eq_or_staged staged with ⟨rfl, rfl⟩ | staged
    · have scenes : d.scene = scene := moved.frame.scene
      rw [moved.frame.sound.at?_view, scenes] at shown
      obtain ⟨old, live, current⟩ := Option.map_eq_some_iff.1 shown
      refine ⟨old, live, ?_⟩
      rcases staged : d.staged? k with _ | s₁
      · rw [staged, Option.getD_none] at current
        exact current ▸ step
      · rw [staged, Option.getD_some] at current
        obtain ⟨old', live', before⟩ := moved.follows k s₁ staged
        rw [live] at live'
        cases live'
        exact trans (current ▸ before) step
    · exact moved.follows k s'' staged

/-- An operator that advances goes on with a draft as it should, as long as it is used at slots that may be touched. -/
theorem moved_preserves {op : Operator} {rule : StackingRule} (own : scene.player.kind = .player)
    (trans : ∀ {a b c}, next a b → next b c → next a c) (advances : op.Advances rule next carried)
    (here : Open scene touched slot) :
    op.Preserves rule (fun (d : Draft) item => d.Moved next touched scene ∧ carried item) slot := by
  rintro d item ⟨moved, h⟩
  have same : d.scene = scene := moved.frame.scene
  obtain ⟨c, s, shows⟩ := moved.frame.sound.shows (by rw [same, own]) (by rw [same]; exact here.1)
  have touch : touched c := here.2 c (by rw [← same]; exact shows.locate)
  obtain ⟨e?, answer, kept⟩ := advances s item h
  refine ⟨s, e?, shows.read moved.frame.sound, answer, fun e some => ?_⟩
  obtain ⟨step, h'⟩ := kept e some
  exact ⟨d.writeCell e.slot c, shows.write e.slot, moved.writeCell trans shows.view touch step, h'⟩

/-- If no stack follows on itself, a transfer's writes make a difference. -/
theorem Moved.edits (moved : d.Moved next touched scene) (differ : ∀ s, ¬ next s s)
    (covers : ∀ c old new, touched c → scene.at? c = some old → next old new → touched' c) :
    d.Edits scene touched' moves throws := by
  refine moved.frame.edits fun c s staged => ?_
  obtain ⟨old, live, step⟩ := moved.follows c s staged
  refine ⟨covers c old s (moved.frame.touched_of_staged staged) live step, fun same => ?_⟩
  rw [live] at same
  cases same
  exact differ s step

end Draft

namespace Menu

open Draft

variable {menu : Menu} {scene : Scene} {a b : Stack} {slot : Nat} {slots : List Nat}

/-- Filling goes on with two other stacks, if with any. -/
theorem ends_bind_of_fill {d : Draft} {limit : Int} {next : Option Exchange → DraftM Unit} {P : Unit → Draft → Prop}
    (h : ∀ e?, (∀ e, e? = some e → e.slot ≠ a ∧ e.incoming ≠ b) → Ends (next e?) d P) :
    Ends (StepM.ofExcept (Operator.fill limit .standard a b) >>= next) d P := by
  obtain ⟨e?, answer, moves⟩ := Operator.fill_moves limit a b
  rw [answer]
  refine ends_bind_of_run (run_ofExcept_ok e? d) (h e? fun e some => ?_)
  obtain ⟨m, pos, most, room, rfl⟩ := moves e some
  have more := (Stack.grown_fits pos room).2.1
  have fewer : (b.withCount ((b.count - m : Nat) : Int)).count = b.count - m :=
    Stack.count_withCount_of_le (Nat.sub_le ..)
  constructor
  · exact fun same => Nat.ne_of_gt more (congrArg Stack.count same)
  · exact fun same => absurd (fewer.symm.trans (congrArg Stack.count same)) (by omega)

section

variable (own : scene.player.kind = .player) (inside : slot < scene.slotCount)

include own inside

theorem write_edits {d : Draft} {touched : Cell → Prop} {moves throws : Bool}
    (edits : d.Edits scene touched moves throws) (touch : touched (scene.cell slot)) (differ : a ≠ scene.stackAt slot) :
    Ends (DraftM.write slot a) d fun _ d => d.Edits scene touched moves throws := by
  have live := Window.at?_cell own inside
  have shows := edits.sound.shows_cell (edits.same ▸ own) (edits.same ▸ inside)
  rw [edits.same] at shows
  refine ends_of_run (DraftM.run_write shows a) (edits.writeCell (Option.isSome_iff_exists.2 ⟨_, live⟩) touch ?_)
  rw [live]
  exact fun same => differ (Option.some.inj same).symm

theorem exchangeCursor_edits (differ : a ≠ scene.stackAt slot) (differ' : b ≠ scene.cursor) :
    Ends (exchangeCursor slot a b) { scene } fun _ d => d.Edits scene (scene.CellOf [slot]) true false :=
  (write_edits own inside (edits_start scene) ⟨slot, by simp, rfl⟩ differ).bind fun _ _ edits =>
    ends_of_run (DraftM.run_setCursor b _) (edits.setCursor differ')

/-- The clicked stack is read first. -/
theorem ends_bind_of_read {next : Stack → DraftM Unit} {P : Unit → Draft → Prop}
    (h : Ends (next (scene.stackAt slot)) { scene } P) : Ends (DraftM.read slot >>= next) { scene } P := by
  have sound := sound_start scene
  have shows := sound.shows_cell own inside
  rw [view_start] at shows
  exact ends_bind_of_run (DraftM.run_read sound shows) h

theorem leftClick_edits : Ends (leftClick .standard slot) { scene } fun _ d =>
    d.Edits scene (scene.CellOf [slot]) true false := by
  unfold leftClick
  apply ends_bind_of_run (DraftM.run_cursor _)
  apply ends_bind_of_read own inside
  apply ends_bind_of_fill
  rintro (_ | e) differ
  · simp only
    split
    · exact ends_pure (edits_start scene)
    · next other =>
      have differ := StackingRule.ne_of_canStack (by simpa using other)
      exact exchangeCursor_edits own inside differ differ.symm
  · exact exchangeCursor_edits own inside (differ e rfl).1 (differ e rfl).2

theorem rightClick_edits : Ends (rightClick .standard slot) { scene } fun _ d =>
    d.Edits scene (scene.CellOf [slot]) true false := by
  have cursor : ({ scene } : Draft).cursor = scene.cursor := rfl
  unfold rightClick
  apply ends_bind_of_run (DraftM.run_cursor _)
  apply ends_bind_of_read own inside
  rw [cursor]
  split
  · exact ends_pure (edits_start scene)
  split
  · rw [StackingRule.honest_standard.amount_succ]
    apply ends_bind_of_run (run_ofExcept_ok _ _)
    apply ends_bind_of_fill
    rintro (_ | e) differ
    · exact ends_pure (edits_start scene)
    · exact exchangeCursor_edits own inside (differ e rfl).2 (differ e rfl).1
  split
  · apply ends_bind_of_fill
    rintro (_ | e) differ
    · exact ends_pure (edits_start scene)
    · exact exchangeCursor_edits own inside (differ e rfl).1 (differ e rfl).2
  · next apart =>
    have differ : scene.stackAt slot ≠ scene.cursor := by
      apply StackingRule.ne_of_canStack
      rw [StackingRule.canShareSlot_standard_iff, not_or, not_or, Bool.not_eq_true (StackingRule.standard.canStack _ _)] at apart
      exact apart.2.2
    exact exchangeCursor_edits own inside differ.symm differ

theorem middleClick_edits : Ends (middleClick .standard slot) { scene } fun _ d =>
    d.Edits scene (fun _ => False) true false := by
  unfold middleClick
  apply ends_bind_of_read own inside
  apply ends_bind_of_run (DraftM.run_cursor _)
  have cursor : ({ scene } : Draft).cursor = scene.cursor := rfl
  rw [cursor]
  split
  · next copies =>
    simp only [Bool.and_eq_true, Bool.not_eq_true'] at copies
    refine ends_of_run (DraftM.run_setCursor _ _) ((edits_start scene).setCursor fun same => ?_)
    have size := (scene.stackAt slot).material.maxStack_pos
    have count : ((scene.stackAt slot).withCount (scene.stackAt slot).material.maxStack).count = _ :=
      Stack.count_withCount copies.2 _
    have none : scene.cursor.count = 0 := by simpa [Stack.isEmpty] using copies.1
    rw [StackingRule.withAmount_standard, StackingRule.maxSize_standard] at same
    rw [same] at count
    omega
  · exact ends_pure (edits_start scene)

theorem shiftClick_edits (standard : menu.rule = .standard) (routes : menu.Routes scene) :
    Ends (menu.shiftClick slot) { scene } fun _ d =>
      d.Edits scene (scene.CellOf (slot :: menu.shiftSlots { scene } (scene.stackAt slot) slot)) false false := by
  unfold shiftClick
  apply ends_bind_of_read own inside
  split
  · exact ends_pure (edits_start scene)
  apply ends_bind_of_run (run_get _)
  have opens : ∀ i ∈ (menu.shiftSlots { scene } (scene.stackAt slot) slot).filter (· != slot), Open scene
      (scene.CellOf (slot :: menu.shiftSlots { scene } (scene.stackAt slot) slot)) i := by
    intro i mem
    have routed := (List.mem_filter.1 mem).1
    exact open_of_mem (routes.shift { scene } _ slot rfl i routed) (List.mem_cons_of_mem _ routed)
  have fills := Operator.fill_advances Amount.unlimited
  rw [standard]
  have adds : Transfer.Preserves .standard (fun (d : Draft) _ => d.Moved Stack.Grows (scene.CellOf _) scene ∧ True)
      (.add _ _) :=
    ⟨fun i mem => moved_preserves own Stack.Grows.trans (fills.onlyIf Condition.slotFilled_answers) (opens i mem),
      fun i mem => moved_preserves own Stack.Grows.trans (fills.onlyIf Condition.slotEmpty_answers) (opens i mem)⟩
  apply Ends.bind (Transfer.run_preserves adds ⟨moved_start scene, trivial⟩)
  rintro rest d ⟨moved, -⟩
  have edits : d.Edits scene _ false false := moved.edits Stack.not_grows_self fun c _ _ touch _ _ => touch
  split
  · exact ends_pure edits
  · next differ =>
    exact write_edits own inside edits ⟨slot, by simp, rfl⟩ differ

end

section

variable {touched touched' : Cell → Prop} {next : Stack → Stack → Prop} {carried : Stack → Prop}

/-- What is left of the cursor after a transfer goes back to the cursor. -/
theorem transferCursor_edits {t : Transfer}
    (preserves : t.Preserves .standard fun (d : Draft) item => d.Moved next touched scene ∧ carried item)
    (h : carried scene.cursor) (differ : ∀ s, ¬ next s s)
    (covers : ∀ c old new, touched c → scene.at? c = some old → next old new → touched' c) :
    Ends (do
      let rest ← t.run .standard scene.cursor
      unless rest = scene.cursor do DraftM.setCursor rest) { scene } fun _ d => d.Edits scene touched' true false := by
  apply Ends.bind (Transfer.run_preserves preserves ⟨moved_start scene, h⟩)
  rintro rest d ⟨moved, -⟩
  split
  · exact ends_pure (moved.edits differ covers)
  · next other => exact ends_of_run (DraftM.run_setCursor rest d) ((moved.edits differ covers).setCursor other)

variable (own : scene.player.kind = .player)

include own

theorem spread_edits (inside : ∀ slot ∈ slots, slot < scene.slotCount) (perSlot : Int) :
    Ends (spread .standard perSlot slots) { scene } fun _ d => d.Edits scene (scene.CellOf slots) true false := by
  unfold spread
  apply ends_bind_of_run (DraftM.run_cursor _)
  split
  · exact ends_pure (edits_start scene)
  · have fills : Transfer.Preserves .standard (fun (d : Draft) _ => d.Moved Stack.Grows (scene.CellOf slots) scene ∧ True)
        (.sweep (.fill perSlot) slots) := fun i mem =>
      moved_preserves own Stack.Grows.trans (Operator.fill_advances perSlot) (open_of_mem (inside i mem) mem)
    exact transferCursor_edits fills trivial Stack.not_grows_self fun _ _ _ touch _ _ => touch

theorem leftDrag_edits (inside : ∀ slot ∈ slots, slot < scene.slotCount) :
    Ends (leftDrag .standard slots) { scene } fun _ d => d.Edits scene (scene.CellOf slots) true false := by
  unfold leftDrag
  split
  · exact ends_pure (edits_start scene)
  split
  · apply ends_bind_of_run (DraftM.run_cursor _)
    apply ends_bind_of_run (run_ofExcept_ok _ _)
    exact spread_edits own inside _
  · exact spread_edits own inside 0

theorem collectClick_edits (standard : menu.rule = .standard) (routes : menu.Routes scene) (slot : Nat) :
    Ends (menu.collectClick slot) { scene } fun _ d => d.Edits scene (menu.Touches scene (.collect slot)) true false := by
  have cursor : ({ scene } : Draft).cursor = scene.cursor := rfl
  unfold collectClick
  apply ends_bind_of_run (DraftM.run_cursor _)
  rw [cursor]
  split
  · exact ends_pure (edits_start scene)
  · next filled =>
    apply ends_bind_of_run (run_get _)
    rw [standard]
    have opens : ∀ i ∈ menu.collectSlots { scene } scene.cursor slot,
        Open scene (scene.CellOf (menu.collectSlots { scene } scene.cursor slot)) i :=
      fun i mem => open_of_mem (routes.collect { scene } scene.cursor slot rfl i mem) mem
    have collects := Operator.collect_advances Amount.unlimited scene.cursor
    have partial_ := collects.onlyIf (Condition.slotPartial_answers StackingRule.honest_standard)
    have full := collects.onlyIf (Condition.slotFull_answers StackingRule.honest_standard)
    have preserves : Transfer.Preserves .standard (fun (d : Draft) item =>
        d.Moved scene.cursor.Drains (scene.CellOf _) scene ∧ item.Holds scene.cursor) (.andThen (.sweep _ _) (.sweep _ _)) :=
      ⟨fun i mem => moved_preserves own Stack.Drains.trans partial_ (opens i mem),
        fun i mem => moved_preserves own Stack.Drains.trans full (opens i mem)⟩
    refine transferCursor_edits preserves ⟨by simpa using filled, rfl, rfl⟩ scene.cursor.not_drains_self ?_
    exact fun c old new touch live drains => ⟨touch, old, live, drains.1⟩

theorem middleDrag_edits (inside : ∀ slot ∈ slots, slot < scene.slotCount) :
    Ends (middleDrag slots) { scene } fun _ d => d.Edits scene (scene.CellOf slots) false false := by
  have ends := middleDrag_ends (scene.CellOf (slots.filter fun i => (scene.stackAt i).isEmpty)) own inside
    fun slot mem empty => ⟨slot, List.mem_filter.2 ⟨mem, empty⟩, rfl⟩
  apply ends.mono
  rintro ⟨⟩ d ⟨frame, copies, idle⟩
  have same : d.scene = scene := frame.scene
  rcases empty : scene.cursor.isEmpty
  swap
  · rw [idle (.inl empty)]
    exact edits_start scene
  -- what is staged is a copy of the cursor, in a cell that is empty
  refine frame.edits fun c s staged => ?_
  obtain ⟨i, mem, rfl⟩ := frame.touched_of_staged staged
  obtain ⟨mem, vacant⟩ := List.mem_filter.1 mem
  have copy := copies i
  rw [if_pos ⟨mem, vacant⟩, Window.stackAt, cell_view, same, frame.sound.at?_view_of_staged staged] at copy
  refine ⟨⟨i, mem, rfl⟩, fun live => ?_⟩
  rw [Window.at?_cell own (inside i mem)] at live
  cases live
  rw [Option.getD_some] at copy
  rw [copy, empty] at vacant
  cases vacant

/-- Equal stacks do not change places. -/
theorem swapWithPlayer_edits (inside : slot < scene.slotCount) {playerSlot : Nat}
    (mine : playerSlot < scene.player.slotCount) :
    Ends (swapWithPlayer slot playerSlot) { scene } fun _ d =>
      d.Edits scene (fun c => scene.CellOf [slot] c ∨ c = .player playerSlot) false false := by
  have has : scene.Has (.player playerSlot) := Inventory.get?_isSome_iff.2 mine
  obtain ⟨held, live⟩ := Option.isSome_iff_exists.1 has
  have shown : ({ scene } : Draft).view.at? (.player playerSlot) = some held := by rwa [view_start]
  unfold swapWithPlayer
  apply ends_bind_of_run (DraftM.run_readPlayer (sound_start scene) shown)
  apply ends_bind_of_read own inside
  split
  · exact ends_pure (edits_start scene)
  · next differ =>
    apply ends_bind_of_run (DraftM.run_writePlayer _)
    refine write_edits own inside ((edits_start scene).writeCell has (.inr rfl) ?_) (.inl ⟨slot, by simp, rfl⟩) differ
    rw [live]
    exact fun same => differ (Option.some.inj same)

end

/-- A part that is split off is not empty, and what is left is less. -/
theorem split_differs (s : Stack) (amount : Int) : ∃ r, split .standard s amount = .ok r ∧
    ∀ part rest, r = some (part, rest) → part.isEmpty = false ∧ rest ≠ s := by
  obtain ⟨r, answer, parts⟩ := split_parts StackingRule.honest_standard s amount
  refine ⟨r, answer, fun part rest some => ?_⟩
  obtain ⟨filled, n, pos, most, rfl, rfl⟩ := parts part rest some
  have count := Stack.count_withCount_of_le most
  have left : (s.withCount ((s.count : Int) - n)).count = s.count - n := by
    rw [← Int.ofNat_sub most]
    exact Stack.count_withCount_of_le (Nat.sub_le ..)
  constructor
  · rw [Stack.isEmpty_eq_false_iff]
    omega
  · exact fun same => absurd (left.symm.trans (congrArg Stack.count same)) (by omega)

theorem dropFromCursor_edits (amount : Int) : Ends (dropFromCursor .standard amount) { scene } fun _ d =>
    d.Edits scene (fun _ => False) true true := by
  obtain ⟨r, answer, differs⟩ := split_differs scene.cursor amount
  have cursor : ({ scene } : Draft).cursor = scene.cursor := rfl
  unfold dropFromCursor
  apply ends_bind_of_run (DraftM.run_cursor _)
  rw [cursor, answer]
  apply ends_bind_of_run (run_ofExcept_ok r _)
  rcases r with _ | ⟨part, rest⟩
  · exact ends_pure (edits_start scene)
  · obtain ⟨filled, differ⟩ := differs part rest rfl
    apply ends_bind_of_run (DraftM.run_setCursor rest _)
    exact ends_of_run (DraftM.run_drop part _) (((edits_start scene).setCursor differ).drop filled)

theorem dropFromSlot_edits (own : scene.player.kind = .player) (inside : slot < scene.slotCount) (amount : Int) :
    Ends (dropFromSlot .standard slot amount) { scene } fun _ d => d.Edits scene (scene.CellOf [slot]) false true := by
  obtain ⟨r, answer, differs⟩ := split_differs (scene.stackAt slot) amount
  unfold dropFromSlot
  apply ends_bind_of_read own inside
  rw [answer]
  apply ends_bind_of_run (run_ofExcept_ok r _)
  rcases r with _ | ⟨part, rest⟩
  · exact ends_pure (edits_start scene)
  · obtain ⟨filled, differ⟩ := differs part rest rfl
    have written : Ends (DraftM.write slot rest) { scene } fun _ d => d.Edits scene (scene.CellOf [slot]) false true :=
      write_edits own inside (edits_start scene) ⟨slot, by simp, rfl⟩ differ
    exact written.bind fun _ d edits => ends_of_run (DraftM.run_drop part d) (edits.drop filled)

/-- **Edits.** Every action but a creative write comes to its end with edits: it stages only what may be staged, and nothing
that is there already. -/
theorem perform_edits {a : Action} (standard : menu.rule = .standard) (routes : menu.Routes scene)
    (own : scene.player.kind = .player) (inside : ∀ slot ∈ a.slots, slot < scene.slotCount)
    (moves : ∀ slot s, a ≠ .creativeSet slot s)
    (key : ∀ hotbar slot, a = .hotbarSwap hotbar slot → PlayerLayout.hotbarSlot hotbar < scene.player.slotCount) :
    Ends (menu.perform a) { scene } fun _ d => d.Edits scene (menu.Touches scene a) a.movesCursor a.throws := by
  have clicked {slot : Nat} (named : a.slots = [slot]) : slot < scene.slotCount := by
    apply inside
    simp [named]
  have mine : PlayerLayout.offhand < scene.player.slotCount := by
    rw [Inventory.slotCount, own]
    decide
  have shift (slot : Nat) (below : slot < scene.slotCount) := shiftClick_edits own below standard routes
  have collect := collectClick_edits own standard routes
  unfold perform
  rw [standard]
  cases a with
  | click button slot =>
    cases button with
    | left => exact leftClick_edits own (clicked rfl)
    | right => exact rightClick_edits own (clicked rfl)
    | middle => exact middleClick_edits own (clicked rfl)
  | shift secondary slot => exact shift slot (clicked rfl)
  | collect slot => exact collect slot
  | drag button slots =>
    cases button with
    | left => exact leftDrag_edits own inside
    | right => exact spread_edits own inside 1
    | middle => exact middleDrag_edits own inside
  | dropCursor button =>
    cases button with
    | left =>
      apply ends_bind_of_run (DraftM.run_cursor _)
      apply ends_bind_of_run (run_ofExcept_ok _ _)
      exact dropFromCursor_edits _
    | right => exact dropFromCursor_edits 1
    | middle => exact ends_pure (edits_start scene)
  | dropSlot slot all =>
    cases all with
    | true =>
      apply ends_bind_of_read own (clicked rfl)
      apply ends_bind_of_run (run_ofExcept_ok _ _)
      exact dropFromSlot_edits own (clicked rfl) _
    | false => exact dropFromSlot_edits own (clicked rfl) 1
  | hotbarSwap hotbar slot => exact swapWithPlayer_edits own (clicked rfl) (key hotbar slot rfl)
  | offhandSwap slot => exact swapWithPlayer_edits own (clicked rfl) mine
  | creativeSet slot s => exact absurd rfl (moves slot s)
  | creativeDrop s =>
    show Ends (unless s.isEmpty do DraftM.drop s) _ _
    split
    · exact ends_pure (edits_start scene)
    · next filled => exact ends_of_run (DraftM.run_drop s _) ((edits_start scene).drop (by simpa using filled))

/-- A creative write stages what it names, also if it is there already. -/
theorem perform_within {a : Action} (standard : menu.rule = .standard) (routes : menu.Routes scene)
    (own : scene.player.kind = .player) (inside : ∀ slot ∈ a.slots, slot < scene.slotCount)
    (key : ∀ hotbar slot, a = .hotbarSwap hotbar slot → PlayerLayout.hotbarSlot hotbar < scene.player.slotCount) :
    Ends (menu.perform a) { scene } fun _ d => d.Within scene (menu.Touches scene a) a.movesCursor a.throws := by
  by_cases creative : ∃ slot s, a = .creativeSet slot s
  · obtain ⟨slot, s, rfl⟩ := creative
    have below := inside slot (by simp [Action.slots])
    have has := Option.isSome_iff_exists.2 ⟨_, Window.at?_cell own below⟩
    have shows := (sound_start scene).shows_cell own below
    exact ends_of_run (DraftM.run_write shows s) ((within_start scene).writeCell has ⟨slot, by simp, rfl⟩)
  · have edits := perform_edits standard routes own inside (fun slot s same => creative ⟨slot, s, same⟩) key
    exact edits.mono fun _ _ edits => edits.toWithin

end Menu

end InventoryClicks
