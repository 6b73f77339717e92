import InventoryClicks.Proofs.Process
import InventoryClicks.Proofs.Turn

/-!
# Working on a draft is working on the cells

The operations of a draft are compared with the same operations made at once on the cells of its scene, where a window
slot past the container's and the main slot of the player that it shows are one cell. Reads answer the same either way
(`Draft.Mirrors.run`), and what the draft stages, once applied, is what the direct operations leave: every cell holds
the stack that was written to it last (`at?_directAll`).
-/

namespace InventoryClicks

namespace Window

/-- The cell that a window slot is: the container's slots come first, the main slots of the player after them. -/
def cell (w : Window) (slot : Nat) : Cell :=
  match w.container with
  | some c =>
    if slot < c.slotCount then .container slot else .player (slot - c.slotCount + PlayerLayout.mainStart)
  | none => .player slot

theorem cell_of_locate {w : Window} {slot : Nat} {c : Cell} (located : w.locate slot = .ok c) : w.cell slot = c := by
  unfold locate at located
  unfold cell
  rcases open_ : w.container with _ | inv
  · rw [open_] at located
    cases located
    rfl
  · rw [open_] at located
    simp only at located ⊢
    split at located
    · next upper =>
      cases located
      rw [if_pos upper]
    · next lower =>
      rw [if_neg lower]
      rcases below : PlayerLayout.ofWindowSlot inv.kind slot with e | main
      · rw [below] at located
        cases located
      · rw [below] at located
        cases located
        rw [(eq_of_ofWindowSlot below).2]
        rfl

theorem read_cell {w : Window} (own : w.player.kind = .player) {slot : Nat} (inside : slot < w.slotCount) :
    ∃ s, w.at? (w.cell slot) = some s ∧ w.read slot = .ok s := by
  obtain ⟨c, located, has⟩ := locate_has own inside
  obtain ⟨s, here⟩ := Option.isSome_iff_exists.1 has
  refine ⟨s, by rw [cell_of_locate located, here], ?_⟩
  rw [read, located]
  exact readCell_of_at? here

end Window

/-- Slots are written like cells: a slot that does not exist stays so. -/
theorem Inventory.get?_set_eq_map (inv : Inventory) (i j : Nat) (s : Stack) :
    (inv.set i s).get? j = (inv.get? j).map fun old => if j = i then s else old := by
  rw [get?_set]
  by_cases same : j = i
  · subst same
    by_cases inside : j < inv.slotCount
    · obtain ⟨old, here⟩ := Option.isSome_iff_exists.1 (get?_isSome_iff.2 inside)
      simp [inside, here]
    · have none_here : inv.get? j = none := by
        rw [← Option.not_isSome_iff_eq_none, get?_isSome_iff]
        exact inside
      simp [inside, none_here]
  · simp [same]

namespace Scene

theorem at?_setCell (scene : Scene) (s : Stack) (c k : Cell) :
    (scene.setCell s c).at? k = (scene.at? k).map fun old => if k = c then s else old := by
  cases c with
  | container slot =>
    cases k with
    | container j =>
      rcases open_ : scene.container with _ | inv
      · simp [setCell, Window.at?, open_]
      · simp [setCell, Window.at?, open_, Inventory.get?_set_eq_map]
    | player j => simp [setCell, Window.at?]
  | player slot =>
    cases k with
    | container j => simp [setCell, Window.at?]
    | player j => simp [setCell, Window.at?, Inventory.get?_set_eq_map]

@[simp] theorem cursor_setCell (scene : Scene) (s : Stack) (c : Cell) : (scene.setCell s c).cursor = scene.cursor := by
  cases c <;> rfl

theorem cell_setCell (scene : Scene) (s : Stack) (c : Cell) (slot : Nat) :
    (scene.setCell s c).cell slot = scene.cell slot := by
  cases c with
  | container i =>
    simp only [setCell, Window.cell]
    rcases scene.container with _ | inv <;> rfl
  | player i => rfl

theorem overwrite_empty (scene : Scene) : scene.overwrite {} = scene := by
  rcases open_ : scene.container with _ | inv
  · rw [overwrite_own open_]
    simp [← open_]
  · rw [overwrite_container open_]
    simp [← open_]

theorem slotCount_overwrite (scene : Scene) (o : Outcome) : (scene.overwrite o).slotCount = scene.slotCount := by
  simp only [overwrite, Window.slotCount]
  rcases scene.container with _ | inv <;> rfl

end Scene

/-- Who throws what, if the effect throws a stack. -/
def Effect.drop? : Effect → Option (Nat × Stack)
  | .drop player stack => some (player, stack)
  | _ => none

/-- Committing an outcome throws the stacks that reach the world, whatever the hooks after it do. -/
theorem Turn.commit_drops {o : Outcome} {t : Turn} (setup : Setup) (who : Clicker) (action : Action) (replaced : Bool)
    (fits : o.Fits t.scene.toWindow) :
    ∃ answer report, (commit setup who action o replaced).outcome t = (answer, t.after (t.scene.overwrite o) report) ∧
      report.effects.filterMap Effect.drop? = o.thrown.map (who.player, ·) := by
  have thrown : (o.thrown.map (Effect.drop who.player)).filterMap Effect.drop? = o.thrown.map (who.player, ·) := by
    rw [List.filterMap_map, ← List.filterMap_eq_map]
    rfl
  rcases outcome_commit setup who action replaced fits with ⟨r, run, effects, -⟩ | ⟨e, r, -, run, effects⟩
  · refine ⟨_, r, run, ?_⟩
    rw [effects, List.filterMap_append, List.filterMap_append, thrown]
    cases replaced <;> simp [Effect.drop?]
  · exact ⟨_, r, run, by rw [effects, thrown]⟩

namespace Draft

/-- A use of a draft. -/
inductive Op where
  | read (slot : Nat)
  | write (slot : Nat) (s : Stack)
  | readPlayer (slot : Nat)
  | writePlayer (slot : Nat) (s : Stack)
  | cursor
  | setCursor (s : Stack)
  | drop (s : Stack)
  deriving DecidableEq

/-- A scene that is written at once, and the stacks thrown out of it so far. -/
structure Live where
  scene : Scene
  dropped : List Stack := []
  deriving DecidableEq

namespace Op

/-- The slot exists in the window, or in a player's inventory. -/
def Within (w : Window) : Op → Prop
  | read slot | write slot _ => slot < w.slotCount
  | readPlayer slot | writePlayer slot _ => slot < Inventory.Kind.player.slotCount
  | cursor | setCursor _ | drop _ => True

instance (w : Window) : (op : Op) → Decidable (op.Within w)
  | read slot | write slot _ => inferInstanceAs (Decidable (slot < w.slotCount))
  | readPlayer slot | writePlayer slot _ => inferInstanceAs (Decidable (slot < Inventory.Kind.player.slotCount))
  | cursor | setCursor _ | drop _ => inferInstanceAs (Decidable True)

/-- The operation on a draft. Reads answer what they saw. -/
def stage : Op → DraftM (Option Stack)
  | read slot => return some (← DraftM.read slot)
  | write slot s => do
    DraftM.write slot s
    return none
  | readPlayer slot => return some (← DraftM.readPlayer slot)
  | writePlayer slot s => do
    DraftM.writePlayer slot s
    return none
  | cursor => return some (← DraftM.cursor)
  | setCursor s => do
    DraftM.setCursor s
    return none
  | drop s => do
    DraftM.drop s
    return none

def stageAll : List Op → DraftM (List (Option Stack))
  | [] => return []
  | op :: ops => do
    let answer ← op.stage
    return answer :: (← stageAll ops)

/-- The operation on the cells themselves. -/
def direct (live : Live) : Op → Option Stack × Live
  | read slot => (live.scene.at? (live.scene.cell slot), live)
  | write slot s => (none, { live with scene := live.scene.setCell s (live.scene.cell slot) })
  | readPlayer slot => (live.scene.at? (.player slot), live)
  | writePlayer slot s => (none, { live with scene := live.scene.setCell s (.player slot) })
  | cursor => (some live.scene.cursor, live)
  | setCursor s => (none, { live with scene := { live.scene with cursor := s } })
  | drop s => (none, { live with dropped := live.dropped ++ [s] })

def directAll (live : Live) : List Op → List (Option Stack) × Live
  | [] => ([], live)
  | op :: ops =>
    let (answer, live) := op.direct live
    let (answers, live) := directAll live ops
    (answer :: answers, live)

/-- The stack that the operation writes to the cell. -/
def writes? (w : Window) (c : Cell) : Op → Option Stack
  | write slot s => if w.cell slot = c then some s else none
  | writePlayer slot s => if .player slot = c then some s else none
  | _ => none

def setsCursor? : Op → Option Stack
  | setCursor s => some s
  | _ => none

def drops? : Op → Option Stack
  | drop s => some s
  | _ => none

/-- What the last operation that stores a stack there stores. -/
def last? (stores : Op → Option Stack) (ops : List Op) : Option Stack := (ops.filterMap stores).getLast?

theorem getD_last?_cons (stores : Op → Option Stack) (op : Op) (ops : List Op) (old : Stack) :
    (last? stores (op :: ops)).getD old = (last? stores ops).getD ((stores op).getD old) := by
  unfold last?
  rcases stored : stores op with _ | s
  · rw [List.filterMap_cons_none stored, Option.getD_none]
  · rw [List.filterMap_cons_some stored, List.getLast?_cons, Option.getD_some, Option.getD_some]

section

variable (op : Op) (ops : List Op) (live : Live)

theorem cell_direct (slot : Nat) : (op.direct live).2.scene.cell slot = live.scene.cell slot := by
  cases op with
  | write i s => exact Scene.cell_setCell _ _ _ _
  | writePlayer i s => exact Scene.cell_setCell _ _ _ _
  | _ => rfl

theorem at?_direct (c : Cell) :
    (op.direct live).2.scene.at? c = (live.scene.at? c).map fun old => (op.writes? live.scene.toWindow c).getD old := by
  cases op with
  | write slot s | writePlayer slot s =>
    simp only [direct, writes?, Scene.at?_setCell, eq_comm (a := c)]
    congr 1
    funext old
    split <;> rfl
  | _ => simp [direct, writes?]

theorem cursor_direct : (op.direct live).2.scene.cursor = op.setsCursor?.getD live.scene.cursor := by
  cases op <;> simp [direct, setsCursor?]

theorem dropped_direct : (op.direct live).2.dropped = live.dropped ++ op.drops?.toList := by
  cases op <;> simp [direct, drops?]

end

/-- What a sequence of operations leaves, and the operations that decided it. -/
theorem at?_directAll (c : Cell) (ops : List Op) (live : Live) :
    (directAll live ops).2.scene.at? c =
      (live.scene.at? c).map fun old => (last? (writes? live.scene.toWindow c) ops).getD old := by
  induction ops generalizing live with
  | nil => simp [directAll, last?]
  | cons op ops ih =>
    have window : writes? (op.direct live).2.scene.toWindow c = writes? live.scene.toWindow c := by
      funext op'
      cases op' <;> simp only [writes?, cell_direct]
    simp only [directAll, ih, at?_direct, window, Option.map_map, getD_last?_cons]
    rfl

theorem cursor_directAll (ops : List Op) (live : Live) :
    (directAll live ops).2.scene.cursor = (last? setsCursor? ops).getD live.scene.cursor := by
  induction ops generalizing live with
  | nil => rfl
  | cons op ops ih => simp only [directAll, ih, cursor_direct, getD_last?_cons]

theorem dropped_directAll (ops : List Op) (live : Live) :
    (directAll live ops).2.dropped = live.dropped ++ ops.filterMap drops? := by
  induction ops generalizing live with
  | nil => simp [directAll]
  | cons op ops ih =>
    simp only [directAll, ih, dropped_direct, List.filterMap_cons, List.append_assoc]
    cases op.drops? <;> rfl

end Op

open StepM

variable {scene : Scene} {d : Draft} {live : Live} {op : Op} {ops : List Op}

/-- The draft, over the scene it began with, shows what the live scene is. -/
structure Mirrors (scene : Scene) (d : Draft) (live : Live) : Prop where
  scene : d.scene = scene
  sound : d.Sound
  view : d.view = live.scene
  dropped : d.outcome.dropped = live.dropped

theorem mirrors_start (scene : Scene) : Mirrors scene { scene } { scene } :=
  ⟨rfl, sound_start scene, scene.overwrite_empty, rfl⟩

theorem cell_view (d : Draft) (slot : Nat) : d.view.cell slot = d.scene.cell slot := by
  simp only [view, Scene.overwrite, Window.cell]
  rcases d.scene.container with _ | inv <;> rfl

theorem Mirrors.cell (mirrors : Mirrors scene d live) (slot : Nat) : live.scene.cell slot = d.scene.cell slot := by
  rw [← mirrors.view, cell_view]

theorem Mirrors.shows (mirrors : Mirrors scene d live) (own : scene.player.kind = .player) {slot : Nat}
    (inside : slot < scene.slotCount) : ∃ s, d.Shows slot (d.scene.cell slot) s := by
  rw [← mirrors.scene] at own inside
  obtain ⟨c, s, shows⟩ := mirrors.sound.shows own inside
  rw [← Window.cell_of_locate shows.locate] at shows
  exact ⟨s, shows⟩

theorem Mirrors.shows_player (mirrors : Mirrors scene d live) (own : scene.player.kind = .player) {slot : Nat}
    (inside : slot < Inventory.Kind.player.slotCount) : ∃ s, d.view.at? (.player slot) = some s := by
  have here : slot < d.scene.player.slotCount := by
    rw [mirrors.scene, Inventory.slotCount, own]
    exact inside
  obtain ⟨old, get⟩ := Option.isSome_iff_exists.1 (Inventory.get?_isSome_iff.2 here)
  refine ⟨(d.staged? (.player slot)).getD old, ?_⟩
  rw [mirrors.sound.at?_view, show d.scene.at? (.player slot) = some old from get, Option.map_some]

theorem Mirrors.writeCell (mirrors : Mirrors scene d live) {c : Cell} (has : d.scene.Has c) (s : Stack) :
    Mirrors scene (d.writeCell s c) { live with scene := live.scene.setCell s c } where
  scene := by rw [scene_writeCell, mirrors.scene]
  sound := mirrors.sound.writeCell has s
  view := by rw [view_writeCell has, mirrors.view]
  dropped := by rw [dropped_writeCell, mirrors.dropped]

/-- One operation on a draft answers what it answers on the cells. -/
theorem Mirrors.step (mirrors : Mirrors scene d live) (own : scene.player.kind = .player)
    (within : op.Within scene.toWindow) :
    Ends op.stage d fun answer d' => answer = (op.direct live).1 ∧ Mirrors scene d' (op.direct live).2 := by
  cases op with
  | read slot =>
    obtain ⟨s, shows⟩ := mirrors.shows own within
    have live_at : live.scene.at? (live.scene.cell slot) = some s := by
      rw [mirrors.cell, ← mirrors.view]
      exact shows.view
    apply ends_bind_of_run (DraftM.run_read mirrors.sound shows)
    exact ends_pure ⟨live_at.symm, mirrors⟩
  | write slot s =>
    obtain ⟨old, shows⟩ := mirrors.shows own within
    apply ends_bind_of_run (DraftM.run_write shows s)
    refine ends_pure ⟨rfl, ?_⟩
    simp only [Op.direct, mirrors.cell]
    exact mirrors.writeCell (mirrors.sound.has shows.view) s
  | readPlayer slot =>
    obtain ⟨s, shown⟩ := mirrors.shows_player own within
    have live_at : live.scene.at? (.player slot) = some s := by
      rw [← mirrors.view]
      exact shown
    apply ends_bind_of_run (DraftM.run_readPlayer mirrors.sound shown)
    exact ends_pure ⟨live_at.symm, mirrors⟩
  | writePlayer slot s =>
    obtain ⟨old, shown⟩ := mirrors.shows_player own within
    apply ends_bind_of_run (DraftM.run_writePlayer s)
    exact ends_pure ⟨rfl, mirrors.writeCell (mirrors.sound.has shown) s⟩
  | cursor =>
    apply ends_bind_of_run (DraftM.run_cursor d)
    refine ends_pure ⟨?_, mirrors⟩
    rw [Op.direct, ← mirrors.view]
    rfl
  | setCursor s =>
    apply ends_bind_of_run (DraftM.run_setCursor s d)
    refine ends_pure ⟨rfl, mirrors.scene, mirrors.sound, ?_, mirrors.dropped⟩
    simp only [Op.direct, ← mirrors.view]
    rfl
  | drop s =>
    apply ends_bind_of_run (DraftM.run_drop s d)
    refine ends_pure ⟨rfl, mirrors.scene, mirrors.sound, mirrors.view, ?_⟩
    simp only [Op.direct, ← mirrors.dropped]
    rfl

/-- Operations on a draft answer what they answer on the cells, and the draft goes on showing these. -/
theorem Mirrors.run (mirrors : Mirrors scene d live) (own : scene.player.kind = .player)
    (within : ∀ op ∈ ops, op.Within scene.toWindow) :
    Ends (Op.stageAll ops) d fun answers d' =>
      answers = (Op.directAll live ops).1 ∧ Mirrors scene d' (Op.directAll live ops).2 := by
  induction ops generalizing d live with
  | nil => exact ends_pure ⟨rfl, mirrors⟩
  | cons op ops ih =>
    apply (mirrors.step own (within op (by simp))).bind
    rintro answer d' ⟨same, mirrors'⟩
    apply (ih mirrors' fun op' mem => within op' (by simp [mem])).bind
    rintro answers d'' ⟨rest, mirrors''⟩
    exact ends_pure ⟨by rw [same, rest]; rfl, mirrors''⟩

/-- Every cell of `scene'` holds the stack that the operations wrote to it last, or what it held in `scene`. -/
structure Written (scene : Scene) (ops : List Op) (scene' : Scene) : Prop where
  cells : ∀ c, scene'.at? c = (scene.at? c).map fun old => (Op.last? (Op.writes? scene.toWindow c) ops).getD old
  window : ∀ slot < scene.slotCount, ∃ old, scene.read slot = .ok old ∧
    scene'.read slot = .ok ((Op.last? (Op.writes? scene.toWindow (scene.cell slot)) ops).getD old)
  cursor : scene'.cursor = (Op.last? Op.setsCursor? ops).getD scene.cursor

theorem Mirrors.written (mirrors : Mirrors scene d (Op.directAll { scene } ops).2) (own : scene.player.kind = .player) :
    Written scene ops d.view where
  cells c := by rw [mirrors.view, Op.at?_directAll]
  window slot inside := by
    obtain ⟨old, here, read⟩ := Window.read_cell own inside
    have own' : d.view.player.kind = .player := by
      rw [Draft.view, (d.scene.kinds_overwrite _).1, mirrors.scene, own]
    have inside' : slot < d.view.slotCount := by
      rwa [Draft.view, Scene.slotCount_overwrite, mirrors.scene]
    obtain ⟨new, here', read'⟩ := Window.read_cell own' inside'
    rw [mirrors.view, Op.at?_directAll, ← mirrors.view, cell_view, mirrors.scene, here, Option.map_some,
      Option.some.injEq] at here'
    exact ⟨old, read, by rw [read', ← here']⟩
  cursor := by rw [mirrors.view, Op.cursor_directAll]

/-- **Staging.** Operations on a draft read what the same operations on the cells read, and leave the scene alone. The
outcome that they stage, when it is applied, writes to every cell what was written there last, and throws the dropped
stacks in order, but for empty ones. -/
theorem run_stageAll (scene : Scene) (own : scene.player.kind = .player) (ops : List Op)
    (within : ∀ op ∈ ops, op.Within scene.toWindow) :
    ∃ d scene', (Op.stageAll ops).run { scene } = .ok (Op.directAll { scene } ops).1 d ∧
      d.scene = scene ∧
      d.outcome.apply.run scene = .ok ⟨⟩ scene' ∧
      (Op.directAll { scene } ops).2.scene = scene' ∧
      Written scene ops scene' ∧
      ∀ setup who action replaced (t : Turn), t.scene = scene →
        ∃ answer report, (Turn.commit setup who action d.outcome replaced).outcome t = (answer, t.after scene' report) ∧
          report.effects.filterMap Effect.drop? =
            ((ops.filterMap Op.drops?).filter (!·.isEmpty)).map (who.player, ·) := by
  obtain ⟨answers, d, run, same, mirrors⟩ := (mirrors_start scene).run own within
  have fits : d.outcome.Fits scene.toWindow := by
    rw [← mirrors.scene]
    exact mirrors.sound.fits
  have view : d.view = scene.overwrite d.outcome := by rw [view, mirrors.scene]
  have thrown : d.outcome.thrown = (ops.filterMap Op.drops?).filter (!·.isEmpty) := by
    rw [Outcome.thrown, mirrors.dropped, Op.dropped_directAll, List.nil_append]
  refine ⟨d, d.view, by rw [run, same], mirrors.scene, ?_, mirrors.view.symm, mirrors.written own, ?_⟩
  · rw [view]
    exact Outcome.run_apply fits
  · rintro setup who action replaced t rfl
    rw [view, ← thrown]
    exact Turn.commit_drops setup who action replaced fits

/-- Below another player's inventory, window slot 46 is slot 9 of the player: a stack written to one is read from both,
and an empty one is not thrown. -/
theorem run_stageAll_shared :
    let scene : Scene := { player := .empty .player, container := some (.empty .player), cursor := .single .stone }
    let ops : List Op := [.write 46 (.single .coal), .readPlayer 9, .writePlayer 9 (.single .stick), .read 46, .cursor,
      .setCursor .empty, .cursor, .write 45 (.single .egg), .read 45, .drop .empty, .drop (.single .stone)]
    (Op.directAll { scene } ops).1 =
        [none, some (.single .coal), none, some (.single .stick), some (.single .stone), none, some .empty, none,
          some (.single .egg), none, none] ∧
      ∃ d scene', (Op.stageAll ops).run { scene } = .ok (Op.directAll { scene } ops).1 d ∧
        d.outcome.apply.run scene = .ok ⟨⟩ scene' ∧ scene'.at? (.player 9) = some (.single .stick) ∧
        scene'.at? (.container 45) = some (.single .egg) ∧ scene'.at? (.player 45) = some .empty ∧
        ∀ action (t : Turn), t.scene = scene →
          ∃ answer report, (Turn.commit {} ⟨7, .survival⟩ action d.outcome false).outcome t =
              (answer, t.after scene' report) ∧
            report.effects.filterMap Effect.drop? = [(7, .single .stone)] := by
  intro scene ops
  have within : ∀ op ∈ ops, op.Within scene.toWindow := by decide
  obtain ⟨d, scene', run, -, apply, -, written, throws⟩ := run_stageAll scene rfl ops within
  refine ⟨by decide, d, scene', run, apply, ?_, ?_, ?_, fun action t here => ?_⟩
  · rw [written.cells]
    decide
  · rw [written.cells]
    decide
  · rw [written.cells]
    decide
  · obtain ⟨answer, report, commits, thrown⟩ := throws {} ⟨7, .survival⟩ action false t here
    exact ⟨answer, report, commits, thrown.trans (by decide)⟩

end Draft

end InventoryClicks
