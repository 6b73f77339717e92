import InventoryClicks.Click.Turn
import InventoryClicks.Proofs.Hooks
import InventoryClicks.Proofs.Scene

/-!
# How a turn ends

A turn on a decoded action ends in one of four ways (`Turn.Ending`). A fault may stop it while nothing has been
written; it may be refused, for one of four reasons; its outcome may be written over the scene; and after that a hook
may still stop it. `run_ending` says that there is no other way, and what the turn has added to its report in each.
-/

namespace InventoryClicks

instance : Append Report := ⟨fun a b => ⟨a.effects ++ b.effects, a.notices ++ b.notices, a.calls ++ b.calls⟩⟩

namespace Report

theorem append_def (a b : Report) : a ++ b = ⟨a.effects ++ b.effects, a.notices ++ b.notices, a.calls ++ b.calls⟩ := rfl

@[simp] theorem effects_append (a b : Report) : (a ++ b).effects = a.effects ++ b.effects := rfl

@[simp] theorem calls_append (a b : Report) : (a ++ b).calls = a.calls ++ b.calls := rfl

theorem append_assoc (a b c : Report) : a ++ b ++ c = a ++ (b ++ c) := by
  simp only [append_def, List.append_assoc]

/-- No hook was called that runs after an outcome is applied. -/
def Quiet (r : Report) : Prop := ∀ c ∈ r.calls, c.stage ≠ .post

theorem Quiet.append {a b : Report} (ha : a.Quiet) (hb : b.Quiet) : (a ++ b).Quiet := by
  intro c mem
  rcases List.mem_append.1 mem with h | h
  · exact ha c h
  · exact hb c h

theorem quiet_of_calls_eq_nil {r : Report} (h : r.calls = []) : r.Quiet := by
  simp [Quiet, h]

end Report

namespace Turn

/-- The turn in another scene, with more in its report. -/
def after (t : Turn) (scene : Scene) (r : Report) : Turn := { t with scene, report := t.report ++ r }

theorem after_after (t : Turn) (s s' : Scene) (a b : Report) : (t.after s a).after s' b = t.after s' (a ++ b) := by
  simp only [after, Report.append_assoc]

theorem after_empty (t : Turn) : t.after t.scene {} = t := by
  simp only [after, Report.append_def, List.append_nil]

@[simp] theorem scene_after (t : Turn) (scene : Scene) (r : Report) : (t.after scene r).scene = scene := rfl

end Turn

namespace TurnM

open StepM

variable {t : Turn} {who : Clicker} {o : Outcome}

theorem outcome_emit (effects : List Effect) : (emit effects).outcome t = (.ok ⟨⟩, t.after t.scene { effects }) := by
  simp only [emit, outcome_modify, Turn.after, Report.append_def, List.append_nil]

theorem outcome_log (notices : List Notice) : (log notices).outcome t = (.ok ⟨⟩, t.after t.scene { notices }) := by
  simp only [log, outcome_modify, Turn.after, Report.append_def, List.append_nil]

theorem outcome_context : (context who).outcome t = (.ok ⟨who.player, who.mode, t.scene⟩, t) := rfl

theorem outcome_withTrace {α : Type} {m : Hooks.TraceM α} {r : Except Fault α} {calls : List HookCall}
    (h : m.outcome t.report.calls = (r, t.report.calls ++ calls)) :
    (withTrace m).outcome t = (r, t.after t.scene { calls }) := by
  simp only [withTrace, outcome_focus, h, Turn.after, Report.append_def, List.append_nil]

theorem outcome_pre (t : Turn) (hooks : Hooks) (cx : Context) (action : Action) :
    ∃ r : Report, (withTrace (hooks.runPre cx action)).outcome t =
      (hooks.preVerdict cx action, t.after t.scene r) ∧ r.Quiet ∧ r.effects = [] := by
  obtain ⟨calls, run, quiet⟩ := Hooks.outcome_runPre hooks cx action t.report.calls
  exact ⟨{ calls }, outcome_withTrace run, quiet, rfl⟩

theorem outcome_click (t : Turn) (hooks : Hooks) (cx : Context) (action : Action) (o : Outcome) :
    ∃ r : Report, (withTrace (hooks.runClick cx action o)).outcome t =
      (hooks.clickVerdict cx action o, t.after t.scene r) ∧ r.Quiet ∧ r.effects = [] := by
  obtain ⟨calls, run, quiet⟩ := Hooks.outcome_runClick hooks cx action o t.report.calls
  exact ⟨{ calls }, outcome_withTrace run, quiet, rfl⟩

theorem outcome_abandon (t : Turn) (who : Clicker) (why : Notice) :
    ∃ r : Report, (abandon who why).outcome t = (.ok none, t.after t.scene r) ∧
      r.Quiet ∧ r.effects = [.resync who.player] := by
  refine ⟨{ notices := [why] } ++ { effects := [.resync who.player] }, ?_, ?_, rfl⟩
  · unfold abandon
    rw [outcome_bind_ok (outcome_log _), outcome_bind_ok (outcome_emit _), outcome_pure, Turn.after_after]
    rfl
  · exact Report.quiet_of_calls_eq_nil rfl

theorem outcome_apply (fits : o.Fits t.scene.toWindow) :
    (withScene o.apply).outcome t = (.ok ⟨⟩, t.after (t.scene.overwrite o) {}) := by
  rw [withScene, outcome_focus, outcome_of_run (Outcome.run_apply fits)]
  simp only [Turn.after, Report.append_def, List.append_nil]

end TurnM

namespace Turn

open StepM

/-- What a turn takes place under. -/
structure Setting where
  setup : Setup
  menu : Menu
  who : Clicker
  scene : Scene

namespace Setting

variable (g : Setting)

/-- What hooks are shown before the scene changes. -/
def context : Context := ⟨g.who.player, g.who.mode, g.scene⟩

@[simp] theorem scene_context : g.context.scene = g.scene := rfl

/-- The hooks before the click put `action` in the place of `decoded`, and it may be processed. -/
structure Admits (decoded action : Action) : Prop where
  pre : g.setup.hooks.preVerdict g.context decoded = .ok (.proceed action)
  flawless : action ≠ decoded → action.flaw? g.scene.toWindow g.who.mode = none

/-- The hooks on the click put `outcome` in the place of `processed`. -/
structure Makes (decoded action : Action) (processed outcome : Outcome) : Prop where
  admits : g.Admits decoded action
  process : g.menu.process g.scene action = .ok processed
  click : g.setup.hooks.clickVerdict g.context action processed = .ok (.proceed outcome)

/-- Why a turn is given up. -/
inductive Refuses (decoded : Action) : Prop where
  | cancelledBefore (pre : g.setup.hooks.preVerdict g.context decoded = .ok .cancel)
  | rejectedAction (action : Action) (flaw : ActionFlaw)
      (pre : g.setup.hooks.preVerdict g.context decoded = .ok (.proceed action)) (replaced : action ≠ decoded)
      (flawed : action.flaw? g.scene.toWindow g.who.mode = some flaw)
  | cancelledAfter (action : Action) (processed : Outcome) (admits : g.Admits decoded action)
      (process : g.menu.process g.scene action = .ok processed)
      (click : g.setup.hooks.clickVerdict g.context action processed = .ok .cancel)
  | rejectedOutcome (action : Action) (processed outcome : Outcome) (flaw : OutcomeFlaw)
      (makes : g.Makes decoded action processed outcome)
      (flawed : outcomeFlaw? g.setup g.who g.scene processed outcome = .ok (some flaw))

/-- Why a fault stops a turn before anything is written. -/
inductive Stops (decoded : Action) (e : Fault) : Prop where
  | before (pre : g.setup.hooks.preVerdict g.context decoded = .error e)
  | processing (action : Action) (admits : g.Admits decoded action) (process : g.menu.process g.scene action = .error e)
  | after (action : Action) (processed : Outcome) (admits : g.Admits decoded action)
      (process : g.menu.process g.scene action = .ok processed)
      (click : g.setup.hooks.clickVerdict g.context action processed = .error e)
  | checking (action : Action) (processed outcome : Outcome) (makes : g.Makes decoded action processed outcome)
      (check : outcomeFlaw? g.setup g.who g.scene processed outcome = .error e)

/-- The outcome of the decoded action is applied. -/
structure Applies (decoded action : Action) (processed outcome : Outcome) : Prop extends
    g.Makes decoded action processed outcome where
  flawless : outcomeFlaw? g.setup g.who g.scene processed outcome = .ok none

/-- The effects of an applied outcome. -/
def effects (decoded action : Action) (processed outcome : Outcome) : List Effect :=
  outcome.thrown.map (.drop g.who.player) ++ [.applied g.who.player action outcome] ++
    if action ≠ decoded ∨ outcome ≠ processed then [.resync g.who.player] else []

/-- The calls of the hooks after an applied outcome, which see the new scene. -/
def postCalls (action : Action) (outcome : Outcome) : List HookCall :=
  g.setup.hooks.postCalls ⟨g.who.player, g.who.mode, g.scene.overwrite outcome⟩ action outcome

end Setting

/-- What a turn answers, the scene that it leaves and what it adds to the report. -/
inductive Ending (g : Setting) (decoded : Action) : Except Fault (Option Outcome) → Scene → Report → Prop where
  | stopped (e : Fault) (r : Report) (why : g.Stops decoded e) (quiet : r.Quiet) (silent : r.effects = []) :
      Ending g decoded (.error e) g.scene r
  | refused (r : Report) (why : g.Refuses decoded) (quiet : r.Quiet) (resync : r.effects = [.resync g.who.player]) :
      Ending g decoded (.ok none) g.scene r
  | applied (action : Action) (processed outcome : Outcome) (before after : Report)
      (applies : g.Applies decoded action processed outcome) (quiet : before.Quiet) (silent : before.effects = [])
      (effects : after.effects = g.effects decoded action processed outcome)
      (calls : after.calls = g.postCalls action outcome) :
      Ending g decoded (.ok (some outcome)) (g.scene.overwrite outcome) (before ++ after)
  | interrupted (e : Fault) (action : Action) (processed outcome : Outcome) (r : Report)
      (applies : g.Applies decoded action processed outcome)
      (hook : ∃ hook ∈ g.setup.hooks.post, ∃ cx, hook cx action outcome = .error e)
      (drops : r.effects = outcome.thrown.map (.drop g.who.player)) :
      Ending g decoded (.error e) (g.scene.overwrite outcome) r

variable {g : Setting} {t : Turn} {decoded action : Action} {processed outcome : Outcome}

theorem outcomeFlaw?_fits {setup : Setup} {who : Clicker} {scene : Scene}
    (h : outcomeFlaw? setup who scene processed outcome = .ok none) : outcome.Fits scene.toWindow := by
  rw [← Outcome.flaw?_eq_none_iff]
  unfold outcomeFlaw? at h
  split at h
  · cases h
  · assumption

/-- Calls and notices from before the outcome was applied. -/
theorem Ending.after_quiet {answer : Except Fault (Option Outcome)} {scene : Scene} {r before : Report}
    (h : Ending g decoded answer scene r) (quiet : before.Quiet) (silent : before.effects = []) :
    Ending g decoded answer scene (before ++ r) := by
  cases h with
  | stopped e r why q s => exact .stopped e _ why (quiet.append q) (by simp [silent, s])
  | refused r why q resync => exact .refused _ why (quiet.append q) (by simp [silent, resync])
  | applied action processed outcome b a applies q s effects calls =>
    rw [← Report.append_assoc]
    exact .applied action processed outcome (before ++ b) a applies (quiet.append q) (by simp [silent, s]) effects calls
  | interrupted e action processed outcome r applies hook drops =>
    exact .interrupted e action processed outcome _ applies hook (by simp [silent, drops])

/-- An outcome that fits is applied. Only a hook can then stop the turn. -/
theorem outcome_commit (setup : Setup) (who : Clicker) (action : Action) (replaced : Bool)
    (fits : outcome.Fits t.scene.toWindow) :
    (∃ r : Report, (commit setup who action outcome replaced).outcome t =
        (.ok (some outcome), t.after (t.scene.overwrite outcome) r) ∧
      r.effects = outcome.thrown.map (.drop who.player) ++ [.applied who.player action outcome] ++
        (if replaced then [.resync who.player] else []) ∧
      r.calls = setup.hooks.postCalls ⟨who.player, who.mode, t.scene.overwrite outcome⟩ action outcome) ∨
    ∃ (e : Fault) (r : Report), (∃ hook ∈ setup.hooks.post, ∃ cx, hook cx action outcome = .error e) ∧
      (commit setup who action outcome replaced).outcome t = (.error e, t.after (t.scene.overwrite outcome) r) ∧
      r.effects = outcome.thrown.map (.drop who.player) := by
  unfold commit
  rw [outcome_bind_ok (TurnM.outcome_apply fits), outcome_bind_ok (TurnM.outcome_emit _),
    outcome_bind_ok TurnM.outcome_context]
  simp only [Turn.after_after, scene_after]
  rcases Hooks.outcome_runPost setup.hooks ⟨who.player, who.mode, t.scene.overwrite outcome⟩ action outcome
    (t.after (t.scene.overwrite outcome) ({} ++ { effects := outcome.thrown.map (.drop who.player) })).report.calls
    with run | ⟨hook, mem, e, calls, stop, run⟩
  · left
    rw [outcome_bind_ok (TurnM.outcome_withTrace run), outcome_bind_ok (TurnM.outcome_emit _)]
    simp only [Turn.after_after, scene_after]
    cases replaced with
    | true =>
      simp only [↓reduceIte]
      rw [outcome_bind_ok (TurnM.outcome_emit _), outcome_pure, Turn.after_after]
      exact ⟨_, rfl, by simp, by simp⟩
    | false =>
      simp only [Bool.false_eq_true, ↓reduceIte]
      exact ⟨_, rfl, by simp, by simp⟩
  · right
    rw [outcome_bind_error (TurnM.outcome_withTrace run)]
    simp only [Turn.after_after, scene_after]
    exact ⟨e, _, ⟨hook, mem, _, stop⟩, rfl, by simp⟩

theorem outcome_context (here : t.scene = g.scene) : (TurnM.context g.who).outcome t = (.ok g.context, t) := by
  rw [TurnM.outcome_context, here]
  rfl

/-- A turn that is given up after calls that are in `r`. -/
theorem abandon_ending (here : t.scene = g.scene) (notice : Notice) {r : Report} (why : g.Refuses decoded)
    (quiet : r.Quiet) (silent : r.effects = []) :
    ∃ answer scene r', (TurnM.abandon g.who notice).outcome (t.after t.scene r) = (answer, t.after scene r') ∧
      Ending g decoded answer scene r' := by
  obtain ⟨r', abandon, quiet', resync⟩ := TurnM.outcome_abandon (t.after t.scene r) g.who notice
  refine ⟨.ok none, g.scene, r ++ r', ?_, (Ending.refused r' why quiet' resync).after_quiet quiet silent⟩
  rw [abandon, after_after, scene_after, here]

/-- A turn that a fault stops after calls that are in `r`. -/
theorem stopped_ending (here : t.scene = g.scene) {e : Fault} {r : Report} (why : g.Stops decoded e) (quiet : r.Quiet)
    (silent : r.effects = []) :
    ∃ answer scene r', ((.error e, t.after t.scene r) : Except Fault (Option Outcome) × Turn) =
      (answer, t.after scene r') ∧ Ending g decoded answer scene r' := by
  rw [here]
  exact ⟨.error e, g.scene, r, rfl, .stopped e r why quiet silent⟩

/-- An outcome without a flaw is applied after calls that are in `r`. -/
theorem commit_ending (here : t.scene = g.scene) {r : Report} (applies : g.Applies decoded action processed outcome)
    (quiet : r.Quiet) (silent : r.effects = []) :
    ∃ answer scene r', (commit g.setup g.who action outcome
        (decide (action ≠ decoded) || outcome != processed)).outcome (t.after t.scene r) = (answer, t.after scene r') ∧
      Ending g decoded answer scene r' := by
  have fits : outcome.Fits (t.after t.scene r).scene.toWindow := by
    rw [scene_after, here]
    exact outcomeFlaw?_fits applies.flawless
  rcases outcome_commit g.setup g.who action (decide (action ≠ decoded) || outcome != processed) fits with
    ⟨r', commit, effects, calls⟩ | ⟨e, r', hook, commit, drops⟩
  · rw [commit, after_after, scene_after, here]
    refine ⟨_, _, _, rfl, .applied action processed outcome r r' applies quiet silent ?_ ?_⟩
    · rw [effects, Setting.effects]
      simp only [Bool.or_eq_true, decide_eq_true_eq, bne_iff_ne]
    · rw [calls, scene_after, here, Setting.postCalls]
  · rw [commit, after_after, scene_after, here]
    exact ⟨_, _, _, rfl, (Ending.interrupted e action processed outcome r' applies hook drops).after_quiet quiet silent⟩

/-- Processing an admitted action. -/
theorem perform_ending (here : t.scene = g.scene) (admits : g.Admits decoded action) :
    ∃ answer scene r, (perform g.setup g.menu.process g.who action (decide (action ≠ decoded))).outcome t =
      (answer, t.after scene r) ∧ Ending g decoded answer scene r := by
  unfold perform
  rw [outcome_bind_ok (outcome_context here), outcome_bind, outcome_ofExcept, Setting.scene_context]
  rcases process : g.menu.process g.scene action with e | processed
  · refine ⟨.error e, g.scene, {}, ?_, .stopped e {} (.processing action admits process) (Report.quiet_of_calls_eq_nil rfl) rfl⟩
    rw [← here, after_empty]
  obtain ⟨r, trace, quiet, silent⟩ := TurnM.outcome_click t g.setup.hooks g.context action processed
  simp only
  rw [outcome_bind, trace]
  rcases click : g.setup.hooks.clickVerdict g.context action processed with e | v
  · exact stopped_ending here (.after action processed admits process click) quiet silent
  cases v with
  | cancel => exact abandon_ending here .cancelledAfter (.cancelledAfter action processed admits process click) quiet silent
  | proceed outcome =>
    have makes : g.Makes decoded action processed outcome := ⟨admits, process, click⟩
    simp only
    rw [outcome_bind, outcome_ofExcept]
    rcases flawed : outcomeFlaw? g.setup g.who g.scene processed outcome with e | flaw
    · exact stopped_ending here (.checking action processed outcome makes flawed) quiet silent
    cases flaw with
    | some flaw =>
      exact abandon_ending here (.rejectedOutcome flaw) (.rejectedOutcome action processed outcome flaw makes flawed) quiet silent
    | none => exact commit_ending here ⟨makes, flawed⟩ quiet silent

/-- **Endings.** Every turn on a decoded action ends in one of the four ways. -/
theorem run_ending (here : t.scene = g.scene) (decoded : Action) :
    ∃ answer scene r, (run g.setup g.menu.process g.who decoded).outcome t = (answer, t.after scene r) ∧
      Ending g decoded answer scene r := by
  unfold run
  obtain ⟨r, trace, quiet, silent⟩ := TurnM.outcome_pre t g.setup.hooks g.context decoded
  rw [outcome_bind_ok (outcome_context here), outcome_bind, trace]
  rcases pre : g.setup.hooks.preVerdict g.context decoded with e | v
  · exact stopped_ending here (.before pre) quiet silent
  cases v with
  | cancel => exact abandon_ending here .cancelledBefore (.cancelledBefore pre) quiet silent
  | proceed action =>
    have perform (admits : g.Admits decoded action) :
        ∃ answer scene r', (Turn.perform g.setup g.menu.process g.who action (decide (action ≠ decoded))).outcome
          (t.after t.scene r) = (answer, t.after scene r') ∧ Ending g decoded answer scene r' := by
      obtain ⟨answer, scene, r', run, ending⟩ := perform_ending (t := t.after t.scene r) here admits
      exact ⟨answer, scene, r ++ r', by rw [run, after_after], ending.after_quiet quiet silent⟩
    simp only
    by_cases same : action = decoded
    · rw [if_pos same]
      simpa [same] using perform ⟨pre, fun replaced => absurd same replaced⟩
    · rw [if_neg same]
      rcases flawed : action.flaw? g.scene.toWindow g.who.mode with _ | flaw
      · simp only [Setting.scene_context, flawed]
        simpa [same] using perform ⟨pre, fun _ => flawed⟩
      · simp only [Setting.scene_context, flawed]
        exact abandon_ending here (.rejectedAction flaw) (.rejectedAction action flaw pre same flawed) quiet silent

/-- How a packet of which the decoder makes `decoded` is dealt with. -/
inductive Course (g : Setting) : Except Fault (Option Action) → Except Fault (Option Outcome) → Scene → Report → Prop where
  | undecodable (e : Fault) : Course g (.error e) (.error e) g.scene {}
  | ignored (r : Report) (uncalled : r.calls = []) (silent : r.effects = []) : Course g (.ok none) (.ok none) g.scene r
  | acted {decoded : Action} {answer : Except Fault (Option Outcome)} {scene : Scene} {r : Report}
      (ending : Ending g decoded answer scene r) : Course g (.ok (some decoded)) answer scene r

/-- Inventories keep their kinds, and a container that is open stays open. -/
theorem Course.kinds {decoded : Except Fault (Option Action)} {answer : Except Fault (Option Outcome)} {scene : Scene}
    {r : Report} (h : Course g decoded answer scene r) :
    scene.player.kind = g.scene.player.kind ∧ scene.container.map (·.kind) = g.scene.container.map (·.kind) := by
  cases h with
  | undecodable e => exact ⟨rfl, rfl⟩
  | ignored r uncalled silent => exact ⟨rfl, rfl⟩
  | acted ending =>
    cases ending with
    | stopped e r why quiet silent => exact ⟨rfl, rfl⟩
    | refused r why quiet resync => exact ⟨rfl, rfl⟩
    | applied action processed outcome before after applies quiet silent effects calls => exact g.scene.kinds_overwrite outcome
    | interrupted e action processed outcome r applies hook drops => exact g.scene.kinds_overwrite outcome

theorem click_course (here : t.scene = g.scene) (packet : Packet) {decoded : Except Fault (Option Action)} {d : Decoder}
    (decode : (Decoder.decode g.who.player g.who.mode packet).outcome t.decoder = (decoded, d)) :
    ∃ answer scene r, (click g.setup g.menu.process g.who packet).outcome t = (answer, { t with decoder := d }.after scene r) ∧
      Course g decoded answer scene r := by
  have read : (TurnM.withDecoder (Decoder.decode g.who.player g.who.mode packet)).outcome t =
      (decoded, { t with decoder := d }) := by
    rw [TurnM.withDecoder, outcome_focus, decode]
  unfold click
  rcases decoded with e | action?
  · rw [outcome_bind_error read]
    refine ⟨.error e, g.scene, {}, ?_, .undecodable e⟩
    rw [← here]
    exact congrArg _ (after_empty { t with decoder := d }).symm
  rw [outcome_bind_ok read, outcome_bind_ok (TurnM.outcome_log _)]
  cases action? with
  | none => exact ⟨.ok none, g.scene, _, by rw [← here]; rfl, .ignored _ rfl rfl⟩
  | some decoded =>
    obtain ⟨answer, scene, r, run, ending⟩ :=
      run_ending (t := { t with decoder := d }.after t.scene { notices := Notice.ofDecoded (some decoded) }) here decoded
    rw [after_after] at run
    exact ⟨answer, scene, _, run, .acted (ending.after_quiet (Report.quiet_of_calls_eq_nil rfl) rfl)⟩

theorem creative_course (here : t.scene = g.scene) (slot : Int) (stack : Stack) :
    ∃ answer scene r, (creative g.setup g.menu.process g.who slot stack).outcome t = (answer, t.after scene r) ∧
      Course g (.ok (Decoder.decodeCreative g.who.mode slot stack)) answer scene r := by
  unfold creative
  rw [outcome_bind_ok (TurnM.outcome_log _)]
  rcases Decoder.decodeCreative g.who.mode slot stack with _ | decoded
  · exact ⟨.ok none, g.scene, _, by rw [← here]; rfl, .ignored _ rfl rfl⟩
  · obtain ⟨answer, scene, r, run, ending⟩ :=
      run_ending (t := t.after t.scene { notices := Notice.ofCreative g.who.mode }) here decoded
    rw [after_after] at run
    exact ⟨answer, scene, _, run, .acted (ending.after_quiet (Report.quiet_of_calls_eq_nil rfl) rfl)⟩

end Turn

end InventoryClicks
