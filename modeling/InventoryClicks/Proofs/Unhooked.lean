import InventoryClicks.Proofs.Atomicity
import InventoryClicks.Proofs.Staging

/-!
# Turns without hooks

Without hooks a turn is a function of the scene and of what the decoder makes of the packet: `Turn.judge` decides, and
`Player.click_unhooked` says what a call comes to under its ruling. A call is then understood as soon as the processed
outcome and its check are.
-/

namespace InventoryClicks

open StepM

namespace Turn

/-- How a packet is dealt with when there are no hooks. -/
inductive Ruling where
  | stopped (e : Fault)
  | ignored
  | refused (flaw : OutcomeFlaw)
  | applied (action : Action) (outcome : Outcome)
  deriving DecidableEq

namespace Ruling

def answer : Ruling → Except Fault (Option Outcome)
  | stopped e => .error e
  | ignored | refused _ => .ok none
  | applied _ outcome => .ok (some outcome)

/-- The outcome that is written over the scene. -/
def written : Ruling → Outcome
  | applied _ outcome => outcome
  | stopped _ | ignored | refused _ => {}

def report (player : Nat) : Ruling → Report
  | stopped _ => {}
  | ignored => { notices := [.noAction] }
  | refused flaw => { effects := [.resync player], notices := [.rejectedOutcome flaw] }
  | applied action outcome => { effects := outcome.thrown.map (.drop player) ++ [.applied player action outcome] }

end Ruling

/-- The ruling on what a packet means. -/
def judge (setup : Setup) (menu : Menu) (who : Clicker) (scene : Scene) : Except Fault (Option Action) → Ruling
  | .error e => .stopped e
  | .ok none => .ignored
  | .ok (some action) =>
    match menu.process scene action with
    | .error e => .stopped e
    | .ok outcome =>
      match outcomeFlaw? setup who scene outcome outcome with
      | .error e => .stopped e
      | .ok (some flaw) => .refused flaw
      | .ok none => .applied action outcome

variable {setup : Setup} (unhooked : setup.hooks = {}) (menu : Menu) (who : Clicker)

include unhooked

theorem outcome_commit_unhooked (action : Action) {outcome : Outcome} {t : Turn} (fits : outcome.Fits t.scene.toWindow) :
    (commit setup who action outcome false).outcome t =
      (.ok (some outcome), t.after (t.scene.overwrite outcome) (Ruling.report who.player (.applied action outcome))) := by
  have quiet (u : Turn) (cx : Context) :
      (TurnM.withTrace (setup.hooks.runPost cx action outcome)).outcome u = (.ok ⟨⟩, u) := by
    rw [unhooked]
    rfl
  unfold commit
  rw [outcome_bind_ok (TurnM.outcome_apply fits), outcome_bind_ok (TurnM.outcome_emit _),
    outcome_bind_ok TurnM.outcome_context, outcome_bind_ok (quiet _ _), outcome_bind_ok (TurnM.outcome_emit _)]
  simp only [after_after, scene_after, Bool.false_eq_true, ↓reduceIte]
  rfl

theorem outcome_perform_unhooked (action : Action) (t : Turn) :
    let r := judge setup menu who t.scene (.ok (some action))
    (perform setup menu.process who action false).outcome t =
      (r.answer, t.after (t.scene.overwrite r.written) (r.report who.player)) := by
  have proceeds (cx : Context) (o : Outcome) :
      (TurnM.withTrace (setup.hooks.runClick cx action o)).outcome t = (.ok (.proceed o), t) := by
    rw [unhooked]
    rfl
  have unchanged (r : Report) : t.after (t.scene.overwrite {}) r = t.after t.scene r := by rw [Scene.overwrite_empty]
  intro r
  unfold perform
  rw [outcome_bind_ok TurnM.outcome_context, outcome_bind, outcome_ofExcept]
  simp only
  rcases processed : menu.process t.scene action with e | outcome
  · have ruled : r = .stopped e := by simp only [r, judge, processed]
    rw [ruled]
    exact congrArg _ ((unchanged {}).trans (after_empty t)).symm
  simp only
  rw [outcome_bind_ok (proceeds _ _), outcome_bind, outcome_ofExcept]
  rcases flawed : outcomeFlaw? setup who t.scene outcome outcome with e | flaw?
  · have ruled : r = .stopped e := by simp only [r, judge, processed, flawed]
    rw [ruled]
    exact congrArg _ ((unchanged {}).trans (after_empty t)).symm
  cases flaw? with
  | some flaw =>
    have ruled : r = .refused flaw := by simp only [r, judge, processed, flawed]
    rw [ruled]
    simp only
    unfold TurnM.abandon
    rw [outcome_bind_ok (TurnM.outcome_log _), outcome_bind_ok (TurnM.outcome_emit _), outcome_pure, after_after]
    exact congrArg _ (unchanged _).symm
  | none =>
    have ruled : r = .applied action outcome := by simp only [r, judge, processed, flawed]
    rw [ruled]
    simp only [bne_self_eq_false, Bool.or_self]
    exact outcome_commit_unhooked unhooked who action (outcomeFlaw?_fits flawed)

theorem outcome_run_unhooked (action : Action) (t : Turn) :
    let r := judge setup menu who t.scene (.ok (some action))
    (run setup menu.process who action).outcome t =
      (r.answer, t.after (t.scene.overwrite r.written) (r.report who.player)) := by
  have proceeds (cx : Context) :
      (TurnM.withTrace (setup.hooks.runPre cx action)).outcome t = (.ok (.proceed action), t) := by
    rw [unhooked]
    rfl
  unfold run
  rw [outcome_bind_ok TurnM.outcome_context, outcome_bind_ok (proceeds _)]
  simp only [↓reduceIte]
  exact outcome_perform_unhooked unhooked menu who action t

theorem outcome_click_unhooked (packet : Packet) {t : Turn} {decoded : Except Fault (Option Action)} {d : Decoder}
    (decode : (Decoder.decode who.player who.mode packet).outcome t.decoder = (decoded, d)) :
    let r := judge setup menu who t.scene decoded
    (click setup menu.process who packet).outcome t =
      (r.answer, { t with decoder := d }.after (t.scene.overwrite r.written) (r.report who.player)) := by
  have read : (TurnM.withDecoder (Decoder.decode who.player who.mode packet)).outcome t =
      (decoded, { t with decoder := d }) := by
    rw [TurnM.withDecoder, outcome_focus, decode]
  unfold click
  rcases decoded with e | action?
  · rw [outcome_bind_error read]
    simp only [judge, Ruling.answer, Ruling.written, Ruling.report, Scene.overwrite_empty]
    exact congrArg _ (after_empty { t with decoder := d }).symm
  rw [outcome_bind_ok read, outcome_bind_ok (TurnM.outcome_log _)]
  cases action? with
  | none =>
    simp only [judge, Ruling.answer, Ruling.written, Ruling.report, Scene.overwrite_empty]
    rfl
  | some action =>
    have silent : Notice.ofDecoded (some action) = [] := rfl
    simp only [silent]
    rw [after_empty { t with decoder := d }]
    exact outcome_run_unhooked unhooked menu who action _

end Turn

namespace Player

/-- How a call without hooks deals with its packet. -/
def ruling (setup : Setup) (id : Nat) (p : Player) (c : Option Container) (packet : Packet) : Turn.Ruling :=
  let g := p.setting setup id c
  Turn.judge setup g.menu g.who g.scene (p.decoded id c packet)

/-- **Calls without hooks.** -/
theorem click_unhooked {setup : Setup} (unhooked : setup.hooks = {}) (id : Nat) (p : Player) (c : Option Container)
    (packet : Packet) :
    let r := p.ruling setup id c packet
    p.click setup id c packet = p.after c (p.decoderAfter id c packet) r.answer
      ((p.scene (c.map (·.inventory))).overwrite r.written) (r.report id) := by
  have run := Turn.outcome_click_unhooked unhooked (p.setting setup id c).menu (p.clicker id) packet
    (t := { decoder := p.decoderFor c, scene := p.scene (c.map (·.inventory)) }) (Prod.eta _).symm
  cases c with
  | none =>
    have own : (Turn.click setup Menu.player.process (p.clicker id) packet).outcome
        { decoder := p.decoder, scene := p.scene none } = _ := run
    simp only [click, clickOwn, own]
    rfl
  | some c =>
    have shared : (Turn.click setup c.menu.process (p.clicker id) packet).outcome
        { decoder := c.decoder, scene := p.scene (some c.inventory) } = _ := run
    simp only [click, clickContainer, shared]
    rfl

end Player

end InventoryClicks
