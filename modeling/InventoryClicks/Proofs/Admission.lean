import InventoryClicks.Proofs.Atomicity
import InventoryClicks.Proofs.Decoder

/-!
# What is processed

A turn hands one action to its processor, or ends before it does. `Turn.Hands` says which action that is, by what the turn
does with every processor there could be, so there is no other (`Turn.Hands.unique`). Whatever came before, it is one that
the admission check passes (`Player.processed_passes`): hooks cannot get another one past the check, and the actions of a
decoder, on which the check is not made, pass it.
-/

namespace InventoryClicks

/-- The admission check passes the action. -/
structure Action.Passes (a : Action) (w : Window) (mode : GameMode) : Prop where
  flawless : a.flaw? w mode = none
  slots : ∀ slot ∈ a.slots, slot < w.slotCount
  hotbar : ∀ hotbar slot, a = .hotbarSwap hotbar slot → hotbar < 9
  creative : a.isCreative = true → mode = .creative

theorem Action.passes_iff_allowed {a : Action} {w : Window} {mode : GameMode} :
    a.Passes w mode ↔ a.Allowed w.slotCount mode := by
  constructor
  · intro passes
    exact flaw?_eq_none_iff.1 passes.flawless
  · intro allowed
    refine ⟨flaw?_eq_none_iff.2 allowed, allowed.slots, ?_, allowed.creative⟩
    rintro hotbar slot rfl
    exact lt_of_badHotbar?_eq_none allowed.hotbar

/-- Slots that a decoder for the clicked inventory reads are slots of the window. -/
theorem Window.sizeFor_le {w : Window} (own : w.player.kind = .player) :
    Decoder.sizeFor w.clicked.kind ≤ w.slotCount := by
  unfold slotCount clicked Decoder.sizeFor Inventory.slotCount
  rcases w.container with _ | c
  · simp [own]
  · simp only [Option.getD_some]
    split <;> omega

namespace Turn

open StepM

/-- The action that a turn hands to its processor. It is handed on once, with the scene that the turn found, and what the
turn does after that depends on the answer only. -/
inductive Hands (turn : Processor → TurnM (Option Outcome)) (t : Turn) : Option Action → Prop where
  | never (ended : Except Fault (Option Outcome) × Turn) (ends : ∀ process, (turn process).outcome t = ended) :
      Hands turn t none
  | once (action : Action) (t' : Turn) (next : Outcome → TurnM (Option Outcome))
      (hands : ∀ process, (turn process).outcome t = (do next (← StepM.ofExcept (process t.scene action))).outcome t') :
      Hands turn t (some action)

section

variable {turn turn' : Processor → TurnM (Option Outcome)} {t t' : Turn} {action? other? : Option Action} {action : Action}

/-- First steps that hand nothing on. -/
theorem Hands.after (hands : Hands turn' t' action?) (scene : t'.scene = t.scene)
    (first : ∀ process, (turn process).outcome t = (turn' process).outcome t') : Hands turn t action? := by
  cases hands with
  | never ended ends => exact .never ended fun process => by rw [first, ends]
  | once action t'' next hands => exact .once action t'' next fun process => by rw [first, hands, scene]

/-- A fault of the processor is the answer of the turn. -/
theorem Hands.answer_of_fault (hands : Hands turn t (some action)) (fault : Action → Fault) :
    ((turn fun _ a => .error (fault a)).outcome t).1 = .error (fault action) := by
  cases hands with
  | once _ t' next hands => rw [hands, outcome_bind_error (outcome_ofExcept _)]

theorem Hands.not_never (hands : Hands turn t (some action)) : ¬ Hands turn t none := by
  rintro ⟨ended, ends⟩
  have stops (fault : Fault) : ended.1 = .error fault := by
    rw [← ends, hands.answer_of_fault fun _ => fault]
  have same := (stops .additionOverflow).symm.trans (stops .subtractionOverflow)
  cases same

/-- **A turn hands on one action at most.** A processor that stops at another fault for it than for all other actions tells
which one it is. -/
theorem Hands.unique (hands : Hands turn t action?) (hands' : Hands turn t other?) : action? = other? := by
  rcases action? with _ | a <;> rcases other? with _ | b
  · rfl
  · exact absurd hands hands'.not_never
  · exact absurd hands' hands.not_never
  · let fault (x : Action) : Fault := if x = a then .additionOverflow else .subtractionOverflow
    have same := (hands.answer_of_fault fault).symm.trans (hands'.answer_of_fault fault)
    by_contra differ
    have other : b ≠ a := fun is => differ (by rw [is])
    simp [fault, other] at same

end

/-- The action is allowed if hooks left the decoded one alone and that is, or if they put it there past the check. -/
theorem Setting.Admits.allowed {g : Setting} {sent action : Action} (admits : g.Admits sent action)
    (allowed : sent.Allowed g.scene.slotCount g.who.mode) : action.Allowed g.scene.slotCount g.who.mode := by
  by_cases same : action = sent
  · rw [same]
    exact allowed
  · exact Action.flaw?_eq_none_iff.1 (admits.flawless same)

theorem Setting.Admits.passes {g : Setting} {sent action : Action} (admits : g.Admits sent action)
    (passes : sent.Passes g.scene.toWindow g.who.mode) : action.Passes g.scene.toWindow g.who.mode :=
  Action.passes_iff_allowed.2 (admits.allowed (Action.passes_iff_allowed.1 passes))

theorem perform_hands (setup : Setup) (who : Clicker) (action : Action) (replaced : Bool) (t : Turn) :
    Hands (perform setup · who action replaced) t (some action) :=
  .once action t _ fun _ => outcome_bind_ok TurnM.outcome_context

variable {g : Setting} {t : Turn}

/-- A turn up to the point where it hands an action on. -/
theorem outcome_run (here : t.scene = g.scene) (decoded : Action) :
    ∃ r : Report, ∀ process, (run g.setup process g.who decoded).outcome t =
      match g.setup.hooks.preVerdict g.context decoded with
      | .error e => (.error e, t.after t.scene r)
      | .ok .cancel => (TurnM.abandon g.who .cancelledBefore).outcome (t.after t.scene r)
      | .ok (.proceed action) =>
        if action = decoded then (perform g.setup process g.who action false).outcome (t.after t.scene r)
        else match action.flaw? g.scene.toWindow g.who.mode with
          | some flaw => (TurnM.abandon g.who (.rejectedAction flaw)).outcome (t.after t.scene r)
          | none => (perform g.setup process g.who action true).outcome (t.after t.scene r) := by
  obtain ⟨r, trace, -, -⟩ := TurnM.outcome_pre t g.setup.hooks g.context decoded
  refine ⟨r, fun process => ?_⟩
  unfold run
  rw [outcome_bind_ok (outcome_context here), outcome_bind, trace]
  rcases g.setup.hooks.preVerdict g.context decoded with e | v
  · rfl
  cases v with
  | cancel => rfl
  | proceed action =>
    by_cases same : action = decoded
    · simp only [if_pos same]
    · simp only [if_neg same, Setting.scene_context]
      rcases action.flaw? g.scene.toWindow g.who.mode with _ | flaw <;> rfl

/-- A turn on a decoded action hands on the one that is admitted in its place, if there is one. -/
theorem run_hands (here : t.scene = g.scene) (decoded : Action) :
    ∃ action?, Hands (run g.setup · g.who decoded) t action? ∧ ∀ a, action? = some a ↔ g.Admits decoded a := by
  obtain ⟨r, ends⟩ := outcome_run here decoded
  rcases pre : g.setup.hooks.preVerdict g.context decoded with e | v
  · refine ⟨none, .never _ fun process => by rw [ends, pre], fun a => ⟨nofun, fun admits => ?_⟩⟩
    have answer := admits.pre
    rw [pre] at answer
    cases answer
  cases v with
  | cancel =>
    refine ⟨none, .never _ fun process => by rw [ends, pre], fun a => ⟨nofun, fun admits => ?_⟩⟩
    have answer := admits.pre
    rw [pre] at answer
    cases answer
  | proceed action =>
    simp only [pre] at ends
    have only {a : Action} (admits : g.Admits decoded a) : a = action := by
      have answer := admits.pre
      rw [pre] at answer
      cases answer
      rfl
    have handed (admits : g.Admits decoded action) (replaced : Bool)
        (performs : ∀ process, (run g.setup process g.who decoded).outcome t =
          (perform g.setup process g.who action replaced).outcome (t.after t.scene r)) :
        ∃ action?, Hands (run g.setup · g.who decoded) t action? ∧ ∀ a, action? = some a ↔ g.Admits decoded a := by
      have hands := perform_hands g.setup g.who action replaced (t.after t.scene r)
      refine ⟨some action, hands.after rfl performs, fun a => ⟨?_, ?_⟩⟩
      · rintro ⟨⟩
        exact admits
      · exact fun admits' => by rw [only admits']
    by_cases same : action = decoded
    · exact handed ⟨pre, fun replaced => absurd same replaced⟩ false fun process => by rw [ends, if_pos same]
    rcases flawed : action.flaw? g.scene.toWindow g.who.mode with _ | flaw
    · exact handed ⟨pre, fun _ => flawed⟩ true fun process => by rw [ends, if_neg same, flawed]
    · refine ⟨none, .never _ fun process => by rw [ends, if_neg same, flawed], fun a => ⟨nofun, fun admits => ?_⟩⟩
      have flawless := admits.flawless (by rwa [only admits])
      rw [only admits, flawed] at flawless
      cases flawless

/-- What a turn does with the action that its packet means: at most one action is handed on, which is the one that is
admitted in the place of the decoded one, and both pass the check. -/
structure Setting.HandsPassing (g : Setting) (turn : Processor → TurnM (Option Outcome)) (t : Turn)
    (decoded : Except Fault (Option Action)) : Prop where
  hands : ∃! action?, Hands turn t action?
  admitted : ∀ a, Hands turn t (some a) ↔ ∃ sent, decoded = .ok (some sent) ∧ g.Admits sent a
  passes : ∀ a, Hands turn t (some a) → a.Passes g.scene.toWindow g.who.mode
  meant : ∀ a, decoded = .ok (some a) → a.Passes g.scene.toWindow g.who.mode

section

variable {turn : Processor → TurnM (Option Outcome)} {decoded : Except Fault (Option Action)}

theorem Setting.handsPassing {action? : Option Action} (hands : Hands turn t action?)
    (admitted : ∀ a, action? = some a ↔ ∃ sent, decoded = .ok (some sent) ∧ g.Admits sent a)
    (meant : ∀ a, decoded = .ok (some a) → a.Passes g.scene.toWindow g.who.mode) : g.HandsPassing turn t decoded := by
  have handed (a : Action) : Hands turn t (some a) ↔ ∃ sent, decoded = .ok (some sent) ∧ g.Admits sent a := by
    rw [← admitted]
    exact ⟨fun hands' => hands.unique hands', fun is => is ▸ hands⟩
  refine ⟨⟨action?, hands, fun other? hands' => hands'.unique hands⟩, handed, fun a hands' => ?_, meant⟩
  obtain ⟨sent, means, admits⟩ := (handed a).1 hands'
  exact admits.passes (meant sent means)

/-- A turn that comes to run a decoded action, or that ends without one. -/
theorem Setting.handsPassing_of_run {decoded? : Option Action} (t' : Turn) (here : t'.scene = g.scene)
    (scene : t'.scene = t.scene)
    (runs : ∀ process, (turn process).outcome t =
      (match decoded? with
      | none => return none
      | some decoded => run g.setup process g.who decoded : TurnM (Option Outcome)).outcome t')
    (meant : ∀ a, decoded? = some a → a.Passes g.scene.toWindow g.who.mode) : g.HandsPassing turn t (.ok decoded?) := by
  cases decoded? with
  | none => exact handsPassing (.never _ runs) (by simp) (by simp)
  | some decoded =>
    obtain ⟨action?, hands, admitted⟩ := run_hands here decoded
    refine handsPassing (hands.after scene runs) (fun a => (admitted a).trans ?_) (by simpa using meant)
    simp

end

theorem click_hands (here : t.scene = g.scene) {packet : Packet} {decoded : Except Fault (Option Action)} {d : Decoder}
    (decode : (Decoder.decode g.who.player g.who.mode packet).outcome t.decoder = (decoded, d))
    (meant : ∀ a, decoded = .ok (some a) → a.Passes g.scene.toWindow g.who.mode) :
    g.HandsPassing (click g.setup · g.who packet) t decoded := by
  have read : (TurnM.withDecoder (Decoder.decode g.who.player g.who.mode packet)).outcome t =
      (decoded, { t with decoder := d }) := by
    rw [TurnM.withDecoder, outcome_focus, decode]
  rcases decoded with e | decoded?
  · exact Setting.handsPassing (.never _ fun process => outcome_bind_error read) (by simp) meant
  · refine Setting.handsPassing_of_run ({ t with decoder := d }.after t.scene { notices := Notice.ofDecoded decoded? })
      here rfl (fun process => ?_) fun a is => meant a (by rw [is])
    cases decoded? <;> exact (outcome_bind_ok read).trans (outcome_bind_ok (TurnM.outcome_log _))

theorem creative_hands (here : t.scene = g.scene) {slot : Int} {stack : Stack}
    (meant : ∀ a, Decoder.decodeCreative g.who.mode slot stack = some a → a.Passes g.scene.toWindow g.who.mode) :
    g.HandsPassing (creative g.setup · g.who slot stack) t (.ok (Decoder.decodeCreative g.who.mode slot stack)) := by
  refine Setting.handsPassing_of_run (t.after t.scene { notices := Notice.ofCreative g.who.mode }) here rfl
    (fun process => ?_) meant
  unfold creative
  cases Decoder.decodeCreative g.who.mode slot stack <;> exact outcome_bind_ok (TurnM.outcome_log _)

end Turn

namespace Player

variable {p : Player} {c : Option Container} {id : Nat}

/-- The window that the player's packets are about, with that container open. -/
def window (p : Player) (c : Option Container) : Window := (p.scene (c.map (·.inventory))).toWindow

/-- What a player's packet means is allowed in the window, if the decoder reads the clicked inventory. -/
theorem decoded_allowed (own : p.inventory.kind = .player)
    (reads : (p.decoderFor c).Reads (Decoder.sizeFor (p.window c).clicked.kind)) (id : Nat) (packet : Packet) :
    ∃ action?, p.decoded id c packet = .ok action? ∧
      ∀ a, action? = some a → a.Allowed (p.window c).slotCount p.mode := by
  obtain ⟨action?, d, run, -, allowed⟩ := Decoder.decode_reads reads id p.mode packet
  refine ⟨action?, ?_, fun a found => (allowed a found).mono (Window.sizeFor_le (w := p.window c) own)⟩
  rw [Player.decoded, StepM.outcome_of_run run]

theorem decodeCreative_allowed (own : p.inventory.kind = .player) {slot : Int} {stack : Stack} {a : Action}
    (decoded : Decoder.decodeCreative p.mode slot stack = some a) : a.Allowed (p.window none).slotCount p.mode := by
  have size : (p.window none).slotCount = p.inventory.kind.slotCount := rfl
  rw [size, own]
  exact Decoder.decodeCreative_allowed decoded

/-- **Admission.** Of a packet, or of one of the creative inventory, at most one action is processed. It is the one that hooks
put in the place of what the packet means, and the admission check would pass it; and it would pass what the packet means,
although it is not made on that. -/
theorem processed_passes (setup : Setup) (id : Nat) (p : Player) (own : p.inventory.kind = .player) (c : Option Container)
    (reached : (Decoder.ofInventory (p.window c).clicked).Reachable (p.decoderFor c)) :
    (∀ packet, (p.setting setup id c).HandsPassing (Turn.click setup · (p.clicker id) packet)
      { decoder := p.decoderFor c, scene := p.scene (c.map (·.inventory)) } (p.decoded id c packet)) ∧
    ∀ slot stack, (p.setting setup id none).HandsPassing (Turn.creative setup · (p.clicker id) slot stack)
      { decoder := p.decoder, scene := p.scene none } (.ok (Decoder.decodeCreative p.mode slot stack)) := by
  constructor
  · intro packet
    obtain ⟨action?, decoded, allowed⟩ := decoded_allowed own (reached.reads (Decoder.reads_ofInventory _)) id packet
    refine Turn.click_hands (g := p.setting setup id c)
      (t := { decoder := p.decoderFor c, scene := p.scene (c.map (·.inventory)) }) rfl (Prod.eta _).symm ?_
    intro a meant
    rw [meant] at decoded
    cases decoded
    exact Action.passes_iff_allowed.2 (allowed a rfl)
  · intro slot stack
    refine Turn.creative_hands (g := p.setting setup id none) (t := { decoder := p.decoder, scene := p.scene none }) rfl ?_
    intro a meant
    exact Action.passes_iff_allowed.2 (decodeCreative_allowed own meant)

/-- A drag over the last slot of a hopper's window is begun in creative mode and finished in survival mode. Hooks may have
the ninth key of the hotbar in its place, but neither a tenth one nor an action of creative mode. -/
theorem processed_passes_left_creative :
    let fresh := Container.ofInventory (.empty .hopper)
    let begun := (Decoder.decode 0 .creative { mode := .drag, slot := 40, button := 1 }).outcome fresh.decoder
    let hopper : Container := { fresh with decoder := begun.2 }
    let p := Player.ofInventory (.empty .player) (.single .stone) .survival
    let turn (a : Action) (process : Processor) := Turn.click { hooks := { pre := [fun _ _ => .ok (.proceed a)] } } process
      (p.clicker 0) { mode := .drag, slot := Packet.outside, button := 2 }
    let t : Turn := { decoder := hopper.decoder, scene := p.scene (some hopper.inventory) }
    (Action.drag .left [40]).Passes (p.window (some hopper)) .survival ∧
      Turn.Hands (turn (.hotbarSwap 8 0)) t (some (.hotbarSwap 8 0)) ∧
      Turn.Hands (turn (.hotbarSwap 9 0)) t none ∧ Turn.Hands (turn (.creativeDrop (.single .dirt))) t none := by
  intro fresh begun hopper p turn t
  have reached : (Decoder.ofInventory (p.window (some hopper)).clicked).Reachable (p.decoderFor (some hopper)) :=
    .decode 0 .creative _ .start
  let packet : Packet := { mode := .drag, slot := Packet.outside, button := 2 }
  let setup (a : Action) : Setup := { hooks := { pre := [fun _ _ => .ok (.proceed a)] } }
  have decoded : p.decoded 0 (some hopper) packet = .ok (some (.drag .left [40])) := by rfl
  have turns (a : Action) : (p.setting (setup a) 0 (some hopper)).HandsPassing (turn a) t (p.decoded 0 (some hopper) packet) :=
    (processed_passes (setup a) 0 p rfl (some hopper) reached).1 packet
  have none_handed {a : Action} (fails : ¬ a.Passes (p.window (some hopper)) .survival) : Turn.Hands (turn a) t none := by
    obtain ⟨action?, hands, -⟩ := (turns a).hands
    rcases action? with _ | b
    · exact hands
    · obtain ⟨sent, -, admits⟩ := ((turns a).admitted b).1 hands
      have put : b = a := by
        have pre : Except.ok (Verdict.proceed a) = .ok (.proceed b) := admits.pre
        cases pre
        rfl
      exact absurd ((turns a).passes b hands) (put ▸ fails)
  refine ⟨(turns (.hotbarSwap 8 0)).meant _ decoded, ?_, none_handed ?_, none_handed ?_⟩
  · exact ((turns _).admitted _).2 ⟨_, decoded, rfl, fun _ => by decide⟩
  · exact fun passes => absurd (passes.hotbar 9 0 rfl) (by decide)
  · exact fun passes => absurd (passes.creative rfl) (by decide)

end Player

end InventoryClicks
