import InventoryClicks.Proofs.Accounts
import InventoryClicks.Proofs.Contents
import InventoryClicks.Proofs.DragHistory

/-!
# Calls that keep a property of stacks

If the stacking rules and the hooks keep a property of stacks, then a call on players and containers with such stacks leaves
such stacks, answers them and throws them (`Session.Move.only`), however its turn ends.
-/

namespace InventoryClicks

open StepM

variable {P : Stack → Prop}

/-- No packet brings a stack along. -/
theorem Decoder.given_of_decode {player : Nat} {mode : GameMode} {packet : Packet} {d : Decoder} {a : Action}
    (means : ((decode player mode packet).outcome d).1 = .ok (some a)) : a.given = [] := by
  have slot {s : Nat} (means : slotAction mode packet s = some a) : a.given = [] := by
    unfold slotAction at means
    repeat' split at means
    all_goals cases means
    all_goals rfl
  unfold decode at means
  split at means
  · unfold decodeDrag at means
    repeat' split at means
    · cases means
    · cases means
    · cases means
    · rw [outcome_addDragSlot] at means
      rcases named : d.slot? packet.slot with e | s? <;> rw [named] at means <;> cases means
    · cases means
      rfl
  · split at means
    · unfold outsideAction at means
      split at means
      all_goals cases means
      all_goals rfl
    · rw [outcome_bind_ok (t := d) rfl, outcome_bind, outcome_ofExcept] at means
      rcases named : d.slot? packet.slot with e | s? <;> rw [named] at means
      · cases means
      · simp only [outcome_pure, Except.ok.injEq] at means
        obtain ⟨s, -, means⟩ := Option.bind_eq_some_iff.1 means
        exact slot means

theorem Decoder.given_of_decodeCreative {mode : GameMode} {slot : Int} {stack : Stack} {a : Action}
    (means : decodeCreative mode slot stack = some a) : a.given = [stack] := by
  unfold decodeCreative at means
  repeat' split at means
  all_goals cases means
  all_goals rfl

/-- Shown stacks with the property only, hooks answer with such stacks. -/
structure Hooks.Keep (hooks : Hooks) (P : Stack → Prop) : Prop where
  pre : ∀ hook ∈ hooks.pre, ∀ cx a b, cx.scene.Only P → a.Only P → hook cx a = .ok (.proceed b) → b.Only P
  click : ∀ hook ∈ hooks.click, ∀ cx a o o', cx.scene.Only P → a.Only P → o.Only P →
    hook cx a o = .ok (.proceed o') → o'.Only P

theorem Hooks.keep_none : Hooks.Keep {} P := ⟨nofun, nofun⟩

def Effect.Only (e : Effect) (P : Stack → Prop) : Prop :=
  match e with
  | .drop _ s => P s
  | .resync _ => True
  | .applied _ a o => a.Only P ∧ o.Only P

structure Reply.Only (r : Reply) (P : Stack → Prop) : Prop where
  answer : ∀ o, r.answer = .ok (some o) → o.Only P
  effects : ∀ e ∈ r.report.effects, e.Only P

/-- Inventory and cursor. -/
structure Player.Only (p : Player) (P : Stack → Prop) : Prop where
  inventory : p.inventory.Only P
  cursor : P p.cursor

/-- Inventory, and the stacks that the rule of the menu makes. -/
structure Container.Only (c : Container) (P : Stack → Prop) : Prop where
  inventory : c.inventory.Only P
  rule : c.menu.rule.Keeps P

namespace Turn

variable {g : Setting} {decoded : Action}

/-- A turn on stacks with the property, under a rule and hooks that keep it. -/
structure Setting.Only (g : Setting) (P : Stack → Prop) : Prop where
  scene : g.scene.Only P
  rule : g.menu.rule.Keeps P
  hooks : g.setup.hooks.Keep P

theorem Setting.Applies.only {action : Action} {processed outcome : Outcome} (only : g.Only P) (given : decoded.Only P)
    (applies : g.Applies decoded action processed outcome) : action.Only P ∧ outcome.Only P := by
  have sent : action.Only P := by
    refine Hooks.of_verdict_proceed (Q := (Action.Only · P)) ?_ given applies.admits.pre
    intro hook mem a b kept answer
    obtain ⟨h, here, rfl⟩ := List.mem_map.1 mem
    exact only.hooks.pre h here g.context a b only.scene kept answer
  have made : processed.Only P := Menu.process_only only.rule only.scene sent applies.process
  refine ⟨sent, Hooks.of_verdict_proceed (Q := (Outcome.Only · P)) ?_ made applies.click⟩
  intro hook mem o o' kept answer
  obtain ⟨h, here, rfl⟩ := List.mem_map.1 mem
  exact only.hooks.click h here g.context action o o' only.scene sent kept answer

theorem only_drops {outcome : Outcome} (only : outcome.Only P) (player : Nat) :
    ∀ e ∈ outcome.thrown.map (Effect.drop player), e.Only P := by
  intro e mem
  obtain ⟨s, thrown, rfl⟩ := List.mem_map.1 mem
  exact only.dropped s (List.mem_filter.1 thrown).1

theorem Ending.only {answer : Except Fault (Option Outcome)} {scene : Scene} {r : Report} (only : g.Only P)
    (given : decoded.Only P) (ending : Ending g decoded answer scene r) : scene.Only P ∧ Reply.Only ⟨answer, r⟩ P := by
  cases ending with
  | stopped e r why quiet silent => exact ⟨only.scene, by simp, by simp [silent]⟩
  | refused r why quiet resync => exact ⟨only.scene, by simp, by simp [resync, Effect.Only]⟩
  | applied action processed outcome before after applies quiet silent effects calls =>
    obtain ⟨sent, made⟩ := applies.only only given
    refine ⟨only.scene.overwrite made, ?_, ?_⟩
    · rintro _ ⟨⟩
      exact made
    · show ∀ e ∈ before.effects ++ after.effects, e.Only P
      rw [silent, effects, List.nil_append]
      intro e mem
      rcases List.mem_append.1 mem with mem | mem
      · rcases List.mem_append.1 mem with mem | mem
        · exact only_drops made g.who.player e mem
        · rw [List.mem_singleton.1 mem]
          exact ⟨sent, made⟩
      · split at mem
        · rw [List.mem_singleton.1 mem]
          exact trivial
        · cases mem
  | interrupted e action processed outcome r applies hook drops =>
    obtain ⟨-, made⟩ := applies.only only given
    refine ⟨only.scene.overwrite made, by simp, ?_⟩
    simpa only [drops] using only_drops made g.who.player

theorem Course.only {decoded : Except Fault (Option Action)} {answer : Except Fault (Option Outcome)} {scene : Scene}
    {r : Report} (only : g.Only P) (given : ∀ a, decoded = .ok (some a) → a.Only P)
    (course : Course g decoded answer scene r) : scene.Only P ∧ Reply.Only ⟨answer, r⟩ P := by
  cases course with
  | undecodable e => exact ⟨only.scene, by simp, by simp⟩
  | ignored r uncalled silent => exact ⟨only.scene, by simp, by simp [silent]⟩
  | acted ending => exact ending.only only (given _ rfl)

end Turn

namespace Player

variable {setup : Setup} {id : Nat} {p : Player} {c : Option Container}

theorem setting_only (standard : StackingRule.standard.Keeps P) (hooks : setup.hooks.Keep P) (only : p.Only P)
    (opened : ∀ k, c = some k → k.Only P) : (p.setting setup id c).Only P where
  scene := by
    refine ⟨only.inventory, ?_, only.cursor⟩
    intro inv is
    obtain ⟨k, rfl, rfl⟩ := Option.map_eq_some_iff.1 is
    exact (opened k rfl).inventory
  rule := by
    cases c with
    | none => exact standard
    | some k => exact (opened k rfl).rule
  hooks := hooks

/-- What a call leaves and replies. -/
theorem Called.only {decoded : Except Fault (Option Action)} {d : Decoder} {q : Played}
    (called : p.Called setup id c decoded d q) (setting : (p.setting setup id c).Only P)
    (opened : ∀ k, c = some k → k.Only P) (given : ∀ a, decoded = .ok (some a) → a.Only P) :
    q.player.Only P ∧ (∀ k, q.container = some k → k.Only P) ∧ q.toReply.Only P := by
  obtain ⟨after, reply⟩ := called.course.only setting given
  have keeps := called.keeps
  refine ⟨⟨after.player, after.cursor⟩, ?_, reply⟩
  intro k left
  cases called with
  | turn answer scene report course =>
    obtain ⟨k₀, rfl, rfl⟩ := Option.map_eq_some_iff.1 left
    exact ⟨after.container _ rfl, (opened k₀ rfl).rule⟩

theorem click_only (standard : StackingRule.standard.Keeps P) (hooks : setup.hooks.Keep P) (only : p.Only P)
    (opened : ∀ k, c = some k → k.Only P) (packet : Packet) :
    (p.click setup id c packet).player.Only P ∧ (∀ k, (p.click setup id c packet).container = some k → k.Only P) ∧
      (p.click setup id c packet).toReply.Only P := by
  refine (p.click_called setup id c packet).only (setting_only standard hooks only opened) opened ?_
  intro a means s mem
  rw [Decoder.given_of_decode means] at mem
  cases mem

theorem creative_only (standard : StackingRule.standard.Keeps P) (hooks : setup.hooks.Keep P) (only : p.Only P)
    (slot : Int) {stack : Stack} (brought : P stack) :
    (p.creative setup id slot stack).player.Only P ∧ (p.creative setup id slot stack).toReply.Only P := by
  obtain ⟨player, -, reply⟩ :=
    (p.creative_called setup id slot stack).only (setting_only standard hooks only (by simp)) (by simp) fun a means s mem => by
      rw [Decoder.given_of_decodeCreative (Except.ok.inj means), List.mem_singleton] at mem
      exact mem ▸ brought
  exact ⟨player, reply⟩

end Player

namespace Session

variable {setup : Setup} {s after : Session} {call : Call} {reply : Reply}

/-- The stack that the call brings along. -/
def Call.Only (call : Call) (P : Stack → Prop) : Prop :=
  match call with
  | .creative _ _ stack => P stack
  | .click .. | .close .. => True

/-- One call keeps the property. -/
theorem Move.only (standard : StackingRule.standard.Keeps P) (hooks : setup.hooks.Keep P)
    (only : s.Every (·.Only P) (·.Only P)) (brought : call.Only P) (move : Move setup s call reply after) :
    after.Every (·.Only P) (·.Only P) ∧ reply.Only P := by
  have quiet : Reply.Only { answer := .ok none } P := ⟨by simp, by simp⟩
  cases move with
  | idle => exact ⟨only, quiet⟩
  | own i p packet here =>
    obtain ⟨player, -, replied⟩ := Player.click_only standard hooks (only.player here) (c := none) (by simp) packet
    exact ⟨only.setPlayer i player, replied⟩
  | shared i j p c left packet here there leaves =>
    have opened : ∀ k, some c = some k → k.Only P := by
      rintro k ⟨⟩
      exact only.container there
    obtain ⟨player, container, replied⟩ := Player.click_only standard hooks (only.player here) opened packet
    exact ⟨(only.setPlayer i player).setContainer j (container left leaves), replied⟩
  | creative i p slot stack here =>
    obtain ⟨player, replied⟩ := Player.creative_only standard hooks (only.player here) slot brought
    exact ⟨only.setPlayer i player, replied⟩
  | forgot i p here => exact ⟨only.setPlayer i ⟨(only.player here).inventory, (only.player here).cursor⟩, quiet⟩
  | closed i j c there =>
    exact ⟨only.setContainer j ⟨(only.container there).inventory, (only.container there).rule⟩, quiet⟩

end Session

end InventoryClicks
