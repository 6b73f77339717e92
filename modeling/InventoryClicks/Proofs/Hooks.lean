import InventoryClicks.Click.Hooks
import InventoryClicks.Proofs.Ends

/-!
# What hooks make of a value

`Hooks.verdict` is what a list of hooks makes of a value, without the trace of their calls. Running a chain of hooks
answers their verdict and adds calls to the trace (`outcome_chain`); running the hooks after a click adds a call of
each, unless one of them stops at a fault (`outcome_runPost`).
-/

namespace InventoryClicks.Hooks

open StepM

variable {α : Type}

/-- Each hook is given the value of the one before. One that cancels, or stops at a fault, is the last. -/
def verdict : List (α → Except Fault (Verdict α)) → α → Except Fault (Verdict α)
  | [], a => .ok (.proceed a)
  | hook :: rest, a =>
    match hook a with
    | .ok (.proceed b) => verdict rest b
    | .ok .cancel => .ok .cancel
    | .error e => .error e

def preVerdict (hooks : Hooks) (cx : Context) (action : Action) : Except Fault (Verdict Action) :=
  verdict (hooks.pre.map (· cx)) action

def clickVerdict (hooks : Hooks) (cx : Context) (action : Action) (outcome : Outcome) :
    Except Fault (Verdict Outcome) :=
  verdict (hooks.click.map (· cx action)) outcome

/-- The calls of the hooks after a click, one of each in the order of their list. -/
def postCalls (hooks : Hooks) (cx : Context) (action : Action) (outcome : Outcome) : List HookCall :=
  (List.range hooks.post.length).map fun i => ⟨.post, i, cx, action, some outcome⟩

/-- Every hook answers, whatever it is shown. -/
structure Total (hooks : Hooks) : Prop where
  pre : ∀ hook ∈ hooks.pre, ∀ cx a, ∃ v, hook cx a = .ok v
  click : ∀ hook ∈ hooks.click, ∀ cx a o, ∃ v, hook cx a o = .ok v
  post : ∀ hook ∈ hooks.post, ∀ cx a o, ∃ v, hook cx a o = .ok v

/-- No hook puts another outcome in the place of the processed one. Hooks may still cancel. -/
def KeepOutcomes (hooks : Hooks) : Prop :=
  ∀ hook ∈ hooks.click, ∀ cx a o o', hook cx a o = .ok (.proceed o') → o' = o

theorem verdict_total {hooks : List (α → Except Fault (Verdict α))} (total : ∀ hook ∈ hooks, ∀ a, ∃ v, hook a = .ok v)
    (a : α) : ∃ v, verdict hooks a = .ok v := by
  induction hooks generalizing a with
  | nil => exact ⟨_, rfl⟩
  | cons hook rest ih =>
    obtain ⟨v, answer⟩ := total hook (by simp) a
    cases v with
    | proceed b =>
      obtain ⟨u, later⟩ := ih (fun h hh => total h (by simp [hh])) b
      exact ⟨u, by simp [verdict, answer, later]⟩
    | cancel => exact ⟨.cancel, by simp [verdict, answer]⟩

/-- Hooks that each keep a property of the value keep it together. -/
theorem of_verdict_proceed {Q : α → Prop} {hooks : List (α → Except Fault (Verdict α))}
    (keep : ∀ hook ∈ hooks, ∀ a b, Q a → hook a = .ok (.proceed b) → Q b) {a b : α} (start : Q a)
    (h : verdict hooks a = .ok (.proceed b)) : Q b := by
  induction hooks generalizing a with
  | nil =>
    cases h
    exact start
  | cons hook rest ih =>
    simp only [verdict] at h
    split at h
    · next c answer =>
      exact ih (fun h hh => keep h (by simp [hh])) (keep hook (by simp) a c start answer) h
    · cases h
    · cases h

/-- Hooks that each leave a value as it is leave it so together. -/
theorem eq_of_verdict_proceed {hooks : List (α → Except Fault (Verdict α))}
    (keep : ∀ hook ∈ hooks, ∀ a b, hook a = .ok (.proceed b) → b = a) {a b : α}
    (h : verdict hooks a = .ok (.proceed b)) : b = a :=
  of_verdict_proceed (Q := (· = a)) (fun hook mem c d same answer => (keep hook mem c d answer).trans same) rfl h

theorem preVerdict_total {hooks : Hooks} (total : hooks.Total) (cx : Context) (action : Action) :
    ∃ v, hooks.preVerdict cx action = .ok v := by
  apply verdict_total
  intro hook mem a
  obtain ⟨h, hh, rfl⟩ := List.mem_map.1 mem
  exact total.pre h hh cx a

theorem clickVerdict_total {hooks : Hooks} (total : hooks.Total) (cx : Context) (action : Action) (outcome : Outcome) :
    ∃ v, hooks.clickVerdict cx action outcome = .ok v := by
  apply verdict_total
  intro hook mem o
  obtain ⟨h, hh, rfl⟩ := List.mem_map.1 mem
  exact total.click h hh cx action o

theorem eq_of_clickVerdict_proceed {hooks : Hooks} (keep : hooks.KeepOutcomes) {cx : Context} {action : Action}
    {o o' : Outcome} (h : hooks.clickVerdict cx action o = .ok (.proceed o')) : o' = o := by
  apply eq_of_verdict_proceed _ h
  intro hook mem a b answer
  obtain ⟨k, hk, rfl⟩ := List.mem_map.1 mem
  exact keep k hk cx action a b answer

/-- A chain answers the verdict of its hooks and adds their calls to the trace. -/
theorem outcome_chain (call : Nat → α → HookCall) (i : Nat) (hooks : List (α → Except Fault (Verdict α))) (a : α)
    (trace : List HookCall) :
    ∃ calls, (chain call i hooks a).outcome trace = (verdict hooks a, trace ++ calls) ∧
      ∀ c ∈ calls, ∃ j b, c = call j b := by
  induction hooks generalizing i a trace with
  | nil => exact ⟨[], by simp [chain, verdict]⟩
  | cons hook rest ih =>
    unfold chain verdict
    rw [outcome_bind, outcome_ofExcept]
    rcases hook a with e | v
    · exact ⟨[], by simp⟩
    · simp only
      rw [outcome_bind, outcome_modify]
      cases v with
      | proceed b =>
        obtain ⟨calls, run, shape⟩ := ih (i + 1) b (trace ++ [call i a])
        refine ⟨call i a :: calls, ?_, ?_⟩
        · simp [run]
        · intro c mem
          rcases List.mem_cons.1 mem with rfl | mem
          · exact ⟨i, a, rfl⟩
          · exact shape c mem
      | cancel => exact ⟨[call i a], by simp, fun c mem => ⟨i, a, List.mem_singleton.1 mem⟩⟩

theorem outcome_runPre (hooks : Hooks) (cx : Context) (action : Action) (trace : List HookCall) :
    ∃ calls, (hooks.runPre cx action).outcome trace = (hooks.preVerdict cx action, trace ++ calls) ∧
      ∀ c ∈ calls, c.stage ≠ .post := by
  obtain ⟨calls, run, shape⟩ := outcome_chain (fun i a => ⟨.pre, i, cx, a, none⟩) 0 (hooks.pre.map (· cx)) action trace
  refine ⟨calls, run, fun c mem => ?_⟩
  obtain ⟨j, b, rfl⟩ := shape c mem
  simp

theorem outcome_runClick (hooks : Hooks) (cx : Context) (action : Action) (outcome : Outcome)
    (trace : List HookCall) :
    ∃ calls, (hooks.runClick cx action outcome).outcome trace =
        (hooks.clickVerdict cx action outcome, trace ++ calls) ∧
      ∀ c ∈ calls, c.stage ≠ .post := by
  obtain ⟨calls, run, shape⟩ :=
    outcome_chain (fun i o => ⟨.click, i, cx, action, some o⟩) 0 (hooks.click.map (· cx action)) outcome trace
  refine ⟨calls, run, fun c mem => ?_⟩
  obtain ⟨j, b, rfl⟩ := shape c mem
  simp

theorem outcome_runPostFrom (cx : Context) (action : Action) (outcome : Outcome) (i : Nat)
    (hooks : List (Context → Action → Outcome → Except Fault Unit)) (trace : List HookCall) :
    (runPostFrom cx action outcome i hooks).outcome trace =
        (.ok ⟨⟩, trace ++ (List.range' i hooks.length).map fun j => ⟨.post, j, cx, action, some outcome⟩) ∨
      ∃ hook ∈ hooks, ∃ e calls, hook cx action outcome = .error e ∧
        (runPostFrom cx action outcome i hooks).outcome trace = (.error e, trace ++ calls) := by
  induction hooks generalizing i trace with
  | nil => exact .inl (by simp [runPostFrom])
  | cons hook rest ih =>
    unfold runPostFrom
    rw [outcome_bind, outcome_ofExcept]
    rcases answer : hook cx action outcome with e | u
    · exact .inr ⟨hook, by simp, e, [], answer, by simp⟩
    · simp only
      rw [outcome_bind, outcome_modify]
      simp only
      rcases ih (i + 1) (trace ++ [⟨.post, i, cx, action, some outcome⟩]) with run | ⟨k, mem, e, calls, stop, run⟩
      · exact .inl (by simp [run, List.range'_succ])
      · exact .inr ⟨k, by simp [mem], e, ⟨.post, i, cx, action, some outcome⟩ :: calls, stop, by simp [run]⟩

theorem outcome_runPost (hooks : Hooks) (cx : Context) (action : Action) (outcome : Outcome) (trace : List HookCall) :
    (hooks.runPost cx action outcome).outcome trace =
        (.ok ⟨⟩, trace ++ hooks.postCalls cx action outcome) ∨
      ∃ hook ∈ hooks.post, ∃ e calls, hook cx action outcome = .error e ∧
        (hooks.runPost cx action outcome).outcome trace = (.error e, trace ++ calls) := by
  have h := outcome_runPostFrom cx action outcome 0 hooks.post trace
  rwa [← List.range_eq_range'] at h

end InventoryClicks.Hooks
