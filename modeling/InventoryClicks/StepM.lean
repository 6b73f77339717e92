import InventoryClicks.Fault

/-!
# Steps on a state

`StepM σ` computes on a state and may stop at a fault. The state outlives the fault: what was done before it
stays done. The lemmas read a run backwards: what a computation that came to its end says of its parts.
-/

namespace InventoryClicks

abbrev StepM (σ : Type) := EStateM Fault σ

namespace StepM

variable {σ τ α : Type}

def ofExcept : Except Fault α → StepM σ α
  | .ok a => pure a
  | .error e => throw e

/-- Steps on a part of the state. -/
def focus (view : σ → τ) (put : τ → σ → σ) (m : StepM τ α) : StepM σ α := fun s =>
  match m.run (view s) with
  | .ok a t => .ok a (put t s)
  | .error e t => .error e (put t s)

/-- Outcome and last state. -/
def outcome (m : StepM σ α) (s : σ) : Except Fault α × σ :=
  match m.run s with
  | .ok a t => (.ok a, t)
  | .error e t => (.error e, t)

/-- Answers how the steps end, and goes on from the state they leave. -/
def attempt (m : StepM σ α) : StepM σ (Except Fault α) := fun s =>
  let (r, t) := m.outcome s
  .ok r t

section

variable {β : Type} {s t : σ} {a b : α}

@[simp] theorem run_pure_eq_ok : (pure a : StepM σ α).run s = .ok b t ↔ a = b ∧ s = t := by
  simp [pure, EStateM.pure, EStateM.run]

theorem run_bind_eq_ok {x : StepM σ α} {f : α → StepM σ β} {c : β} :
    (x >>= f).run s = .ok c t ↔ ∃ a u, x.run s = .ok a u ∧ (f a).run u = .ok c t := by
  simp only [bind, EStateM.bind, EStateM.run]
  cases x s with
  | error e u => simp
  | ok a u => exact ⟨fun h => ⟨a, u, rfl, h⟩, fun ⟨_, _, e, h⟩ => by cases e; exact h⟩

@[simp] theorem run_ofExcept_eq_ok {r : Except Fault α} : (ofExcept r : StepM σ α).run s = .ok a t ↔ r = .ok a ∧ s = t := by
  cases r with
  | error e => exact ⟨nofun, nofun⟩
  | ok b => exact run_pure_eq_ok.trans (by rw [Except.ok.injEq])

@[simp] theorem run_get_eq_ok {u : σ} : (get : StepM σ σ).run s = .ok u t ↔ s = u ∧ s = t :=
  run_pure_eq_ok

@[simp] theorem run_set_eq_ok {u : σ} {v : PUnit} : (set u : StepM σ PUnit).run s = .ok v t ↔ u = t :=
  run_pure_eq_ok.trans (and_iff_right rfl)

@[simp] theorem run_modify_eq_ok {f : σ → σ} {v : PUnit} : (modify f : StepM σ PUnit).run s = .ok v t ↔ f s = t :=
  run_pure_eq_ok.trans (and_iff_right rfl)

theorem outcome_eq_ok {m : StepM σ α} : m.outcome s = (.ok a, t) ↔ m.run s = .ok a t := by
  simp only [outcome]
  split <;> simp_all

theorem run_attempt_eq_ok {m : StepM σ α} {r : Except Fault α} :
    m.attempt.run s = .ok r t ↔ m.outcome s = (r, t) := by
  simp only [attempt, EStateM.run, EStateM.Result.ok.injEq, Prod.ext_iff]

end

end StepM

end InventoryClicks
