import InventoryClicks.StepM

/-!
# Steps that come to their end

`Ends m s Q` says that the steps `m` from the state `s` stop at no fault, and that their answer and last state
satisfy `Q`. Its rules follow the combinators, so a proof goes through a computation in the order in which it
runs. The `outcome_…` equations run a computation forwards, whether it comes to its end or stops at a fault.
-/

namespace InventoryClicks

theorem bind_eq_ok {ε α β : Type} {x : Except ε α} {f : α → Except ε β} {b : β} :
    (x >>= f) = .ok b ↔ ∃ a, x = .ok a ∧ f a = .ok b := by
  cases x with
  | error e => exact ⟨nofun, nofun⟩
  | ok a => exact ⟨fun h => ⟨a, rfl, h⟩, fun ⟨_, same, h⟩ => by cases same; exact h⟩

theorem bind_eq_error {ε α β : Type} {x : Except ε α} {f : α → Except ε β} {e : ε} :
    (x >>= f) = .error e ↔ x = .error e ∨ ∃ a, x = .ok a ∧ f a = .error e := by
  cases x with
  | error e' =>
    have stops : ((Except.error e' : Except ε α) >>= f) = .error e' := rfl
    simp [stops]
  | ok a =>
    have goes : (Except.ok a >>= f) = f a := rfl
    simp [goes]

namespace StepM

variable {σ τ α β : Type} {s t : σ} {a : α} {P : α → σ → Prop} {Q : β → σ → Prop}

@[simp] theorem run_ofExcept_ok (a : α) (s : σ) : (ofExcept (.ok a) : StepM σ α).run s = .ok a s := rfl

theorem run_get (s : σ) : (get : StepM σ σ).run s = .ok s s := rfl

theorem run_set (t s : σ) : (set t : StepM σ PUnit).run s = .ok ⟨⟩ t := rfl

theorem run_modify (f : σ → σ) (s : σ) : (modify f : StepM σ PUnit).run s = .ok ⟨⟩ (f s) := rfl

theorem run_pure (a : α) (s : σ) : (pure a : StepM σ α).run s = .ok a s := rfl

/-- The steps stop at no fault, and what they answer and leave satisfies `Q`. -/
def Ends (m : StepM σ α) (s : σ) (P : α → σ → Prop) : Prop :=
  ∃ a t, m.run s = .ok a t ∧ P a t

theorem Ends.mono {m : StepM σ α} {P' : α → σ → Prop} (h : Ends m s P) (weaken : ∀ a t, P a t → P' a t) :
    Ends m s P' := by
  obtain ⟨a, t, run, post⟩ := h
  exact ⟨a, t, run, weaken a t post⟩

/-- Steps in sequence end where the second end from every state that the first may leave. -/
theorem Ends.bind {x : StepM σ α} {f : α → StepM σ β} (hx : Ends x s P) (hf : ∀ a t, P a t → Ends (f a) t Q) :
    Ends (x >>= f) s Q := by
  obtain ⟨a, t, run, post⟩ := hx
  obtain ⟨b, u, run', post'⟩ := hf a t post
  exact ⟨b, u, run_bind_eq_ok.2 ⟨a, t, run, run'⟩, post'⟩

/-- First steps whose end is known. -/
theorem ends_bind_of_run {x : StepM σ α} {f : α → StepM σ β} (hx : x.run s = .ok a t) (hf : Ends (f a) t Q) :
    Ends (x >>= f) s Q :=
  Ends.bind (P := fun b u => b = a ∧ u = t) ⟨a, t, hx, rfl, rfl⟩ (by rintro b u ⟨rfl, rfl⟩; exact hf)

theorem ends_of_run {m : StepM σ α} (run : m.run s = .ok a t) (post : P a t) : Ends m s P := ⟨a, t, run, post⟩

theorem ends_pure (post : P a s) : Ends (pure a) s P := ⟨a, s, rfl, post⟩

section

variable {x : StepM σ α} {f : α → StepM σ β}

@[simp] theorem outcome_pure : (pure a : StepM σ α).outcome s = (.ok a, s) := rfl

theorem outcome_bind : (x >>= f).outcome s =
    match x.outcome s with
    | (.ok a, t) => (f a).outcome t
    | (.error e, t) => (.error e, t) := by
  simp only [outcome, bind, EStateM.bind, EStateM.run]
  cases x s <;> rfl

/-- The outcome of steps in sequence, when that of the first is known. -/
theorem outcome_bind_ok (h : x.outcome s = (.ok a, t)) : (x >>= f).outcome s = (f a).outcome t := by
  rw [outcome_bind, h]

theorem outcome_bind_error {e : Fault} (h : x.outcome s = (.error e, t)) : (x >>= f).outcome s = (.error e, t) := by
  rw [outcome_bind, h]

@[simp] theorem outcome_ofExcept (r : Except Fault α) : (ofExcept r : StepM σ α).outcome s = (r, s) := by
  cases r <;> rfl

@[simp] theorem outcome_modify (g : σ → σ) : (modify g : StepM σ PUnit).outcome s = (.ok ⟨⟩, g s) := rfl

theorem outcome_focus {view : σ → τ} {put : τ → σ → σ} {m : StepM τ α} :
    (focus view put m).outcome s = ((m.outcome (view s)).1, put (m.outcome (view s)).2 s) := by
  simp only [outcome, focus, EStateM.run]
  cases m (view s) <;> rfl

theorem outcome_of_run {m : StepM σ α} (run : m.run s = .ok a t) : m.outcome s = (.ok a, t) := outcome_eq_ok.2 run

end

end StepM

end InventoryClicks
