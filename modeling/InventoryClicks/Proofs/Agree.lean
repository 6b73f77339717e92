import InventoryClicks.Transfer.Basic
import InventoryClicks.Proofs.Ends

/-!
# Steps from related states

`StepM.Agree R P m` says that from two related states the steps `m` come to the same end: the same answer, with `P`, or
the same fault, in states that are related again. With a relation between different states this says what the steps do
not depend on; with one that holds of equal states only, what they preserve. A transfer agrees if the slots that it
names can be read and written in related stores, and its operators keep what is known of the stacks
(`Transfer.run_agree`).
-/

namespace InventoryClicks

namespace StepM

variable {σ α β : Type} {R : σ → σ → Prop} {P : α → Prop} {Q : β → Prop}

/-- Two runs that come to the same end, in related states. -/
inductive Together (R : σ → σ → Prop) (P : α → Prop) :
    EStateM.Result Fault σ α → EStateM.Result Fault σ α → Prop where
  | ok (a : α) (t t' : σ) (good : P a) (related : R t t') : Together R P (.ok a t) (.ok a t')
  | error (e : Fault) (t t' : σ) (related : R t t') : Together R P (.error e t) (.error e t')

/-- From related states the steps come to the same end. -/
def Agree (R : σ → σ → Prop) (P : α → Prop) (m : StepM σ α) : Prop :=
  ∀ s s', R s s' → Together R P (m.run s) (m.run s')

theorem agree_pure {a : α} (good : P a) : Agree R P (pure a) := fun s s' related => .ok a s s' good related

theorem Agree.bind {x : StepM σ α} {f : α → StepM σ β} (first : Agree R P x) (next : ∀ a, P a → Agree R Q (f a)) :
    Agree R Q (x >>= f) := by
  intro s s' related
  have ends := first s s' related
  simp only [Bind.bind, EStateM.bind, EStateM.run] at ends ⊢
  generalize x s = r, x s' = r' at ends ⊢
  cases ends with
  | ok a t t' good related => exact next a good t t' related
  | error e t t' related => exact .error e t t' related

theorem agree_ofExcept {r : Except Fault α} (good : ∀ a, r = .ok a → P a) : Agree R P (ofExcept r) := by
  intro s s' related
  cases r with
  | ok a => exact .ok a s s' (good a rfl) related
  | error e => exact .error e s s' related

/-- Steps that depend on what related states have in common only. -/
theorem agree_get {k : σ → StepM σ β} (same : ∀ s s', R s s' → k s' = k s ∧ Agree R Q (k s)) :
    Agree R Q (get >>= k) := by
  intro s s' related
  obtain ⟨common, agree⟩ := same s s' related
  show Together R Q ((k s).run s) ((k s').run s')
  rw [common]
  exact agree s s' related

theorem agree_modify {f : σ → σ} (keeps : ∀ s s', R s s' → R (f s) (f s')) :
    Agree R (fun _ => True) (modify f : StepM σ PUnit) :=
  fun s s' related => .ok PUnit.unit (f s) (f s') trivial (keeps s s' related)

/-- An update that related states admit together. -/
theorem agree_update {f : σ → Except Fault σ}
    (keeps : ∀ s s', R s s' →
      (∃ t t', f s = .ok t ∧ f s' = .ok t' ∧ R t t') ∨ ∃ e, f s = .error e ∧ f s' = .error e) :
    Agree R (fun _ => True) (do set (← ofExcept (f (← get))) : StepM σ PUnit) := by
  intro s s' related
  show Together R _ ((ofExcept (f s) >>= set).run s) ((ofExcept (f s') >>= set).run s')
  rcases keeps s s' related with ⟨t, t', here, there, related'⟩ | ⟨e, here, there⟩
  · rw [here, there]
    exact .ok PUnit.unit t t' trivial related'
  · rw [here, there]
    exact .error e s s' related

end StepM

open StepM

variable {rule : StackingRule} {got good held : Stack → Prop}

namespace Operator

/-- Between a stack that was read and one that is carried along, the operator leaves one that may be written and one
that may be carried on. -/
def Keeps (op : Operator) (rule : StackingRule) (got good held : Stack → Prop) : Prop :=
  ∀ slot incoming e, got slot → held incoming → op rule slot incoming = .ok (some e) → good e.slot ∧ held e.incoming

theorem Keeps.onlyIf {op : Operator} (keeps : op.Keeps rule got good held) (holds : Condition) :
    (op.onlyIf holds).Keeps rule got good held := by
  intro slot incoming e read carried answer
  obtain ⟨b, -, chosen⟩ := bind_eq_ok.1 answer
  cases b with
  | true => exact keeps slot incoming e read carried chosen
  | false => cases chosen

/-- The operator's answer, and steps that go on with it. -/
theorem Keeps.agree_bind {σ β : Type} {R : σ → σ → Prop} {Q : β → Prop} {op : Operator}
    (keeps : op.Keeps rule got good held) {slot incoming : Stack} (read : got slot) (carried : held incoming)
    {next : Option Exchange → StepM σ β}
    (h : ∀ e?, (∀ e, e? = some e → good e.slot ∧ held e.incoming) → Agree R Q (next e?)) :
    Agree R Q (StepM.ofExcept (op rule slot incoming) >>= next) := by
  refine Agree.bind (agree_ofExcept ?_) h
  intro e? answer e found
  rw [found] at answer
  exact keeps slot incoming e read carried answer

/-- Collecting is filling in the other direction. -/
theorem Keeps.collect {limit : Int} (keeps : (fill limit).Keeps rule good good good) :
    (Operator.collect limit).Keeps rule good good good := by
  intro slot incoming e read carried answer
  obtain ⟨e?, filled, flipped⟩ := bind_eq_ok.1 answer
  injection flipped with flipped
  obtain ⟨e', found, rfl⟩ := Option.map_eq_some_iff.1 flipped
  rw [found] at filled
  exact (keeps incoming slot e' carried read filled).symm

end Operator

/-- Related stores answer alike for slots with `seen`, and stay related when the same stack is written there. -/
structure SlotStore.Link {σ : Type} [SlotStore σ] (R : σ → σ → Prop) (seen : Nat → Prop) (got good : Stack → Prop) :
    Prop where
  read : ∀ slot, seen slot → Agree R got (Transfer.readSlot slot : StepM σ Stack)
  write : ∀ slot s, seen slot → good s → Agree R (fun _ => True) (Transfer.writeSlot slot s : StepM σ Unit)

namespace Transfer

/-- Every operator of the transfer keeps what is known of the stacks, and it names slots with `seen` only. -/
def Keeps (rule : StackingRule) (seen : Nat → Prop) (got good held : Stack → Prop) : Transfer → Prop
  | sweep op slots => op.Keeps rule got good held ∧ ∀ slot ∈ slots, seen slot
  | andThen first second => first.Keeps rule seen got good held ∧ second.Keeps rule seen got good held

theorem add_keeps {seen : Nat → Prop} {fill air : List Nat}
    (keeps : (Operator.fill Amount.unlimited).Keeps rule got good held) (filled : ∀ slot ∈ fill, seen slot)
    (empty : ∀ slot ∈ air, seen slot) : (add fill air).Keeps rule seen got good held :=
  ⟨⟨keeps.onlyIf _, filled⟩, keeps.onlyIf _, empty⟩

variable {σ : Type} [SlotStore σ] {R : σ → σ → Prop} {seen : Nat → Prop}

theorem runSweep_agree (link : SlotStore.Link R seen got good) {op : Operator} (keeps : op.Keeps rule got good held)
    {slots : List Nat} (inside : ∀ slot ∈ slots, seen slot) {item : Stack} (carried : held item) :
    Agree R held (runSweep rule op slots item : StepM σ Stack) := by
  induction slots generalizing item with
  | nil => exact agree_pure carried
  | cons slot slots ih =>
    have later : ∀ i ∈ slots, seen i := fun i mem => inside i (by simp [mem])
    have here : seen slot := inside slot (by simp)
    unfold runSweep
    apply (link.read slot here).bind
    intro current read
    apply keeps.agree_bind read carried
    rintro (_ | e) kept
    · exact ih later carried
    · obtain ⟨written, passed⟩ := kept e rfl
      apply (link.write slot e.slot here written).bind
      intro _ _
      exact ih later passed

/-- A transfer comes to the same end over related stores, and what is left of its item may be carried on. -/
theorem run_agree (link : SlotStore.Link R seen got good) {t : Transfer} (keeps : t.Keeps rule seen got good held)
    {item : Stack} (carried : held item) : Agree R held (t.run rule item : StepM σ Stack) := by
  induction t generalizing item with
  | sweep op slots => exact runSweep_agree link keeps.1 keeps.2 carried
  | andThen first second ih₁ ih₂ =>
    unfold run
    apply (ih₁ keeps.1 carried).bind
    intro rest left
    exact ih₂ keeps.2 left

end Transfer

end InventoryClicks
