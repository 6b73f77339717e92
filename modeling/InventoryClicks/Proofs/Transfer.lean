import InventoryClicks.Transfer.Basic
import InventoryClicks.Proofs.Ends
import InventoryClicks.Proofs.Weight

/-!
# Transfers only move items

Under a rule that counts items as they are, `Operator.fill` and `Operator.collect` move items from one stack to the
other, and `Operator.take` removes the same items from both. The item may be weighed by another weight than the slots, so
that either is a trade. A transfer keeps what all its steps keep (`Transfer.run_preserves`), and if these are trades, it keeps the
weight of its item and the store it runs over together (`Transfer.run_trades`), for any store that keeps an account of the
slots the transfer names.
-/

namespace InventoryClicks

namespace StackingRule

/-- The rule counts the items of a stack, and lets no more than a stack can count share a slot. -/
structure Honest (rule : StackingRule) : Prop where
  amount : ∀ s, rule.amount s = .ok (s.count : Int)
  withAmount : ∀ s n, rule.withAmount s n = s.withCount n
  maxSize_nonneg : ∀ s, 0 ≤ rule.maxSize s
  maxSize_le : ∀ s, rule.maxSize s ≤ 127

/-- Items that share a slot weigh the same. -/
def Respects (rule : StackingRule) (w : Weight) : Prop :=
  ∀ a b : Stack, rule.canStack a b = true → w a.material a.data = w b.material b.data

/-- Counting one item more stops at no fault. -/
theorem Honest.amount_succ {rule : StackingRule} (honest : rule.Honest) (s : Stack) :
    (do Amount.add (← rule.amount s) 1 : Except Fault Int) = .ok (s.count + 1 : Int) := by
  have count_le := s.count_le
  have sum : Amount.add s.count 1 = .ok (s.count + 1 : Int) := Amount.add_eq_ok (by unfold Amount.InRange; omega)
  simp only [honest.amount, bind, Except.bind, sum]

theorem honest_standard : standard.Honest where
  amount _ := rfl
  withAmount _ _ := rfl
  maxSize_nonneg s := by simp
  maxSize_le s := by
    have := s.material.maxStack_le
    simp only [maxSize_standard]
    omega

theorem respects_standard (w : Weight) : standard.Respects w := by
  intro a b stack
  obtain ⟨material, data⟩ := canStack_standard_iff.1 stack
  rw [material, data]

end StackingRule

variable {rule : StackingRule} {w u : Weight}

/-- What is left of two stacks weighs as much as they did, in the slot by `w` and on the way by `u`. -/
def Exchange.Trades (w u : Weight) (slot incoming : Stack) (e : Exchange) : Prop :=
  e.slot.weight w + e.incoming.weight u = slot.weight w + incoming.weight u

/-- What is left of two stacks weighs as much as they did. -/
abbrev Exchange.Balances (w : Weight) (slot incoming : Stack) (e : Exchange) : Prop := e.Trades w w slot incoming

namespace Condition

/-- The condition stops at no fault. -/
def Answers (holds : Condition) (rule : StackingRule) : Prop :=
  ∀ slot incoming, ∃ b, holds rule slot incoming = .ok b

theorem slotEmpty_answers : slotEmpty.Answers rule := fun _ _ => ⟨_, rfl⟩

theorem slotFilled_answers : slotFilled.Answers rule := fun _ _ => ⟨_, rfl⟩

theorem slotPartial_answers (honest : rule.Honest) : slotPartial.Answers rule := by
  intro slot incoming
  simp only [slotPartial, honest.amount]
  exact ⟨_, rfl⟩

theorem slotFull_answers (honest : rule.Honest) : slotFull.Answers rule := by
  intro slot incoming
  simp only [slotFull, honest.amount]
  exact ⟨_, rfl⟩

end Condition

namespace Operator

/-- The operator always answers, and what it leaves is a trade. -/
def Trades (op : Operator) (rule : StackingRule) (w u : Weight) : Prop :=
  ∀ slot incoming, ∃ e?, op rule slot incoming = .ok e? ∧ ∀ e, e? = some e → e.Trades w u slot incoming

/-- The operator always answers, and neither makes nor destroys weight. -/
abbrev Balanced (op : Operator) (rule : StackingRule) (w : Weight) : Prop := op.Trades rule w w

theorem fill_balanced (honest : rule.Honest) (respects : rule.Respects w) (limit : Int) :
    (fill limit).Balanced rule w := by
  intro slot incoming
  have slot_le := slot.count_le
  have incoming_le := incoming.count_le
  have size_nonneg := honest.maxSize_nonneg incoming
  have size_le := honest.maxSize_le incoming
  unfold fill
  rcases nothing : incoming.isEmpty with _ | _
  swap
  · exact ⟨none, rfl, by simp⟩
  rcases apart : !slot.isEmpty && !rule.canStack slot incoming
  swap
  · exact ⟨none, by simp [pure, Except.pure], by simp⟩
  have space : Amount.sub (rule.maxSize incoming) slot.count = .ok (rule.maxSize incoming - slot.count) :=
    Amount.sub_eq_ok (by unfold Amount.InRange; omega)
  simp only [Bool.false_eq_true, ↓reduceIte, honest.amount, honest.withAmount, bind, Except.bind, space]
  generalize move : min (min (incoming.count : Int) limit) (rule.maxSize incoming - slot.count) = moved
  by_cases none_moved : moved ≤ 0
  · exact ⟨none, by simp [none_moved, pure, Except.pure], by simp⟩
  have sum : Amount.add slot.count moved = .ok (slot.count + moved) :=
    Amount.add_eq_ok (by unfold Amount.InRange; omega)
  have difference : Amount.sub incoming.count moved = .ok (incoming.count - moved) :=
    Amount.sub_eq_ok (by unfold Amount.InRange; omega)
  simp only [none_moved, ↓reduceIte, sum, difference]
  refine ⟨_, rfl, ?_⟩
  rintro e ⟨⟩
  -- an empty slot weighs nothing, and any other holds items like the incoming ones
  have held : slot.weight w = slot.count * w incoming.material incoming.data := by
    rcases empty : slot.isEmpty
    · have stack : rule.canStack slot incoming = true := by simpa [empty] using apart
      rw [Stack.weight, respects slot incoming stack]
    · simp [Stack.isEmpty_iff.1 empty]
  unfold Exchange.Trades
  rw [Stack.weight_withCount nothing (by omega) (by omega), Stack.weight_withCount nothing (by omega) (by omega), held,
    Stack.weight, Int.add_mul, Int.sub_mul]
  omega

theorem collect_balanced (honest : rule.Honest) (respects : rule.Respects w) (limit : Int) :
    (collect limit).Balanced rule w := by
  intro slot incoming
  obtain ⟨e?, answer, balances⟩ := fill_balanced honest respects limit incoming slot
  refine ⟨e?.map Exchange.flip, by simp [collect, answer, bind, Except.bind, pure, Except.pure], ?_⟩
  intro e flipped
  obtain ⟨e', found, rfl⟩ := Option.map_eq_some_iff.1 flipped
  have balanced : e'.slot.weight w + e'.incoming.weight w = incoming.weight w + slot.weight w := balances e' found
  unfold Exchange.Trades Exchange.flip
  simp only
  omega

/-- What `take` removes from the slot, it removes from the incoming stack. -/
theorem take_trades (honest : rule.Honest) (respects : rule.Respects w) : take.Trades rule w (-w) := by
  intro slot incoming
  have slot_le := slot.count_le
  have incoming_le := incoming.count_le
  unfold take
  rcases idle : slot.isEmpty || incoming.isEmpty || !rule.canStack slot incoming with _ | _
  swap
  · exact ⟨none, rfl, by simp⟩
  simp only [Bool.or_eq_false_iff, Bool.not_eq_false'] at idle
  obtain ⟨⟨held, wanted⟩, stack⟩ := idle
  simp only [Bool.false_eq_true, ↓reduceIte, honest.amount, honest.withAmount, bind, Except.bind]
  generalize least : min (slot.count : Int) incoming.count = taken
  have left : Amount.sub slot.count taken = .ok (slot.count - taken) :=
    Amount.sub_eq_ok (by unfold Amount.InRange; omega)
  have open_ : Amount.sub incoming.count taken = .ok (incoming.count - taken) :=
    Amount.sub_eq_ok (by unfold Amount.InRange; omega)
  simp only [left, open_]
  refine ⟨_, rfl, ?_⟩
  rintro e ⟨⟩
  unfold Exchange.Trades
  rw [Stack.weight_neg, Stack.weight_neg, Stack.weight_withCount held (by omega) (by omega),
    Stack.weight_withCount wanted (by omega) (by omega), Stack.weight, Stack.weight, respects slot incoming stack,
    Int.sub_mul, Int.sub_mul]
  omega

theorem onlyIf_trades {op : Operator} {holds : Condition} (trades : op.Trades rule w u)
    (answers : holds.Answers rule) : (op.onlyIf holds).Trades rule w u := by
  intro slot incoming
  obtain ⟨b, answer⟩ := answers slot incoming
  unfold onlyIf
  cases b with
  | true =>
    obtain ⟨e?, moved, traded⟩ := trades slot incoming
    exact ⟨e?, by simp [answer, moved, bind, Except.bind], traded⟩
  | false => exact ⟨none, by simp [answer, bind, Except.bind, pure, Except.pure], by simp⟩

end Operator

/-- An account of a store. Reading and writing at slots with `p` keeps `sound`, and a write trades the weight of the
stack that was read there for that of the new one. -/
structure SlotStore.Account {σ : Type} [SlotStore σ] (w : Weight) (p : Nat → Prop) (sound : σ → Prop)
    (weight : σ → Int) : Prop where
  trade : ∀ s slot, sound s → p slot → ∃ old, SlotStore.read s slot = .ok old ∧
    ∀ new, ∃ s', SlotStore.write s slot new = .ok s' ∧ sound s' ∧
      weight s' + old.weight w = weight s + new.weight w

/-- The operator always answers at the slot, and what is written keeps what holds of the store and of the item on its way. -/
def Operator.Preserves {σ : Type} [SlotStore σ] (op : Operator) (rule : StackingRule) (I : σ → Stack → Prop) (slot : Nat) :
    Prop :=
  ∀ s item, I s item → ∃ current e?, SlotStore.read s slot = .ok current ∧ op rule current item = .ok e? ∧
    ∀ e, e? = some e → ∃ s', SlotStore.write s slot e.slot = .ok s' ∧ I s' e.incoming

namespace Transfer

/-- Every operator of the transfer trades, and it names slots with `p` only. -/
def Trades (rule : StackingRule) (w u : Weight) (p : Nat → Prop) : Transfer → Prop
  | sweep op slots => op.Trades rule w u ∧ ∀ slot ∈ slots, p slot
  | andThen first second => first.Trades rule w u p ∧ second.Trades rule w u p

/-- Every operator of the transfer is balanced, and it names slots with `p` only. -/
abbrev Balanced (rule : StackingRule) (w : Weight) (p : Nat → Prop) (t : Transfer) : Prop := t.Trades rule w w p

theorem add_balanced {p : Nat → Prop} (honest : rule.Honest) (respects : rule.Respects w) {fill air : List Nat}
    (hfill : ∀ slot ∈ fill, p slot) (hair : ∀ slot ∈ air, p slot) : (add fill air).Balanced rule w p :=
  ⟨⟨Operator.onlyIf_trades (Operator.fill_balanced honest respects _) Condition.slotFilled_answers, hfill⟩,
    Operator.onlyIf_trades (Operator.fill_balanced honest respects _) Condition.slotEmpty_answers, hair⟩

variable {σ : Type} [SlotStore σ] {p : Nat → Prop} {sound : σ → Prop} {weight : σ → Int}

/-- Every meeting of the item with a slot keeps what holds of the store and the item. -/
def Preserves (rule : StackingRule) (I : σ → Stack → Prop) : Transfer → Prop
  | sweep op slots => ∀ slot ∈ slots, op.Preserves rule I slot
  | andThen first second => first.Preserves rule I ∧ second.Preserves rule I

open StepM

section

variable {op : Operator} {slot : Nat} {slots : List Nat} {s s' : σ} {current item : Stack}

theorem outcome_readSlot (slot : Nat) (s : σ) : (readSlot slot : StepM σ Stack).outcome s = (SlotStore.read s slot, s) :=
  outcome_ofExcept _

theorem outcome_runSweep_error {e : Fault} (read : SlotStore.read s slot = .error e) :
    (runSweep rule op (slot :: slots) item).outcome s = (.error e, s) := by
  have first := outcome_readSlot slot s
  rw [read] at first
  rw [runSweep, outcome_bind_error first]

/-- The sweep goes past a slot. -/
theorem outcome_runSweep_none (read : SlotStore.read s slot = .ok current) (answer : op rule current item = .ok none) :
    (runSweep rule op (slot :: slots) item).outcome s = (runSweep rule op slots item).outcome s := by
  have first := outcome_readSlot slot s
  have second : (StepM.ofExcept (op rule current item) : StepM σ _).outcome s = (.ok none, s) := by
    rw [outcome_ofExcept, answer]
  rw [read] at first
  rw [runSweep, outcome_bind_ok first, outcome_bind_ok second]

/-- The sweep changes a slot and goes on. -/
theorem outcome_runSweep_some {e : Exchange} (read : SlotStore.read s slot = .ok current)
    (answer : op rule current item = .ok (some e)) (write : SlotStore.write s slot e.slot = .ok s') :
    (runSweep rule op (slot :: slots) item).outcome s = (runSweep rule op slots e.incoming).outcome s' := by
  have first := outcome_readSlot slot s
  have second : (StepM.ofExcept (op rule current item) : StepM σ _).outcome s = (.ok (some e), s) := by
    rw [outcome_ofExcept, answer]
  have third : (writeSlot slot e.slot : StepM σ Unit).outcome s = (.ok ⟨⟩, s') :=
    outcome_of_run (by simp [writeSlot, write])
  rw [read] at first
  rw [runSweep, outcome_bind_ok first, outcome_bind_ok second]
  exact outcome_bind_ok third

end

variable {I : σ → Stack → Prop} {t : Transfer} {s : σ} {item : Stack}

theorem runSweep_preserves {op : Operator} {slots : List Nat} (preserves : ∀ slot ∈ slots, op.Preserves rule I slot)
    (h : I s item) : Ends (runSweep rule op slots item) s fun rest s' => I s' rest := by
  induction slots generalizing s item with
  | nil => exact ends_pure h
  | cons slot slots ih =>
    have later : ∀ slot ∈ slots, op.Preserves rule I slot := fun i mem => preserves i (by simp [mem])
    obtain ⟨current, e?, read, answer, write⟩ := preserves slot (by simp) s item h
    have run_read : (readSlot slot : StepM σ Stack).run s = .ok current s := by simp [readSlot, read]
    unfold runSweep
    apply ends_bind_of_run run_read
    rw [answer]
    apply ends_bind_of_run (run_ofExcept_ok e? s)
    cases e? with
    | none => exact ih later h
    | some e =>
      obtain ⟨s', wrote, h'⟩ := write e rfl
      have run_write : (writeSlot slot e.slot : StepM σ Unit).run s = .ok ⟨⟩ s' := by simp [writeSlot, wrote]
      apply ends_bind_of_run run_write
      exact ih later h'

/-- A transfer whose every step keeps an invariant comes to its end with it. -/
theorem run_preserves (preserves : t.Preserves rule I) (h : I s item) : Ends (t.run rule item) s fun rest s' => I s' rest := by
  induction t generalizing s item with
  | sweep op slots => exact runSweep_preserves preserves h
  | andThen first second ih₁ ih₂ =>
    unfold run
    exact Ends.bind (ih₁ preserves.1 h) fun rest s' h' => ih₂ preserves.2 h'

/-- In a trade, what is in the store and what is on its way weigh together what they did. -/
theorem Trades.preserves (account : SlotStore.Account w p sound weight) (trades : t.Trades rule w u p) (total : Int) :
    t.Preserves rule fun s item => sound s ∧ weight s + item.weight u = total := by
  induction t with
  | sweep op slots =>
    rintro slot mem s item ⟨h, sum⟩
    obtain ⟨current, read, write⟩ := account.trade s slot h (trades.2 slot mem)
    obtain ⟨e?, answer, trade⟩ := trades.1 current item
    refine ⟨current, e?, read, answer, fun e some => ?_⟩
    obtain ⟨s', wrote, h', traded⟩ := write e.slot
    have kept : e.slot.weight w + e.incoming.weight u = current.weight w + item.weight u := trade e some
    exact ⟨s', wrote, h', by omega⟩
  | andThen first second ih₁ ih₂ => exact ⟨ih₁ trades.1, ih₂ trades.2⟩

/-- **Transfers.** A transfer that trades stops at no fault. What it takes out of the store is in what is left of the item,
as the weight of items on their way has it. -/
theorem run_trades (account : SlotStore.Account w p sound weight) (trades : t.Trades rule w u p) (h : sound s)
    (item : Stack) :
    Ends (t.run rule item) s fun rest s' => sound s' ∧ weight s' + rest.weight u = weight s + item.weight u :=
  run_preserves (trades.preserves account _) ⟨h, rfl⟩

end Transfer

end InventoryClicks
