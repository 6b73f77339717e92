import Mathlib.Algebra.Order.BigOperators.Group.Finset
import Mathlib.Data.List.TakeWhile
import InventoryClicks.Proofs.Transfer

/-!
# Dealing items along slots

An operator deals items if every stack has a share of them, takes it as far as the items last, and takes no more when it has
taken its share. What a sweep along slots does with such an operator is told by the stacks that it begins with, also where
slots repeat: a slot gets what the slots before it leave of its share (`Dealing.part`), and what is left over is what
exceeds all the shares (one more slot in `Transfer.deals_step`, all of them in `Transfer.runSweep_deals`). An operator that
deals to some stacks only goes past the others, and two sweeps after each other deal like one along the slots of both
(`Transfer.run_andThen_deals`).
-/

namespace InventoryClicks

open StepM

/-- A store shows a stack in every slot with `p`. A read answers it, and a write changes it and no other. -/
structure SlotStore.Shows {σ : Type} [SlotStore σ] (p : Nat → Prop) (sound : σ → Prop) (look : σ → Nat → Stack) :
    Prop where
  read : ∀ s slot, sound s → p slot → SlotStore.read s slot = .ok (look s slot)
  write : ∀ s slot new, sound s → p slot →
    ∃ s', SlotStore.write s slot new = .ok s' ∧ sound s' ∧ look s' = Function.update (look s) slot new

/-- A way to deal items to stacks. -/
structure Dealing where
  /-- What goes on while so many items are left. -/
  carry : Nat → Stack
  /-- How many items a stack takes, if there are so many. -/
  share : Stack → Nat
  /-- The stack that has taken so many. -/
  dealt : Stack → Nat → Stack
  dealt_zero : ∀ s, dealt s 0 = s
  share_dealt : ∀ s, share (dealt s (share s)) = 0

/-- Of at most `n` items that come in, the operator gives a stack its share, or else all of them. -/
def Operator.Deals (op : Operator) (rule : StackingRule) (d : Dealing) (n : Nat) : Prop :=
  ∀ s m, m ≤ n → op rule s (d.carry m) =
    .ok (if min m (d.share s) = 0 then none
      else some ⟨d.dealt s (min m (d.share s)), d.carry (m - min m (d.share s))⟩)

/-- The operator deals to the stacks that are meant, and passes the others by. -/
def Operator.DealsTo (op : Operator) (rule : StackingRule) (d : Dealing) (meant : Stack → Bool) (n : Nat) : Prop :=
  ∀ s m, m ≤ n → op rule s (d.carry m) =
    .ok (if meant s = false ∨ min m (d.share s) = 0 then none
      else some ⟨d.dealt s (min m (d.share s)), d.carry (m - min m (d.share s))⟩)

namespace Operator.Deals

variable {op : Operator} {rule : StackingRule} {d : Dealing} {n : Nat} (deals : op.Deals rule d n)

include deals

/-- The same items, dealt under a condition on the stack in the slot. -/
theorem onlyIf {holds : Condition} {meant : Stack → Bool} (is : ∀ s incoming, holds rule s incoming = .ok (meant s)) :
    (op.onlyIf holds).DealsTo rule d meant n := by
  intro s m le
  unfold Operator.onlyIf
  simp only [is, bind, Except.bind]
  cases meant s with
  | true => simp only [deals s m le, ↓reduceIte, Bool.true_eq_false, false_or]
  | false => rfl

end Operator.Deals

namespace Dealing

variable (d : Dealing) (held : Nat → Stack) (n : Nat)

/-- The shares of all the slots, each counted once. -/
def total (slots : List Nat) : Nat := ∑ slot ∈ slots.toFinset, d.share (held slot)

/-- What a slot gets of `n` items that are dealt along `slots`: of its share, what the slots before it leave. -/
def part (slots : List Nat) (slot : Nat) : Nat :=
  if slot ∈ slots then min (d.share (held slot)) (n - d.total held (slots.takeWhile (· != slot))) else 0

/-- What a slot holds when `n` items have been dealt along `slots`. -/
def after (slots : List Nat) (slot : Nat) : Stack := d.dealt (held slot) (d.part held n slots slot)

variable {d held n} {slots : List Nat} {slot i : Nat}

@[simp] theorem total_nil : d.total held [] = 0 := rfl

theorem total_snoc_of_mem (mem : slot ∈ slots) : d.total held (slots ++ [slot]) = d.total held slots := by
  have same : (slots ++ [slot]).toFinset = slots.toFinset := by
    ext j
    simp only [List.mem_toFinset, List.mem_append, List.mem_singleton]
    exact ⟨fun h => h.elim id fun h => h ▸ mem, .inl⟩
  rw [total, same, total]

theorem total_snoc_of_notMem (new : slot ∉ slots) :
    d.total held (slots ++ [slot]) = d.total held slots + d.share (held slot) := by
  have insert : (slots ++ [slot]).toFinset = Insert.insert slot slots.toFinset := by
    ext j
    simp
  rw [total, insert, Finset.sum_insert (by simpa using new), Nat.add_comm, total]

variable (d held) in
/-- The slots before a slot and the slot itself have no more than all of them. -/
theorem total_before_le (mem : slot ∈ slots) :
    d.total held (slots.takeWhile (· != slot)) + d.share (held slot) ≤ d.total held slots := by
  have apart : slot ∉ slots.takeWhile (· != slot) := by
    intro before
    have differ := List.mem_takeWhile_imp before
    simp at differ
  rw [← total_snoc_of_notMem apart]
  apply Finset.sum_le_sum_of_subset
  intro j before
  simp only [List.mem_toFinset, List.mem_append, List.mem_singleton] at before ⊢
  rcases before with before | rfl
  · exact (List.takeWhile_sublist _).subset before
  · exact mem

theorem part_of_notMem (new : slot ∉ slots) : d.part held n slots slot = 0 := if_neg new

theorem part_append_of_mem (mem : slot ∈ slots) (later : List Nat) :
    d.part held n (slots ++ later) slot = d.part held n slots slot := by
  have before : (slots ++ later).takeWhile (· != slot) = slots.takeWhile (· != slot) := by
    rw [List.takeWhile_append, if_neg]
    intro same
    have all := List.takeWhile_eq_self_iff.1 (List.IsPrefix.eq_of_length (List.takeWhile_prefix _) same)
    simpa using all slot mem
  rw [part, if_pos (List.mem_append_left _ mem), before, part, if_pos mem]

theorem part_snoc_self (new : slot ∉ slots) :
    d.part held n (slots ++ [slot]) slot = min (d.share (held slot)) (n - d.total held slots) := by
  have before : (slots ++ [slot]).takeWhile (· != slot) = slots := by
    rw [List.takeWhile_append_of_pos]
    · simp
    · intro j mem
      have differ : j ≠ slot := fun same => new (same ▸ mem)
      simpa using differ
  rw [part, if_pos (by simp), before]

theorem part_snoc_of_ne (differ : i ≠ slot) : d.part held n (slots ++ [slot]) i = d.part held n slots i := by
  by_cases mem : i ∈ slots
  · exact part_append_of_mem mem _
  · rw [part_of_notMem (by simp [mem, differ]), part_of_notMem mem]

theorem part_le_share : d.part held n slots slot ≤ d.share (held slot) := by
  unfold part
  split
  · exact Nat.min_le_left _ _
  · exact Nat.zero_le _

/-- If the items exceed the shares, every slot gets its share. -/
theorem part_eq_share (many : d.total held slots < n) (mem : slot ∈ slots) :
    d.part held n slots slot = d.share (held slot) := by
  have most := total_before_le d held mem
  rw [part, if_pos mem]
  omega

theorem after_of_part (none : d.part held n slots slot = 0) : d.after held n slots slot = held slot := by
  rw [after, none, d.dealt_zero]

theorem after_of_share (none : d.share (held slot) = 0) : d.after held n slots slot = held slot :=
  after_of_part (Nat.eq_zero_of_le_zero (none ▸ part_le_share))

/-- A slot that changes has taken something. -/
theorem part_ne_zero (changed : d.after held n slots slot ≠ held slot) : d.part held n slots slot ≠ 0 :=
  fun none => changed (after_of_part none)

/-- Where items were dealt before, there are none left or none of the share is. -/
theorem nothing_left (mem : slot ∈ slots) :
    min (n - d.total held slots) (d.share (d.after held n slots slot)) = 0 := by
  have most := total_before_le d held mem
  by_cases all : d.part held n slots slot = d.share (held slot)
  · rw [after, all, d.share_dealt, Nat.min_zero]
  · rw [part, if_pos mem] at all
    omega

variable (d held n slots slot)

/-- One more slot, told by what it holds when its turn comes. -/
theorem after_snoc : d.after held n (slots ++ [slot]) = Function.update (d.after held n slots) slot
    (d.dealt (d.after held n slots slot) (min (n - d.total held slots) (d.share (d.after held n slots slot)))) := by
  funext i
  by_cases same : i = slot
  · subst same
    rw [Function.update_self]
    by_cases mem : i ∈ slots
    · rw [nothing_left mem, d.dealt_zero, after, part_append_of_mem mem, after]
    · rw [after_of_part (part_of_notMem mem), after, part_snoc_self mem, Nat.min_comm]
  · rw [Function.update_of_ne same, after, part_snoc_of_ne same, after]

theorem left_snoc : n - d.total held (slots ++ [slot]) =
    n - d.total held slots - min (n - d.total held slots) (d.share (d.after held n slots slot)) := by
  by_cases mem : slot ∈ slots
  · rw [nothing_left mem, total_snoc_of_mem mem, Nat.sub_zero]
  · rw [after_of_part (part_of_notMem mem), total_snoc_of_notMem mem]
    omega

variable {d held n slots slot}

/-- A slot gets what the slots before it leave. -/
theorem part_of_split {pre post : List Nat} (first : slot ∉ pre) :
    d.part held n (pre ++ slot :: post) slot = min (d.share (held slot)) (n - d.total held pre) := by
  have split : pre ++ slot :: post = pre ++ [slot] ++ post := by simp
  rw [split, part_append_of_mem (by simp), part_snoc_self first]

/-- Items come to a slot only when every slot before it has got its share. -/
theorem part_eq_share_before {pre post : List Nat} (first : slot ∉ pre)
    (some : d.part held n (pre ++ slot :: post) slot ≠ 0) (mem : i ∈ pre) :
    d.part held n (pre ++ slot :: post) i = d.share (held i) := by
  rw [part_of_split first] at some
  rw [part_append_of_mem mem]
  exact part_eq_share (by omega) mem

variable (d held) in
theorem total_le_append (xs ys : List Nat) : d.total held xs ≤ d.total held (xs ++ ys) := by
  apply Finset.sum_le_sum_of_subset
  intro i mem
  simp only [List.mem_toFinset, List.mem_append] at mem ⊢
  exact .inl mem

/-- All that the slots get are the items, as far as there are shares of them. -/
theorem sum_part (slots : List Nat) : ∑ i ∈ slots.toFinset, d.part held n slots i = min n (d.total held slots) := by
  induction slots using List.reverseRecOn with
  | nil => simp
  | append_singleton slots slot ih =>
    have before : ∑ i ∈ slots.toFinset, d.part held n (slots ++ [slot]) i = min n (d.total held slots) := by
      rw [← ih]
      refine Finset.sum_congr rfl fun i mem => part_append_of_mem ?_ _
      simpa using mem
    rw [List.toFinset_append, List.toFinset_cons, List.toFinset_nil]
    by_cases mem : slot ∈ slots
    · rw [total_snoc_of_mem mem, ← before, Finset.union_eq_left.2 (by simpa using mem)]
    · rw [Finset.union_comm, insert_empty_eq, ← Finset.insert_eq, Finset.sum_insert (by simpa using mem), before,
        part_snoc_self mem, total_snoc_of_notMem mem]
      omega

end Dealing

namespace Transfer

variable {σ : Type} [SlotStore σ] {p : Nat → Prop} {sound : σ → Prop} {look : σ → Nat → Stack}
variable {rule : StackingRule} {op : Operator} {d : Dealing} {meant : Stack → Bool} {n : Nat} {slots : List Nat} {s : σ}

/-- Slots that hold a stack that is meant. -/
abbrev due (meant : Stack → Bool) (held : Nat → Stack) (slots : List Nat) : List Nat :=
  slots.filter fun slot => meant (held slot)

theorem due_of_split {held : Nat → Stack} {pre post : List Nat} {slot : Nat} (wanted : meant (held slot))
    (split : slots = pre ++ slot :: post) : due meant held slots = due meant held pre ++ slot :: due meant held post := by
  have here : due meant held (slot :: post) = slot :: due meant held post := List.filter_cons_of_pos wanted
  rw [split, ← here, due, List.filter_append]

/-- A slot that is named once is not among those before it. -/
theorem notMem_of_once {pre post : List Nat} {slot : Nat} (once : slots.Nodup) (split : slots = pre ++ slot :: post) :
    slot ∉ pre := by
  rw [split] at once
  exact fun mem => List.disjoint_of_nodup_append once mem (by simp)

/-- If every stack is meant by one of two sweeps, they deal to all slots. -/
theorem toFinset_due {meant' : Stack → Bool} (either : ∀ s, meant s = true ∨ meant' s = true) (held : Nat → Stack)
    (slots : List Nat) : (due meant held slots ++ due meant' held slots).toFinset = slots.toFinset := by
  ext i
  simp only [due, List.mem_toFinset, List.mem_append, List.mem_filter, ← and_or_left, either, and_true]

/-- One slot more, when items have been dealt along those in `seen`: either it gets nothing, or the operator gives it what it
gets and goes on with fewer items. -/
theorem deals_step (deals : op.DealsTo rule d meant n) (held : Nat → Stack) (seen : List Nat) (slot : Nat) :
    (op rule (d.after held n seen slot) (d.carry (n - d.total held seen)) = .ok none ∧
      d.after held n (seen ++ due meant held [slot]) = d.after held n seen ∧
      n - d.total held (seen ++ due meant held [slot]) = n - d.total held seen) ∨
    ∃ new, op rule (d.after held n seen slot) (d.carry (n - d.total held seen)) =
        .ok (some ⟨new, d.carry (n - d.total held (seen ++ due meant held [slot]))⟩) ∧
      d.after held n (seen ++ due meant held [slot]) = Function.update (d.after held n seen) slot new ∧
      n - d.total held (seen ++ due meant held [slot]) < n - d.total held seen := by
  have answer := deals (d.after held n seen slot) (n - d.total held seen) (Nat.sub_le ..)
  -- a slot that was not seen yet holds what it held at first, and one that was takes nothing
  have fresh (new : slot ∉ seen) : d.after held n seen slot = held slot :=
    Dealing.after_of_part (Dealing.part_of_notMem new)
  have used (mem : slot ∈ seen) : min (n - d.total held seen) (d.share (d.after held n seen slot)) = 0 :=
    Dealing.nothing_left mem
  rcases wanted : meant (held slot)
  · have skip : due meant held [slot] = [] := List.filter_cons_of_neg (by simp [wanted])
    have idle : meant (d.after held n seen slot) = false ∨
        min (n - d.total held seen) (d.share (d.after held n seen slot)) = 0 := by
      by_cases mem : slot ∈ seen
      · exact .inr (used mem)
      · exact .inl (by rw [fresh mem, wanted])
    rw [if_pos idle] at answer
    rw [skip, List.append_nil]
    exact .inl ⟨answer, rfl, rfl⟩
  · have take : due meant held [slot] = [slot] := List.filter_cons_of_pos wanted
    rw [take, d.after_snoc, d.left_snoc]
    by_cases idle : min (n - d.total held seen) (d.share (d.after held n seen slot)) = 0
    · rw [if_pos (.inr idle)] at answer
      rw [idle, d.dealt_zero, Function.update_eq_self]
      exact .inl ⟨answer, rfl, rfl⟩
    · have meets : ¬ (meant (d.after held n seen slot) = false ∨
          min (n - d.total held seen) (d.share (d.after held n seen slot)) = 0) := by
        rintro (refused | none)
        · rw [fresh fun mem => idle (used mem), wanted] at refused
          cases refused
        · exact idle none
      rw [if_neg meets] at answer
      exact .inr ⟨_, answer, rfl, by omega⟩

/-- Further slots, when items have been dealt along those in `seen`. If none are dealt, nothing was written. -/
theorem runSweep_deals_from (shows : SlotStore.Shows p sound look) (deals : op.DealsTo rule d meant n)
    (inside : ∀ slot ∈ slots, p slot) (h : sound s) {held : Nat → Stack} {seen : List Nat}
    (here : look s = d.after held n seen) :
    ∃ s', (runSweep rule op slots (d.carry (n - d.total held seen))).outcome s =
        (.ok (d.carry (n - d.total held (seen ++ due meant held slots))), s') ∧
      sound s' ∧ look s' = d.after held n (seen ++ due meant held slots) ∧
      (n - d.total held (seen ++ due meant held slots) = n - d.total held seen → s' = s) := by
  induction slots generalizing s seen with
  | nil => exact ⟨s, by simp [runSweep], h, by simp [here], fun _ => rfl⟩
  | cons slot slots ih =>
    have later : ∀ slot ∈ slots, p slot := fun i mem => inside i (by simp [mem])
    have read := shows.read s slot h (inside slot (by simp))
    have next : seen ++ due meant held (slot :: slots) = seen ++ due meant held [slot] ++ due meant held slots := by
      rw [List.append_assoc, due, due, due, ← List.filter_append, List.singleton_append]
    rw [here] at read
    rw [next]
    rcases deals_step deals held seen slot with ⟨answer, same, left⟩ | ⟨new, answer, changed, fewer⟩
    · rw [outcome_runSweep_none read answer, ← left]
      exact ih later h (here.trans same.symm)
    · obtain ⟨s', write, h', look'⟩ := shows.write s slot new h (inside slot (by simp))
      rw [here, ← changed] at look'
      obtain ⟨s'', run, h'', look'', -⟩ := ih later h' look'
      rw [outcome_runSweep_some read answer write]
      refine ⟨s'', run, h'', look'', fun same => ?_⟩
      have more := d.total_le_append held (seen ++ due meant held [slot]) (due meant held slots)
      omega

/-- **Dealing.** A sweep that deals `n` items comes to its end. Left are those that exceed the shares of the slots that are
meant, and every such slot has got what those before it left of its share. -/
theorem runSweep_deals (shows : SlotStore.Shows p sound look) (deals : op.DealsTo rule d meant n)
    (inside : ∀ slot ∈ slots, p slot) (h : sound s) :
    ∃ s', (runSweep rule op slots (d.carry n)).outcome s =
        (.ok (d.carry (n - d.total (look s) (due meant (look s) slots))), s') ∧
      sound s' ∧ look s' = d.after (look s) n (due meant (look s) slots) ∧
      (min n (d.total (look s) (due meant (look s) slots)) = 0 → s' = s) := by
  have start : look s = d.after (look s) n [] := by
    funext slot
    exact (Dealing.after_of_part (Dealing.part_of_notMem List.not_mem_nil)).symm
  obtain ⟨s', run, h', look', same⟩ := runSweep_deals_from shows deals inside h start
  rw [Dealing.total_nil, Nat.sub_zero, List.nil_append] at run same
  exact ⟨s', run, h', look', fun none => same (by omega)⟩

/-- Two sweeps after each other deal along the slots that are meant by the first and then those meant by the second, as they
are at the beginning. -/
theorem run_andThen_deals {op' : Operator} {meant' : Stack → Bool} {slots' : List Nat}
    (shows : SlotStore.Shows p sound look) (deals : op.DealsTo rule d meant n) (deals' : op'.DealsTo rule d meant' n)
    (inside : ∀ slot ∈ slots, p slot) (inside' : ∀ slot ∈ slots', p slot) (h : sound s) {order : List Nat}
    (ordered : due meant (look s) slots ++ due meant' (look s) slots' = order) :
    ∃ s', (((sweep op slots).andThen (sweep op' slots')).run rule (d.carry n)).outcome s =
        (.ok (d.carry (n - d.total (look s) order)), s') ∧
      sound s' ∧ look s' = d.after (look s) n order ∧ (min n (d.total (look s) order) = 0 → s' = s) := by
  obtain ⟨s₁, run₁, h₁, look₁, same₁⟩ := runSweep_deals shows deals inside h
  obtain ⟨s₂, run₂, h₂, look₂, same₂⟩ := runSweep_deals_from shows deals' inside' h₁ look₁
  rw [ordered] at run₂ look₂ same₂
  refine ⟨s₂, (outcome_bind_ok run₁).trans run₂, h₂, look₂, fun none => ?_⟩
  have more := d.total_le_append (look s) (due meant (look s) slots) (due meant' (look s) slots')
  rw [ordered] at more
  rw [same₂ (by omega), same₁ (by omega)]

section

variable {meant' : Stack → Bool} {held : Nat → Stack} {pre post later slots' : List Nat} {slot i : Nat}

/-- Of the slots that are dealt to first, one gets something when those before it have got their shares. -/
theorem part_eq_share_of_first (split : slots = pre ++ slot :: post) (first : slot ∉ pre) (wanted : meant (held slot))
    (gets : d.part held n (due meant held slots ++ later) slot ≠ 0) (mem : i ∈ pre) (wanted' : meant (held i)) :
    d.part held n (due meant held slots ++ later) i = d.share (held i) := by
  rw [due_of_split wanted split, List.append_assoc, List.cons_append] at gets ⊢
  refine Dealing.part_eq_share_before (fun mem => first (List.mem_filter.1 mem).1) gets ?_
  exact List.mem_filter.2 ⟨mem, wanted'⟩

variable (refused : meant (held slot) = false)
  (gets : d.part held n (due meant held slots ++ due meant' held slots') slot ≠ 0)

include refused gets

/-- Of the slots that are dealt to then, one gets something when those that come first have got their shares. -/
theorem part_eq_share_of_then (mem : i ∈ slots) (wanted : meant (held i)) :
    d.part held n (due meant held slots ++ due meant' held slots') i = d.share (held i) := by
  have apart : slot ∉ due meant held slots := by simp [due, refused]
  have here : slot ∈ due meant' held slots' := by
    by_contra none
    exact gets (Dealing.part_of_notMem (by simp [apart, none]))
  obtain ⟨before, rest, split, first⟩ := List.eq_append_cons_of_mem here
  rw [split, ← List.append_assoc] at gets ⊢
  refine Dealing.part_eq_share_before (by simp [apart, first]) gets ?_
  exact List.mem_append_left _ (List.mem_filter.2 ⟨mem, wanted⟩)

/-- And when those before it have. -/
theorem part_eq_share_of_then_before (split : slots' = pre ++ slot :: post) (first : slot ∉ pre)
    (wanted : meant' (held slot)) (mem : i ∈ pre) (wanted' : meant' (held i)) :
    d.part held n (due meant held slots ++ due meant' held slots') i = d.share (held i) := by
  have apart : slot ∉ due meant held slots := by simp [due, refused]
  have before : slot ∉ due meant' held pre := fun mem => first (List.mem_filter.1 mem).1
  rw [due_of_split wanted split, ← List.append_assoc] at gets ⊢
  refine Dealing.part_eq_share_before (by simp [apart, before]) gets ?_
  exact List.mem_append_right _ (List.mem_filter.2 ⟨mem, wanted'⟩)

end

end Transfer

end InventoryClicks
