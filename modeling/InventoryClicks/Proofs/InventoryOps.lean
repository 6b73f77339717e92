import InventoryClicks.Proofs.Contents
import InventoryClicks.Proofs.InPlace
import InventoryClicks.Proofs.ThroughViews

/-!
# Operations on an inventory

What an application does to an inventory by itself: it puts stacks into slots, directly or through a view, clears a view, and
runs transfers. If a rule makes its stacks like the standard one (`StackingRule.Counts`), these operations keep every property
that a stack has in all numbers (`Inventory.perform_keeps`).
-/

namespace InventoryClicks

open StepM

/-- The empty stack, and for every stack the same items in other numbers. -/
structure Stack.Closed (P : Stack → Prop) : Prop where
  empty : P .empty
  withCount : ∀ s n, P s → P (s.withCount n)

/-- A rule that makes its stacks like the standard one, whatever it stacks and however it counts. -/
def StackingRule.Counts (rule : StackingRule) : Prop := ∀ s n, rule.withAmount s n = s.withCount n

variable {P : Stack → Prop} {rule : StackingRule}

/-- Operators of the library, and others that keep the property. -/
inductive Operator.Kept (rule : StackingRule) (P : Stack → Prop) : Operator → Prop where
  | fill (limit : Int) : Kept rule P (fill limit)
  | collect (limit : Int) : Kept rule P (collect limit)
  | take : Kept rule P take
  | onlyIf {op : Operator} (inner : Kept rule P op) (holds : Condition) : Kept rule P (op.onlyIf holds)
  | other {op : Operator} (keeps : op.Keeps rule P P P) : Kept rule P op

namespace StackingRule

theorem Counts.fill_keeps (counts : rule.Counts) (closed : Stack.Closed P) (limit : Int) :
    (Operator.fill limit).Keeps rule P P P := by
  intro slot incoming e read carried answer
  unfold Operator.fill at answer
  split at answer
  · cases answer
  split at answer
  · cases answer
  obtain ⟨current, -, answer⟩ := bind_eq_ok.1 answer
  obtain ⟨available, -, answer⟩ := bind_eq_ok.1 answer
  obtain ⟨space, -, answer⟩ := bind_eq_ok.1 answer
  simp only at answer
  split at answer
  · cases answer
  obtain ⟨more, -, answer⟩ := bind_eq_ok.1 answer
  obtain ⟨less, -, answer⟩ := bind_eq_ok.1 answer
  cases answer
  rw [counts, counts]
  exact ⟨closed.withCount _ _ carried, closed.withCount _ _ carried⟩

theorem Counts.take_keeps (counts : rule.Counts) (closed : Stack.Closed P) : Operator.take.Keeps rule P P P := by
  intro slot incoming e read carried answer
  unfold Operator.take at answer
  split at answer
  · cases answer
  obtain ⟨held, -, answer⟩ := bind_eq_ok.1 answer
  obtain ⟨wanted, -, answer⟩ := bind_eq_ok.1 answer
  obtain ⟨left, -, answer⟩ := bind_eq_ok.1 answer
  obtain ⟨rest, -, answer⟩ := bind_eq_ok.1 answer
  cases answer
  rw [counts, counts]
  exact ⟨closed.withCount _ _ read, closed.withCount _ _ carried⟩

/-- Whatever such a rule makes of a stack is the stack in another number. -/
theorem Counts.keeps (counts : rule.Counts) (closed : Stack.Closed P) : rule.Keeps P where
  fill := counts.fill_keeps closed
  full s whole := by
    rw [counts]
    exact closed.withCount _ _ whole
  split s amount part rest whole answer := by
    obtain ⟨available, -, answer⟩ := bind_eq_ok.1 answer
    simp only at answer
    split at answer
    · cases answer
    obtain ⟨left, -, answer⟩ := bind_eq_ok.1 answer
    cases answer
    rw [counts, counts]
    exact ⟨closed.withCount _ _ whole, closed.withCount _ _ whole⟩

theorem counts_standard : standard.Counts := fun _ _ => rfl

end StackingRule

theorem Operator.Kept.keeps (counts : rule.Counts) (closed : Stack.Closed P) {op : Operator} (kept : op.Kept rule P) :
    op.Keeps rule P P P := by
  induction kept with
  | fill limit => exact counts.fill_keeps closed limit
  | collect limit => exact Operator.Keeps.collect (counts.fill_keeps closed limit)
  | take => exact counts.take_keeps closed
  | onlyIf _ holds ih => exact ih.onlyIf holds
  | other keeps => exact keeps

theorem Transfer.keeps_of_uses (counts : rule.Counts) (closed : Stack.Closed P) {t : Transfer}
    (uses : t.Uses (Operator.Kept rule P)) : t.Keeps rule (fun _ => True) P P P := by
  induction t with
  | sweep op slots => exact ⟨Operator.Kept.keeps counts closed uses, fun _ _ => trivial⟩
  | andThen first second ih₁ ih₂ => exact ⟨ih₁ uses.1, ih₂ uses.2⟩

/-- Adding and taking are made of operators of the library. -/
theorem Transfer.addTo_uses (kind : Inventory.Kind) : (addTo kind).Uses (Operator.Kept rule P) := by
  rw [kind.addTo_eq]
  exact ⟨.onlyIf (.fill _) _, .onlyIf (.fill _) _⟩

theorem Transfer.takeFrom_uses (kind : Inventory.Kind) : (takeFrom kind).Uses (Operator.Kept rule P) := by
  rw [kind.takeFrom_eq]
  exact .take

/-- How a transfer on an inventory is brought to its end. -/
inductive Transfer.Ending where
  | all | allOrNothing | dryRun
  deriving DecidableEq, Repr

namespace Inventory

inductive Op where
  | replace (slot : Nat) (s : Stack)
  | setThrough (view : SlotView) (l : Nat) (s : Stack)
  | clearThrough (view : SlotView)
  | add (item : Stack) (ending : Transfer.Ending)
  | take (item : Stack) (ending : Transfer.Ending)
  | transfer (t : Transfer) (item : Stack) (ending : Transfer.Ending)
  /-- A transfer that is staged under any rule, and not written. -/
  | stage (rule : StackingRule) (t : Transfer) (item : Stack)

/-- The stacks that a transfer answers with, and the inventory after it. -/
def finish (inv : Inventory) (t : Transfer) (item : Stack) : Transfer.Ending → Except Fault (List Stack) × Inventory
  | .all =>
    let (rest, after) := (t.all item).outcome inv
    (rest.map ([·]), after)
  | .allOrNothing =>
    let (whole, after) := (t.allOrNothing item).outcome inv
    (whole.map fun _ => [], after)
  | .dryRun =>
    let (whole, after) := (t.dryRun item).outcome inv
    (whole.map fun _ => [], after)

/-- The stacks that the operation answers with, and the inventory after it. -/
def perform (inv : Inventory) : Op → Except Fault (List Stack) × Inventory
  | .replace slot s =>
    match inv.replace slot s with
    | .ok (old, after) => (.ok [old], after)
    | .error e => (.error e, inv)
  | .setThrough view l s =>
    let (old?, after) := inv.setThrough view l s
    (.ok old?.toList, after)
  | .clearThrough view => (.ok [], inv.clearThrough view)
  | .add item ending => inv.finish (.addTo inv.kind) item ending
  | .take item ending => inv.finish (.takeFrom inv.kind) item ending
  | .transfer t item ending => inv.finish t item ending
  | .stage rule t item => ((t.stage rule inv item).map fun staged => staged.1 :: staged.2.entries.map (·.2), inv)

/-- The stacks that the operation brings along, and those that its operators make. -/
def Op.Only (op : Op) (P : Stack → Prop) : Prop :=
  match op with
  | .replace _ s | .setThrough _ _ s => P s
  | .clearThrough _ => True
  | .add item _ | .take item _ => P item
  | .transfer t item _ => P item ∧ t.Uses (Operator.Kept .standard P)
  | .stage rule t item => P item ∧ rule.Counts ∧ t.Uses (Operator.Kept rule P)

/-- Stacks with the property are left and answered, in an inventory of the same kind. -/
structure Keeps (P : Stack → Prop) (inv : Inventory) (done : Except Fault (List Stack) × Inventory) : Prop where
  only : done.2.Only P
  kind : done.2.kind = inv.kind
  answered : ∀ answers, done.1 = .ok answers → ∀ s ∈ answers, P s

variable {inv : Inventory} {op : Op}

theorem keeps_silent {α : Type} (only : inv.Only P) (r : Except Fault α) : Keeps P inv (r.map fun _ => [], inv) := by
  refine ⟨only, rfl, fun answers done => ?_⟩
  cases r with
  | error e => cases done
  | ok a =>
    cases done
    simp

theorem keeps_finish (closed : Stack.Closed P) (only : inv.Only P) {t : Transfer}
    (uses : t.Uses (Operator.Kept .standard P)) {item : Stack} (brought : P item) (ending : Transfer.Ending) :
    Keeps P inv (inv.finish t item ending) := by
  have keeps := Transfer.keeps_of_uses StackingRule.counts_standard closed uses
  rcases Transfer.stage_cases t inv item with h | h
  · obtain ⟨e, -, staged, -⟩ := h
    obtain ⟨all, whole, dry⟩ := Transfer.outcome_of_stage_error staged
    cases ending with
    | all =>
      simp only [finish, all]
      exact keeps_silent only (.error e : Except Fault Unit)
    | allOrNothing =>
      simp only [finish, whole]
      exact keeps_silent only _
    | dryRun =>
      simp only [finish, dry]
      exact keeps_silent only _
  · obtain ⟨rest, changes, staged, inside, -⟩ := h
    obtain ⟨all, whole, dry⟩ := Transfer.outcome_of_stage_ok staged inside
    obtain ⟨left, new⟩ := Transfer.stage_only keeps (fun _ h => h) only brought staged
    have written : (inv.overwrite changes).Only P := only.overwrite new
    cases ending with
    | all =>
      simp only [finish, all]
      refine ⟨written, rfl, ?_⟩
      rintro _ ⟨⟩
      simpa using left
    | allOrNothing =>
      simp only [finish, whole]
      split
      · exact ⟨written, rfl, by simp [Except.map]⟩
      · exact keeps_silent only _
    | dryRun =>
      simp only [finish, dry]
      exact keeps_silent only _

theorem Only.clearThrough (closed : Stack.Closed P) (only : inv.Only P) (view : SlotView) :
    (inv.clearThrough view).Only P := by
  intro slot s here
  rw [Inventory.clearThrough, get?_foldl_set_empty, Option.map_eq_some_iff] at here
  obtain ⟨old, held, stack⟩ := here
  split at stack
  · exact stack ▸ closed.empty
  · exact stack ▸ only slot old held

theorem keeps_setThrough (only : inv.Only P) {s : Stack} (brought : P s) (view : SlotView) (l : Nat) :
    Keeps P inv (inv.perform (.setThrough view l s)) := by
  by_cases reach : inv.Reaches view l
  · obtain ⟨slot, old, maps, -, here, -⟩ := reach.getThrough?
    simp only [perform, setThrough_of_toExternal? maps here]
    refine ⟨only.set brought slot, rfl, ?_⟩
    rintro _ ⟨⟩
    simpa using only slot old here
  · simp only [perform, setThrough_of_not_reaches reach]
    exact keeps_silent only (.ok ())

theorem keeps_replace (only : inv.Only P) {s : Stack} (brought : P s) (slot : Nat) :
    Keeps P inv (inv.perform (.replace slot s)) := by
  by_cases inside : slot < inv.slotCount
  · obtain ⟨old, here⟩ := Option.isSome_iff_exists.1 (get?_isSome_iff.2 inside)
    have done : inv.replace slot s = .ok (old, inv.set slot s) := by
      simp [replace, write, inside, here, bind, Except.bind, pure, Except.pure]
    simp only [perform, done]
    refine ⟨only.set brought slot, rfl, ?_⟩
    rintro _ ⟨⟩
    simpa using only slot old here
  · have stops : inv.replace slot s = .error (.writeOutside slot) := by
      simp [replace, write, inside, bind, Except.bind]
    simp only [perform, stops]
    exact keeps_silent only (.error (.writeOutside slot) : Except Fault Unit)

/-- One operation keeps the property. -/
theorem perform_keeps (closed : Stack.Closed P) (only : inv.Only P) (brought : op.Only P) :
    Keeps P inv (inv.perform op) := by
  cases op with
  | replace slot s => exact keeps_replace only brought slot
  | setThrough view l s => exact keeps_setThrough only brought view l
  | clearThrough view => exact ⟨only.clearThrough closed view, kind_clearThrough inv view, by simp [perform]⟩
  | add item ending => exact keeps_finish closed only (Transfer.addTo_uses inv.kind) brought ending
  | take item ending => exact keeps_finish closed only (Transfer.takeFrom_uses inv.kind) brought ending
  | transfer t item ending => exact keeps_finish closed only brought.2 brought.1 ending
  | stage rule t item =>
    obtain ⟨carried, counts, uses⟩ := brought
    simp only [perform]
    rcases staged : t.stage rule inv item with e | ⟨rest, changes⟩
    · exact keeps_silent only (.error e : Except Fault Unit)
    · obtain ⟨left, new⟩ :=
        Transfer.stage_only (Transfer.keeps_of_uses counts closed uses) (fun _ h => h) only carried staged
      refine ⟨only, rfl, ?_⟩
      rintro _ ⟨⟩ s mem
      rcases List.mem_cons.1 mem with rfl | mem
      · exact left
      · obtain ⟨e, entry, rfl⟩ := List.mem_map.1 mem
        exact new e.1 e.2 (NatMap.mem_entries_iff.1 entry)

end Inventory

end InventoryClicks
