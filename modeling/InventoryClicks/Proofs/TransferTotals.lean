import InventoryClicks.Proofs.InPlace

/-!
# What transfers conserve

Filling and collecting, at whichever slots and under whichever conditions, leave of every type as many items in the
inventory and in the stack that is carried as there were in both. Taking leaves as many fewer in the inventory as in the
stack. This is so for transfers of any shape (`Transfer.all_conserves`).
-/

namespace InventoryClicks

open StepM

variable {w u : Weight}

/-- Operators that move items from one stack to the other. -/
inductive Operator.Moves : Operator → Prop where
  | fill (limit : Int) : Moves (fill limit)
  | collect (limit : Int) : Moves (collect limit)
  | onlyIf {op : Operator} {holds : Condition} : Moves op → holds.Answers .standard → Moves (op.onlyIf holds)

/-- Operators that remove items from both stacks. -/
inductive Operator.Takes : Operator → Prop where
  | take : Takes take
  | onlyIf {op : Operator} {holds : Condition} : Takes op → holds.Answers .standard → Takes (op.onlyIf holds)

namespace Operator

theorem Moves.trades {op : Operator} (moves : op.Moves) (w : Weight) : op.Trades .standard w w := by
  induction moves with
  | fill limit => exact fill_balanced StackingRule.honest_standard (StackingRule.respects_standard w) limit
  | collect limit => exact collect_balanced StackingRule.honest_standard (StackingRule.respects_standard w) limit
  | onlyIf _ answers ih => exact onlyIf_trades ih answers

theorem Takes.trades {op : Operator} (takes : op.Takes) (w : Weight) : op.Trades .standard w (-w) := by
  induction takes with
  | take => exact take_trades StackingRule.honest_standard (StackingRule.respects_standard w)
  | onlyIf _ answers ih => exact onlyIf_trades ih answers

end Operator

namespace Transfer

theorem add_uses_moves (fill air : List Nat) : (add fill air).Uses Operator.Moves :=
  ⟨.onlyIf (.fill _) Condition.slotFilled_answers, .onlyIf (.fill _) Condition.slotEmpty_answers⟩

theorem take_uses_takes (slots : List Nat) : (take slots).Uses Operator.Takes := Operator.Takes.take

/-- A transfer trades if all that it uses does. -/
theorem Uses.trades {P : Operator → Prop} {p : Nat → Prop} (all : ∀ op, P op → op.Trades .standard w u) {t : Transfer}
    (uses : t.Uses P) (inside : ∀ slot ∈ t.slots, p slot) : t.Trades .standard w u p := by
  induction t with
  | sweep op slots => exact ⟨all op uses, inside⟩
  | andThen first second ih₁ ih₂ =>
    exact ⟨ih₁ uses.1 fun slot mem => inside slot (List.mem_append_left _ mem),
      ih₂ uses.2 fun slot mem => inside slot (List.mem_append_right _ mem)⟩

/-- All of a transfer comes to its end and trades by every weight, if its operators do with the item weighed by `other`. -/
theorem all_trades {other : Weight → Weight} {t : Transfer} {inv : Inventory}
    (trades : ∀ w, t.Trades .standard w (other w) (· < inv.slotCount)) (item : Stack) :
    ∃ rest after, (t.all item).outcome inv = (.ok rest, after) ∧
      ∀ w, after.weight w + rest.weight (other w) = inv.weight w + item.weight (other w) := by
  obtain ⟨rest, changes, staged, inside, -⟩ := stage_ends inv (trades .items) item
  refine ⟨rest, inv.overwrite changes, (outcome_of_stage_ok staged inside).1, fun w => ?_⟩
  -- staging does not depend on the weight
  obtain ⟨rest', changes', staged', -, kept⟩ := stage_ends inv (trades w) item
  rw [staged] at staged'
  cases staged'
  exact kept

/-- **Totals.** A transfer at slots of the inventory comes to its end. If it fills and collects, then of every type the
inventory and what is left of the item hold together as many as the inventory and the item did. If it takes, then the
inventory holds as many fewer as there are fewer left of the item. -/
theorem all_conserves (t : Transfer) (inv : Inventory) (inside : ∀ slot ∈ t.slots, slot < inv.slotCount) (item : Stack) :
    (t.Uses Operator.Moves → ∃ rest after, (t.all item).outcome inv = (.ok rest, after) ∧
      ∀ material data, after.weight (.ofType material data) + rest.weight (.ofType material data) =
        inv.weight (.ofType material data) + item.weight (.ofType material data)) ∧
    (t.Uses Operator.Takes → ∃ rest after, (t.all item).outcome inv = (.ok rest, after) ∧
      ∀ material data, inv.weight (.ofType material data) - after.weight (.ofType material data) =
        item.weight (.ofType material data) - rest.weight (.ofType material data)) := by
  constructor
  · intro uses
    have trades (w : Weight) := uses.trades (fun op (moves : op.Moves) => moves.trades w) inside
    obtain ⟨rest, after, ends, kept⟩ := all_trades trades item
    exact ⟨rest, after, ends, fun material data => kept (.ofType material data)⟩
  · intro uses
    have trades (w : Weight) := uses.trades (fun op (takes : op.Takes) => takes.trades w) inside
    obtain ⟨rest, after, ends, kept⟩ := all_trades trades item
    refine ⟨rest, after, ends, fun material data => ?_⟩
    have kept := kept (.ofType material data)
    simp only [Stack.weight_neg] at kept
    omega

/-- Stone is added until nothing of it is left, and eggs are collected then from a slot with more than it may hold. Of more
stone than there is, what there is is taken. -/
theorem all_conserves_adopting :
    let inv := ((Inventory.empty .hopper).set 0 (.of .stone 60 none)).set 1 (.of .egg 100 none)
    let moving := (add [1, 0] [2, 2]).andThen (sweep ((Operator.collect Amount.unlimited).onlyIf .slotFull) [1, 0, 1])
    let taking := (take [0, 0]).andThen (sweep (Operator.take.onlyIf .slotPartial) [2, 1])
    let moved := ((inv.set 0 (.of .stone 64 none)).set 1 (.of .egg 84 none)).set 2 (.of .stone 6 none)
    let taken := inv.set 0 .empty
    (moving.all (.of .stone 10 none)).outcome inv = (.ok (.of .egg 16 none), moved) ∧
      (taking.all (.of .stone 70 none)).outcome inv = (.ok (.of .stone 10 none), taken) ∧
      ∀ material data,
        moved.weight (.ofType material data) + (Stack.of .egg 16 none).weight (.ofType material data) =
          inv.weight (.ofType material data) + (Stack.of .stone 10 none).weight (.ofType material data) ∧
        inv.weight (.ofType material data) - taken.weight (.ofType material data) =
          (Stack.of .stone 70 none).weight (.ofType material data) - (Stack.of .stone 10 none).weight (.ofType material data) := by
  intro inv moving taking moved taken
  have honest := StackingRule.honest_standard
  have moves : moving.Uses Operator.Moves :=
    ⟨add_uses_moves _ _, .onlyIf (.collect _) (Condition.slotFull_answers honest)⟩
  have takes : taking.Uses Operator.Takes :=
    ⟨take_uses_takes _, .onlyIf .take (Condition.slotPartial_answers honest)⟩
  have ends : (moving.all (.of .stone 10 none)).outcome inv = (.ok (.of .egg 16 none), moved) := by decide
  have ends' : (taking.all (.of .stone 70 none)).outcome inv = (.ok (.of .stone 10 none), taken) := by decide
  obtain ⟨rest, after, run, kept⟩ := (all_conserves moving inv (by decide) (.of .stone 10 none)).1 moves
  obtain ⟨rest', after', run', lost⟩ := (all_conserves taking inv (by decide) (.of .stone 70 none)).2 takes
  rw [ends] at run
  rw [ends'] at run'
  cases run
  cases run'
  exact ⟨ends, ends', fun material data => ⟨kept material data, lost material data⟩⟩

end Transfer

end InventoryClicks
