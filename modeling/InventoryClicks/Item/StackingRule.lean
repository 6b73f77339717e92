import InventoryClicks.Fault
import InventoryClicks.Item.Stack

/-!
# Stacking rules

A rule decides which stacks share a slot and how their items are counted, split and put together. It counts in
`Int`, in the range of `Amount`; counting may itself fail, when a rule's own arithmetic leaves that range. The
`standard` rule counts a stack's items; the other rules here change one of its answers.
-/

namespace InventoryClicks

/-- Two stacks share a slot if their items can be in one stack, or if one of them is missing. -/
def StackingRule.sharing (canStack : Stack → Stack → Bool) (a b : Stack) : Bool :=
  a.isEmpty || b.isEmpty || canStack a b

structure StackingRule where
  /-- Same kind of item, so that items of both can be in one stack. -/
  canStack : Stack → Stack → Bool
  /-- The incoming stack may be put to the one in a slot. A rule may decide this by itself. -/
  canShareSlot : Stack → Stack → Bool := StackingRule.sharing canStack
  amount : Stack → Except Fault Int
  maxSize : Stack → Int
  /-- Stack like the given one with that many items. -/
  withAmount : Stack → Int → Stack

namespace StackingRule

def mapAmount (rule : StackingRule) (s : Stack) (f : Int → Except Fault Int) : Except Fault Stack := do
  let n ← rule.amount s
  return rule.withAmount s (← f n)

def standard : StackingRule where
  canStack a b := a.material == b.material && a.data == b.data
  amount s := .ok s.count
  maxSize s := s.material.maxStack
  withAmount s n := s.withCount n

@[simp] theorem amount_standard (s : Stack) : standard.amount s = .ok (s.count : Int) := rfl

@[simp] theorem maxSize_standard (s : Stack) : standard.maxSize s = s.material.maxStack := rfl

@[simp] theorem withAmount_standard (s : Stack) (n : Int) : standard.withAmount s n = s.withCount n := rfl

theorem canStack_standard_iff {a b : Stack} :
    standard.canStack a b = true ↔ a.material = b.material ∧ a.data = b.data := by
  simp [standard]

theorem canShareSlot_standard_iff {a b : Stack} :
    standard.canShareSlot a b = true ↔ a.isEmpty ∨ b.isEmpty ∨ standard.canStack a b := by
  show sharing standard.canStack a b = true ↔ _
  simp only [sharing, Bool.or_eq_true, or_assoc]

/-- The rule with one size limit for all stacks. -/
def limited (rule : StackingRule) (limit : Int) : StackingRule :=
  { rule with maxSize := fun _ => limit }

/-- The rule with stacks of one material alike, whatever their data. -/
def byMaterial (rule : StackingRule) : StackingRule :=
  let alike (a b : Stack) := a.material == b.material
  { rule with canStack := alike, canShareSlot := sharing alike }

/-- The rule with `extra` added to every amount but zero. -/
def counting (rule : StackingRule) (extra : Int) : StackingRule :=
  { rule with amount := fun s => do
      let n ← rule.amount s
      if n = 0 then return 0 else Amount.add n extra }

end StackingRule

end InventoryClicks
