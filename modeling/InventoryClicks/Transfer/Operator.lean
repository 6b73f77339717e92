import InventoryClicks.Item.StackingRule

/-!
# Operators

An operator says what happens when a stack on its way meets the stack in one slot: which two stacks are left, or
that nothing changes. Items only ever go from one of the two to the other, except in `take`, which removes the
same number from both.
-/

namespace InventoryClicks

/-- What is left in the slot, and what goes on from it. -/
structure Exchange where
  slot : Stack
  incoming : Stack
  deriving DecidableEq

def Exchange.flip (e : Exchange) : Exchange := ⟨e.incoming, e.slot⟩

/-- From the stack in the slot and the incoming one. -/
abbrev Operator := StackingRule → Stack → Stack → Except Fault (Option Exchange)

/-- Test on the stack in the slot and the incoming one. -/
abbrev Condition := StackingRule → Stack → Stack → Except Fault Bool

/-- Largest limit, more than any stack can move. -/
abbrev Amount.unlimited : Int := 0x7fffffff

namespace Operator

/-- Up to `limit` items go into the slot, as far as they fit. An empty slot takes items of any kind. -/
def fill (limit : Int) : Operator := fun rule slot incoming => do
  if incoming.isEmpty then return none
  if !slot.isEmpty && !rule.canStack slot incoming then return none
  let current ← rule.amount slot
  let available ← rule.amount incoming
  let space ← Amount.sub (rule.maxSize incoming) current
  let moved := min (min available limit) space
  if moved ≤ 0 then return none
  return some ⟨rule.withAmount incoming (← Amount.add current moved),
    rule.withAmount incoming (← Amount.sub available moved)⟩

/-- Number of items that `fill` moves under the standard rule. Nothing moves unless it is positive. -/
def fillAmount (limit : Int) (slot incoming : Stack) : Int :=
  min (min (incoming.count : Int) limit) (incoming.material.maxStack - slot.count)

/-- Under the standard rule no amount leaves its range, and `fill` always answers. -/
theorem fill_standard (limit : Int) (slot incoming : Stack) :
    fill limit .standard slot incoming =
      .ok (if incoming.isEmpty then none
        else if !slot.isEmpty && !StackingRule.standard.canStack slot incoming then none
        else if fillAmount limit slot incoming ≤ 0 then none
        else some ⟨incoming.withCount (slot.count + fillAmount limit slot incoming),
          incoming.withCount (incoming.count - fillAmount limit slot incoming)⟩) := by
  have hs := slot.count_le
  have hi := incoming.count_le
  have hm := incoming.material.maxStack_le
  unfold fill fillAmount
  simp only [StackingRule.amount_standard, StackingRule.maxSize_standard]
  split
  · rfl
  split
  · rfl
  simp only [bind, Except.bind]
  rw [Amount.sub_eq_ok (by unfold Amount.InRange; omega)]
  simp only
  split
  · rfl
  rw [Amount.add_eq_ok (by unfold Amount.InRange; omega), Amount.sub_eq_ok (by unfold Amount.InRange; omega)]
  rfl

/-- Up to `limit` items of the slot go to the incoming stack. -/
def collect (limit : Int) : Operator := fun rule slot incoming => do
  return (← fill limit rule incoming slot).map Exchange.flip

/-- As many items as the incoming stack holds leave the slot, and both are the fewer for it. -/
def take : Operator := fun rule slot incoming => do
  if slot.isEmpty || incoming.isEmpty || !rule.canStack slot incoming then return none
  let held ← rule.amount slot
  let wanted ← rule.amount incoming
  let taken := min held wanted
  return some ⟨rule.withAmount slot (← Amount.sub held taken),
    rule.withAmount incoming (← Amount.sub wanted taken)⟩

/-- The two stacks change places, unless they are equal. -/
def swap : Operator := fun _ slot incoming =>
  return if slot = incoming then none else some ⟨incoming, slot⟩

/-- The operator where the condition holds; nothing elsewhere. -/
def onlyIf (op : Operator) (holds : Condition) : Operator := fun rule slot incoming => do
  if ← holds rule slot incoming then op rule slot incoming else return none

end Operator

namespace Condition

def slotEmpty : Condition := fun _ slot _ => return slot.isEmpty

def slotFilled : Condition := fun _ slot _ => return !slot.isEmpty

/-- There is room in the slot. -/
def slotPartial : Condition := fun rule slot _ => return (← rule.amount slot) < rule.maxSize slot

def slotFull : Condition := fun rule slot _ => return rule.maxSize slot ≤ (← rule.amount slot)

/-- The slot holds more than comes in. -/
def slotLarger : Condition := fun rule slot incoming => do
  let held ← rule.amount slot
  return (← rule.amount incoming) < held

def stackable : Condition := fun rule slot incoming => return rule.canShareSlot slot incoming

end Condition

end InventoryClicks
