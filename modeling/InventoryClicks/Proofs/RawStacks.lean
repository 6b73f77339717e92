import InventoryClicks.Item.StackingRule

/-!
# Raw stacks

Stacks without the promise that they are in normal form: any material, number and data, and the constructors that make one.
What these make is in normal form (`RawStack.Built.normal`), and the stacks of the library are exactly what they can make
(`RawStack.built_iff`).
-/

namespace InventoryClicks

structure RawStack where
  material : Material
  count : Int
  data : Option (List UInt8)
  deriving DecidableEq

namespace RawStack

def empty : RawStack := ⟨.air, 0, none⟩

def isEmpty (r : RawStack) : Bool := r.material == .air || r.count ≤ 0

def normalized (r : RawStack) : RawStack := if r.isEmpty then empty else r

/-- The nearest number that a stack can count. -/
def clamp (n : Int) : Int := max 0 (min n 127)

def new (material : Material) (count : Int) (data : Option (List UInt8)) : RawStack :=
  normalized ⟨material, clamp count, data⟩

def withCount (r : RawStack) (count : Int) : RawStack := normalized { r with count := clamp count }

def withData (r : RawStack) (data : Option (List UInt8)) : RawStack := if r.isEmpty then r else { r with data }

/-- What the standard rule makes of a stack. -/
def withAmount (r : RawStack) (amount : Int) : RawStack := r.withCount (clamp amount)

/-- Made by the constructors. -/
inductive Built : RawStack → Prop where
  | empty : Built empty
  | new (material : Material) (count : Int) (data : Option (List UInt8)) : Built (new material count data)
  | withCount {r : RawStack} (built : Built r) (count : Int) : Built (r.withCount count)
  | withData {r : RawStack} (built : Built r) (data : Option (List UInt8)) : Built (r.withData data)

/-- A number that a stack can count, and no material and no data without items. -/
structure Normal (r : RawStack) : Prop where
  atLeast : 0 ≤ r.count
  atMost : r.count ≤ 127
  isEmpty_iff : r.isEmpty = true ↔ r = .empty

variable {r : RawStack}

theorem normal_normalized (atLeast : 0 ≤ r.count) (atMost : r.count ≤ 127) : r.normalized.Normal := by
  unfold normalized
  split
  · exact ⟨by decide, by decide, by simp [isEmpty, empty]⟩
  · next filled =>
    refine ⟨atLeast, atMost, fun none => absurd none filled, fun same => ?_⟩
    subst same
    exact absurd rfl filled

theorem Normal.withData (normal : r.Normal) (data : Option (List UInt8)) : (r.withData data).Normal := by
  unfold RawStack.withData
  split
  · exact normal
  · next filled =>
    refine ⟨normal.atLeast, normal.atMost, fun none => absurd none filled, fun same => ?_⟩
    have material := congrArg RawStack.material same
    exact absurd (by simp [isEmpty, show r.material = .air from material]) filled

theorem withAmount_eq (r : RawStack) (amount : Int) : r.withAmount amount = r.withCount amount := by
  have again : clamp (clamp amount) = clamp amount := by
    unfold clamp
    omega
  rw [withAmount, withCount, withCount, again]

theorem Built.normal (built : r.Built) : r.Normal := by
  have clamped (n : Int) : 0 ≤ clamp n ∧ clamp n ≤ 127 := by
    unfold clamp
    omega
  induction built with
  | empty => exact ⟨by decide, by decide, by simp [isEmpty, RawStack.empty]⟩
  | new material count data => exact normal_normalized (clamped count).1 (clamped count).2
  | withCount _ count => exact normal_normalized (clamped count).1 (clamped count).2
  | withData _ data ih => exact ih.withData data

end RawStack

namespace Stack

variable {s : Stack}

/-- The stack without its promise. -/
def raw (s : Stack) : RawStack := ⟨s.material, s.count, s.data⟩

theorem raw_isEmpty (s : Stack) : s.raw.isEmpty = s.isEmpty := by
  show (s.material == .air || decide ((s.count : Int) ≤ 0)) = (s.count == 0)
  rw [Bool.eq_iff_iff]
  simp only [Bool.or_eq_true, beq_iff_eq, decide_eq_true_eq]
  rcases s.normal with n | n
  · simp only [n.2.2, false_or]
    omega
  · simp only [n.1, n.2.1, true_or]

theorem raw_of (material : Material) (count : Int) (data : Option (List UInt8)) :
    (of material count data).raw = .new material count data := by
  have few : count ≤ 0 ↔ RawStack.clamp count ≤ 0 := by
    unfold RawStack.clamp
    omega
  unfold of RawStack.new RawStack.normalized
  simp only [RawStack.isEmpty, Bool.or_eq_true, beq_iff_eq, decide_eq_true_eq, ← few]
  split
  · rfl
  · next filled =>
    simp only [raw, RawStack.mk.injEq, true_and, and_true, RawStack.clamp]
    omega

theorem raw_withCount (s : Stack) (count : Int) : (s.withCount count).raw = s.raw.withCount count :=
  raw_of s.material count s.data

theorem raw_withAmount (s : Stack) (n : Int) :
    (StackingRule.standard.withAmount s n).raw = s.raw.withAmount n :=
  (s.raw_withCount n).trans (s.raw.withAmount_eq n).symm

theorem raw_withData (s : Stack) (data : Option (List UInt8)) : (s.withData data).raw = s.raw.withData data := by
  unfold withData RawStack.withData
  rw [raw_isEmpty]
  by_cases none : s.count = 0
  · simp [none, isEmpty]
  · simp [none, isEmpty, raw]

/-- A stack is what its material, number and data make. -/
theorem raw_eq_new (s : Stack) : s.raw = .new s.material s.count s.data := by
  rcases s.normal with n | n
  · have kept : RawStack.clamp s.count = s.count := by
      unfold RawStack.clamp
      omega
    have filled : s.raw.isEmpty = false := by
      rw [raw_isEmpty, isEmpty, beq_eq_false_iff_ne]
      omega
    rw [RawStack.new, kept]
    exact (if_neg (Bool.eq_false_iff.1 filled)).symm
  · simp [RawStack.new, RawStack.normalized, RawStack.isEmpty, RawStack.empty, raw, n.1, n.2.1, n.2.2]

end Stack

namespace RawStack

variable {r : RawStack}

/-- The stacks of the library are what the constructors make. -/
theorem built_iff : r.Built ↔ ∃ s : Stack, s.raw = r := by
  constructor
  · intro built
    induction built with
    | empty => exact ⟨.empty, rfl⟩
    | new material count data => exact ⟨.of material count data, Stack.raw_of material count data⟩
    | withCount _ count ih =>
      obtain ⟨s, rfl⟩ := ih
      exact ⟨s.withCount count, s.raw_withCount count⟩
    | withData _ data ih =>
      obtain ⟨s, rfl⟩ := ih
      exact ⟨s.withData data, s.raw_withData data⟩
  · rintro ⟨s, rfl⟩
    rw [s.raw_eq_new]
    exact .new _ _ _

end RawStack

end InventoryClicks
