import InventoryClicks.Proofs.BuiltViews

/-!
# View arithmetic

The functions on views once more, with every sum and every difference in its width (`Checked`): one that leaves it is a
fault. On views in which the size of every part is a size (`Sized`), built views among them, they are the functions of the
library, so that none of these ever leaves the width when a view is read.
-/

namespace InventoryClicks.SlotView

namespace Checked

def size : SlotView → Except Fault Nat
  | .span _ len => .ok len
  | .listed slots => .ok slots.length
  | .append first rest => do Bounded.add Bounded.viewLimit (← size first) (← size rest)
  | .join _ child => size child

/-- A sum, if it is a slot. -/
def sum? (a b : Nat) : Option Nat := (Bounded.add Bounded.viewLimit a b).toOption

/-- A difference, if there is one. -/
def difference? (a b : Nat) : Option Nat := (Bounded.sub a b).toOption

def lookup : SlotView → Nat → Except Fault (Option Nat)
  | .span start len, l => .ok (if l < len then sum? start l else none)
  | .listed slots, l => .ok slots[l]?
  | .append first rest, l => do
    let n ← size first
    if l < n then lookup first l else lookup rest (← Bounded.sub l n)
  | .join parent child, l => do
    match ← lookup child l with
    | some slot => lookup parent slot
    | none => return none

/-- The external slots of `n` local slots from `l` on. -/
def externalsFrom (v : SlotView) : Nat → Nat → Except Fault (List Nat)
  | _, 0 => .ok []
  | l, n + 1 => do
    let slot ← lookup v l
    let later ← externalsFrom v (← Bounded.add Bounded.viewLimit l 1) n
    return slot.toList ++ later

def externals (v : SlotView) : Except Fault (List Nat) := do externalsFrom v 0 (← size v)

/-- First external slot with property `p` among the `n` local slots from `l` on. -/
def findFrom (v : SlotView) (p : Nat → Bool) : Nat → Nat → Except Fault (Option Nat)
  | _, 0 => .ok none
  | l, n + 1 => do
    let next ← Bounded.add Bounded.viewLimit l 1
    match ← lookup v l with
    | some slot => if p slot then return some slot else findFrom v p next n
    | none => findFrom v p next n

def find? (v : SlotView) (p : Nat → Bool) : Except Fault (Option Nat) := do findFrom v p 0 (← size v)

def containsExternal (v : SlotView) (slot : Nat) : Except Fault Bool :=
  match v with
  | .span start len => .ok ((difference? slot start).any (· < len))
  | _ => return (← find? v (· == slot)).isSome

def ofSpan (start len : Nat) : Except Failure SlotView :=
  match sum? start len with
  | some _ => .ok (.span start len)
  | none => .error (.misfit (.overflow start len))

def ofRange (min max : Nat) : Except Failure SlotView :=
  if max < min then .error (.misfit (.invertedRange min max))
  else do ofSpan min (← (Bounded.sub max min).mapError .fault)

/-- Sizes of the parts added to a running sum, from left to right. -/
def total : List SlotView → Nat → Except Fault Nat
  | [], acc => .ok acc
  | v :: rest, acc => do total rest (← Bounded.add Bounded.viewLimit acc (← size v))

/-- Parts one after the other. -/
def chain : List SlotView → SlotView
  | [] => .listed []
  | v :: rest => .append v (chain rest)

def union (parts : List SlotView) : Except Fault SlotView := do
  let _ ← total parts 0
  return chain parts

def ofJoin (parent child : SlotView) : Except Failure SlotView := do
  let n ← (size parent).mapError .fault
  let m ← (size child).mapError .fault
  if n < m then .error (.misfit (.childTooLarge m n))
  else
    match ← (find? child (n ≤ ·)).mapError .fault with
    | some slot => .error (.misfit (.childOutOfBounds slot n))
    | none => return .join parent child

mutual

def build : Expr → Except Failure SlotView
  | .range min max => ofRange min max
  | .span start len => ofSpan start len
  | .singular slot => .ok (.span slot 1)
  | .listed slots => .ok (.listed slots)
  | .union parts => do
    let views ← buildAll parts
    (union views).mapError .fault
  | .join parent child => do
    let p ← build parent
    let c ← build child
    ofJoin p c

def buildAll : List Expr → Except Failure (List SlotView)
  | [] => .ok []
  | e :: rest => do
    let v ← build e
    return v :: (← buildAll rest)

end

end Checked

/-- Views in which the size of every part is a size. -/
def Sized : SlotView → Prop
  | span _ len => len < Bounded.viewLimit
  | listed slots => slots.length < Bounded.viewLimit
  | append first rest => first.Sized ∧ rest.Sized ∧ first.size + rest.size < Bounded.viewLimit
  | join parent child => parent.Sized ∧ child.Sized

variable {v parent child : SlotView} {parts : List SlotView}

theorem Sized.size_lt (sized : v.Sized) : v.size < Bounded.viewLimit := by
  induction v with
  | span start len => exact sized
  | listed slots => exact sized
  | append first rest => exact sized.2.2
  | join parent child _ ihc => exact ihc sized.2

theorem sized_of_ofSpan {start len : Nat} (made : ofSpan start len = .ok v) : v.Sized := by
  unfold ofSpan at made
  split at made
  · next sum =>
    cases made
    exact Nat.lt_of_le_of_lt (Nat.le_add_left len start) sum
  · cases made

theorem sized_of_union (sized : ∀ part ∈ parts, part.Sized) (made : union parts = .ok v) : v.Sized := by
  induction parts generalizing v with
  | nil =>
    cases made
    exact (by decide : 0 < Bounded.viewLimit)
  | cons part parts ih =>
    obtain ⟨tail, rest, made⟩ := bind_eq_ok.1 made
    obtain ⟨n, sum, made⟩ := bind_eq_ok.1 made
    cases made
    refine ⟨sized part (by simp), ih (fun q mem => sized q (by simp [mem])) rest, ?_⟩
    unfold Bounded.add at sum
    split at sum
    · next small => exact small
    · cases sum

theorem Built.sized (built : v.Built) : v.Sized := by
  induction built with
  | range made =>
    unfold ofRange at made
    split at made
    · cases made
    · exact sized_of_ofSpan made
  | span made => exact sized_of_ofSpan made
  | singular _ => exact (by decide : 1 < Bounded.viewLimit)
  | listed _ few => exact few
  | union _ made ih => exact sized_of_union ih made
  | join p c made ihp ihc =>
    obtain ⟨-, rfl⟩ := (ofJoin_eq_ok_iff p.fits c.fits).1 made
    exact ⟨ihp, ihc⟩

namespace Checked

@[simp] theorem bind_ok {ε α β : Type} (a : α) (f : α → Except ε β) : (Except.ok a >>= f) = f a := rfl

@[simp] theorem mapError_ok {ε ε' α : Type} (f : ε → ε') (a : α) : (Except.ok a : Except ε α).mapError f = .ok a := rfl

theorem size_eq (sized : v.Sized) : size v = .ok v.size := by
  induction v with
  | span start len => rfl
  | listed slots => rfl
  | append first rest ihf ihr =>
    obtain ⟨f, r, sum⟩ := sized
    rw [size, ihf f, ihr r]
    exact Bounded.add_eq_ok sum
  | join parent child _ ihc => exact ihc sized.2

theorem lookup_eq (sized : v.Sized) (l : Nat) : lookup v l = .ok (v.toExternal? l) := by
  induction v generalizing l with
  | span start len =>
    rw [lookup, toExternal?, sum?, Bounded.add]
    split <;> split <;> simp_all [Except.toOption]
  | listed slots => rfl
  | append first rest ihf ihr =>
    obtain ⟨f, r, -⟩ := sized
    rw [lookup, size_eq f, toExternal?, bind_ok]
    split
    · exact ihf f l
    · next past =>
      rw [Bounded.sub_eq_ok (Nat.le_of_not_lt past)]
      exact ihr r _
  | join parent child ihp ihc =>
    rw [lookup, ihc sized.2, toExternal?, bind_ok]
    cases child.toExternal? l with
    | none => rfl
    | some slot => exact ihp sized.1 slot

theorem externalsFrom_eq (sized : v.Sized) {l n : Nat} (inside : l + n < Bounded.viewLimit) :
    externalsFrom v l n = .ok ((List.range' l n).filterMap v.toExternal?) := by
  induction n generalizing l with
  | zero => rfl
  | succ n ih =>
    have next : l + 1 < Bounded.viewLimit := by omega
    rw [externalsFrom, lookup_eq sized, Bounded.add_eq_ok next, bind_ok, bind_ok, ih (by omega), List.range'_succ]
    cases h : v.toExternal? l <;> simp [h, pure, Except.pure]

theorem externals_eq (sized : v.Sized) : externals v = .ok v.externals := by
  have small : 0 + v.size < Bounded.viewLimit := by simpa using sized.size_lt
  rw [externals, size_eq sized, bind_ok, externalsFrom_eq sized small, SlotView.externals, List.range_eq_range']

theorem findFrom_eq (sized : v.Sized) (p : Nat → Bool) {l n : Nat} (inside : l + n < Bounded.viewLimit) :
    findFrom v p l n = .ok (v.findFrom p l n) := by
  induction n generalizing l with
  | zero => rfl
  | succ n ih =>
    have next : l + 1 < Bounded.viewLimit := by omega
    have later := ih (l := l + 1) (by omega)
    rw [findFrom, Bounded.add_eq_ok next, lookup_eq sized, bind_ok, bind_ok, SlotView.findFrom, later]
    cases v.toExternal? l with
    | none => rfl
    | some slot => cases h : p slot <;> simp [h, pure, Except.pure]

theorem find?_eq (sized : v.Sized) (p : Nat → Bool) : find? v p = .ok (v.find? p) := by
  have small : 0 + v.size < Bounded.viewLimit := by simpa using sized.size_lt
  rw [find?, size_eq sized, bind_ok, findFrom_eq sized p small, SlotView.find?]

theorem containsExternal_eq (sized : v.Sized) (slot : Nat) :
    containsExternal v slot = .ok (v.containsExternal slot) := by
  have search : (find? v (· == slot) >>= fun found => pure found.isSome) = .ok (v.find? (· == slot)).isSome := by
    rw [find?_eq sized]
    rfl
  cases v with
  | span start len =>
    simp only [containsExternal, SlotView.containsExternal, difference?, Bounded.sub]
    split
    · next le => simp [Except.toOption, le]
    · next lt => simp [Except.toOption, lt]
  | _ => exact search

theorem ofSpan_eq (start len : Nat) : ofSpan start len = orMisfit (SlotView.ofSpan start len) := by
  unfold ofSpan SlotView.ofSpan sum? Bounded.add
  by_cases sum : start + len < Bounded.viewLimit
  · simp only [if_pos sum]
    rfl
  · simp only [if_neg sum]
    rfl

theorem ofRange_eq (min max : Nat) : ofRange min max = orMisfit (SlotView.ofRange min max) := by
  rw [ofRange, SlotView.ofRange]
  split
  · rfl
  · next ordered =>
    rw [Bounded.sub_eq_ok (Nat.le_of_not_lt ordered), mapError_ok, bind_ok]
    exact ofSpan_eq min (max - min)

theorem ofJoin_eq (p : parent.Sized) (c : child.Sized) : ofJoin parent child = orMisfit (SlotView.ofJoin parent child) := by
  rw [ofJoin, size_eq p, size_eq c, mapError_ok, mapError_ok, bind_ok, bind_ok, SlotView.ofJoin]
  split
  · rfl
  · rw [find?_eq c, mapError_ok, bind_ok]
    cases child.find? (parent.size ≤ ·) <;> rfl

/-- The running sum faults exactly if the whole sum is too large. -/
theorem total_eq (sized : ∀ part ∈ parts, part.Sized) {acc : Nat} (small : acc < Bounded.viewLimit) :
    total parts acc = Bounded.add Bounded.viewLimit acc (parts.map SlotView.size).sum := by
  induction parts generalizing acc with
  | nil => simp [total, Bounded.add, small]
  | cons part parts ih =>
    rw [total, size_eq (sized part (by simp)), bind_ok, List.map_cons, List.sum_cons]
    by_cases fits : acc + part.size < Bounded.viewLimit
    · rw [Bounded.add_eq_ok fits, bind_ok, ih (fun q mem => sized q (by simp [mem])) fits, Bounded.add, Bounded.add,
        Nat.add_assoc]
    · have full : ¬ acc + (part.size + (parts.map SlotView.size).sum) < Bounded.viewLimit := by omega
      simp only [Bounded.add, if_neg fits, if_neg full]
      rfl

theorem eq_chain (made : SlotView.union parts = .ok v) : v = chain parts := by
  induction parts generalizing v with
  | nil =>
    cases made
    rfl
  | cons part parts ih =>
    obtain ⟨tail, rest, made⟩ := bind_eq_ok.1 made
    obtain ⟨-, -, made⟩ := bind_eq_ok.1 made
    cases made
    rw [chain, ← ih rest]

end Checked

/-- Parts make up a union, or their sizes leave the width. -/
theorem union_cases (fit : ∀ part ∈ parts, part.Fits) :
    union parts = if (parts.map size).sum < Bounded.viewLimit then .ok (Checked.chain parts)
      else .error .additionOverflow := by
  split
  · next small =>
    obtain ⟨v, made, -⟩ := union_of_sum_lt fit small
    rw [made, Checked.eq_chain made]
  · next large => exact union_of_le_sum fit (Nat.le_of_not_lt large)

theorem Checked.union_eq (fit : ∀ part ∈ parts, part.Fits) (sized : ∀ part ∈ parts, part.Sized) :
    union parts = SlotView.union parts := by
  rw [union, total_eq sized (by decide), union_cases fit, Bounded.add, Nat.zero_add]
  split <;> rfl

/-- Reads of the view stay in the width, whatever their arguments. -/
structure ReadsInWidth (v : SlotView) : Prop where
  size : Checked.size v = .ok v.size
  lookup : ∀ l, Checked.lookup v l = .ok (v.toExternal? l)
  externals : Checked.externals v = .ok v.externals
  contains : ∀ slot, Checked.containsExternal v slot = .ok (v.containsExternal slot)

theorem Sized.readsInWidth (sized : v.Sized) : v.ReadsInWidth where
  size := Checked.size_eq sized
  lookup := Checked.lookup_eq sized
  externals := Checked.externals_eq sized
  contains := Checked.containsExternal_eq sized

end InventoryClicks.SlotView
