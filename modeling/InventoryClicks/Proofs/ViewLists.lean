import InventoryClicks.SlotView.Expr
import InventoryClicks.SlotView.Meaning
import InventoryClicks.Proofs.Ends

/-!
# Views are lists of slots

Every view expression stands for a list of slots, which is put together from the lists of its parts (`Expr.slots`), and
says by these lists alone whether its parts fit together (`Expr.failure?`). Building it comes to a view of exactly that
list, or to exactly that failure (`Expr.build_means`).
-/

namespace InventoryClicks.SlotView

/-- Size, lookup, enumeration and membership of the view are those of the list. -/
structure Means (v : SlotView) (slots : List Nat) : Prop where
  size : v.size = slots.length
  lookup : ∀ l, v.toExternal? l = slots[l]?
  enumerated : v.externals = slots
  contains : ∀ slot, v.containsExternal slot = true ↔ slot ∈ slots

theorem Fits.means {v : SlotView} (fits : v.Fits) : v.Means v.toList where
  size := (length_toList fits).symm
  lookup := toExternal?_eq_getElem? fits
  enumerated := externals_eq_toList fits
  contains := containsExternal_iff_mem fits

/-- Why a child's slots are not local slots of a parent, if they are not: they are more than the parent's, or one of
them is past its end. -/
def misfit? (parent child : List Nat) : Option BuildError :=
  if parent.length < child.length then some (.childTooLarge child.length parent.length)
  else (child.find? (parent.length ≤ ·)).map (.childOutOfBounds · parent.length)

theorem ofJoin_eq {parent child : SlotView} (p : parent.Fits) (c : child.Fits) :
    ofJoin parent child =
      match misfit? parent.toList child.toList with
      | some cause => .error cause
      | none => .ok (join parent child) := by
  unfold ofJoin misfit?
  rw [find?_eq_find? c, length_toList p, length_toList c]
  split
  · rfl
  · cases child.toList.find? (parent.size ≤ ·) <;> rfl

theorem lt_of_misfit?_eq_none {parent child : List Nat} (fit : misfit? parent child = none) :
    ∀ s ∈ child, s < parent.length := by
  unfold misfit? at fit
  split at fit
  · cases fit
  · rw [Option.map_eq_none_iff, List.find?_eq_none] at fit
    intro s mem
    simpa using fit s mem

/-- A list of views in which each fits is put together if the sizes add up to a size. -/
theorem union_fits {views : List SlotView} (fit : ∀ v ∈ views, v.Fits) :
    if (views.flatMap toList).length < Bounded.viewLimit
    then ∃ v, union views = .ok v ∧ v.Fits ∧ v.toList = views.flatMap toList
    else union views = .error .additionOverflow := by
  induction views with
  | nil => exact ⟨_, rfl, trivial, rfl⟩
  | cons v rest ih =>
    have here : v.Fits := fit v (by simp)
    have later := ih fun v mem => fit v (by simp [mem])
    have length : ((v :: rest).flatMap toList).length = v.size + (rest.flatMap toList).length := by
      rw [List.flatMap_cons, List.length_append, length_toList here]
    rw [length]
    by_cases small : (rest.flatMap toList).length < Bounded.viewLimit
    · rw [if_pos small] at later
      obtain ⟨tail, built, fits, slots⟩ := later
      have size : tail.size = (rest.flatMap toList).length := by rw [← slots, length_toList fits]
      rw [← size]
      split
      · next sum =>
        refine ⟨append v tail, ?_, ⟨here, fits⟩, ?_⟩
        · simp only [union, built, bind, Except.bind, Bounded.add_eq_ok sum]
          rfl
        · rw [toList, slots, List.flatMap_cons]
      · next tooMany => simp only [union, built, bind, Except.bind, Bounded.add, if_neg tooMany]
    · rw [if_neg small] at later
      rw [if_neg (by omega)]
      simp only [union, later, bind, Except.bind]

mutual

/-- The list that an expression stands for. -/
def Expr.slots : Expr → List Nat
  | .range min max => List.range' min (max - min)
  | .span start len => List.range' start len
  | .singular slot => [slot]
  | .listed slots => slots
  | .union parts => slotsAll parts
  | .join parent child => child.slots.filterMap (parent.slots[·]?)

def slotsAll : List Expr → List Nat
  | [] => []
  | e :: rest => e.slots ++ slotsAll rest

end

mutual

/-- The first reason for which the lists of an expression do not fit together. -/
def Expr.failure? : Expr → Option Failure
  | .range min max => if max < min then some (.misfit (.invertedRange min max)) else none
  | .span start len => if start + len < Bounded.viewLimit then none else some (.misfit (.overflow start len))
  | .singular _ | .listed _ => none
  | .union parts =>
    (failureIn? parts).or (if (slotsAll parts).length < Bounded.viewLimit then none else some (.fault .additionOverflow))
  | .join parent child =>
    (parent.failure?.or child.failure?).or ((misfit? parent.slots child.slots).map .misfit)

def failureIn? : List Expr → Option Failure
  | [] => none
  | e :: rest => e.failure?.or (failureIn? rest)

end

mutual

/-- Every number in the expression is a slot or a size. -/
def Expr.InWidth : Expr → Prop
  | .range min max => min < Bounded.viewLimit ∧ max < Bounded.viewLimit
  | .span start len => start < Bounded.viewLimit ∧ len < Bounded.viewLimit
  | .singular slot => slot < Bounded.viewLimit
  | .listed slots => ∀ slot ∈ slots, slot < Bounded.viewLimit
  | .union parts => InWidthAll parts
  | .join parent child => parent.InWidth ∧ child.InWidth

def InWidthAll : List Expr → Prop
  | [] => True
  | e :: rest => e.InWidth ∧ InWidthAll rest

end

/-- How building ends for lists that fail together, or that make up the given one. -/
inductive Comes : Except Failure SlotView → Option Failure → List Nat → Prop where
  | fails (f : Failure) (slots : List Nat) : Comes (.error f) (some f) slots
  | built (v : SlotView) (fits : v.Fits) : Comes (.ok v) none v.toList

inductive ComeAll : Except Failure (List SlotView) → Option Failure → List Nat → Prop where
  | fails (f : Failure) (slots : List Nat) : ComeAll (.error f) (some f) slots
  | built (views : List SlotView) (fit : ∀ v ∈ views, v.Fits) : ComeAll (.ok views) none (views.flatMap toList)

theorem Comes.union {r : Except Failure (List SlotView)} {failed : Option Failure} {slots : List Nat}
    (all : ComeAll r failed slots) :
    Comes (r >>= fun views => (SlotView.union views).mapError .fault)
      (failed.or (if slots.length < Bounded.viewLimit then none else some (.fault .additionOverflow))) slots := by
  cases all with
  | fails f => exact .fails f slots
  | built views fit =>
    have together := union_fits fit
    show Comes ((SlotView.union views).mapError .fault) (if _ then _ else _) _
    split at together
    · next small =>
      obtain ⟨v, united, fits, is⟩ := together
      rw [united, if_pos small, ← is]
      exact .built v fits
    · next tooMany =>
      rw [together, if_neg tooMany]
      exact .fails _ _

theorem Comes.join {p c : Except Failure SlotView} {pfailed cfailed : Option Failure} {pslots cslots : List Nat}
    (first : Comes p pfailed pslots) (second : Comes c cfailed cslots) :
    Comes (p >>= fun parent => c >>= fun child => orMisfit (ofJoin parent child))
      ((pfailed.or cfailed).or ((misfit? pslots cslots).map .misfit)) (cslots.filterMap (pslots[·]?)) := by
  cases first with
  | fails f => exact .fails f _
  | built parent pfits =>
    cases second with
    | fails f => exact .fails f _
    | built child cfits =>
      show Comes (orMisfit (ofJoin parent child)) ((misfit? _ _).map .misfit) _
      rw [ofJoin_eq pfits cfits]
      rcases fit : misfit? parent.toList child.toList with _ | cause
      · have inside := lt_of_misfit?_eq_none fit
        rw [length_toList pfits] at inside
        exact .built (.join parent child) ⟨pfits, cfits, inside⟩
      · exact .fails _ _

mutual

theorem Expr.build_comes : (e : Expr) → e.InWidth → Comes e.build e.failure? e.slots
  | .range min max, ⟨_, hmax⟩ => by
    unfold Expr.build Expr.failure? ofRange
    split
    · exact .fails _ _
    · have sum : min + (max - min) < Bounded.viewLimit := by omega
      rw [ofSpan, if_pos sum]
      exact .built (.span min (max - min)) (Nat.le_of_lt sum)
  | .span start len, _ => by
    unfold Expr.build Expr.failure? ofSpan
    split
    · next sum => exact .built (.span start len) (Nat.le_of_lt sum)
    · exact .fails _ _
  | .singular slot, (width : slot < Bounded.viewLimit) => .built (.span slot 1) width
  | .listed slots, _ => .built (.listed slots) trivial
  | .union parts, width => .union (buildAll_comes parts width)
  | .join parent child, ⟨p, c⟩ => .join (parent.build_comes p) (child.build_comes c)

theorem buildAll_comes : (es : List Expr) → InWidthAll es → ComeAll (buildAll es) (failureIn? es) (slotsAll es)
  | [], _ => .built [] (by simp)
  | e :: rest, ⟨here, later⟩ => by
    have first := e.build_comes here
    have others := buildAll_comes rest later
    unfold buildAll failureIn? slotsAll
    generalize e.build = r, e.failure? = failed, e.slots = slots at first ⊢
    generalize buildAll rest = r', failureIn? rest = failed', slotsAll rest = slots' at others ⊢
    cases first with
    | fails f => exact .fails f _
    | built v fits =>
      cases others with
      | fails f => exact .fails f _
      | built views fit => exact .built (v :: views) (by simpa using ⟨fits, fit⟩)

end

theorem Expr.fits_of_build {e : Expr} (width : e.InWidth) {v : SlotView} (built : e.build = .ok v) :
    v.Fits ∧ v.toList = e.slots := by
  have comes := e.build_comes width
  rw [built] at comes
  generalize e.failure? = failed, e.slots = slots at comes ⊢
  cases comes with
  | built v fits => exact ⟨fits, rfl⟩

theorem Expr.build_eq_error_iff {e : Expr} (width : e.InWidth) (f : Failure) :
    e.build = .error f ↔ e.failure? = some f := by
  have comes := e.build_comes width
  generalize e.build = r, e.failure? = failed, e.slots = slots at comes ⊢
  cases comes <;> simp

/-- **View lists.** A view that is built from slots and sizes has exactly the slots of its expression. Building fails
exactly for the failure that the lists show; a join in particular fails if the child's list is longer than the parent's,
or else for its first entry that is no local slot of the parent. -/
theorem Expr.build_means (e : Expr) (width : e.InWidth) :
    (∀ v, e.build = .ok v → v.Means e.slots) ∧
      (∀ f, e.build = .error f ↔ e.failure? = some f) ∧
      ∀ parent child p c, e = .join parent child → parent.build = .ok p → child.build = .ok c →
        match misfit? parent.slots child.slots with
        | some cause => e.build = .error (.misfit cause)
        | none => e.build = .ok (.join p c) := by
  refine ⟨?_, build_eq_error_iff width, ?_⟩
  · intro v built
    obtain ⟨fits, slots⟩ := fits_of_build width built
    rw [← slots]
    exact fits.means
  · rintro parent child p c rfl first second
    obtain ⟨pfits, pslots⟩ := fits_of_build width.1 first
    obtain ⟨cfits, cslots⟩ := fits_of_build width.2 second
    have built : (Expr.join parent child).build = orMisfit (ofJoin p c) := by
      unfold Expr.build
      rw [first, second]
      rfl
    rw [built, ofJoin_eq pfits cfits, pslots, cslots]
    cases misfit? parent.slots child.slots <;> rfl

/-- Two slots at the end of the range, then the storage of a player as a part of the whole, and four of these joined out
of order. Slot 29 is one too many. -/
theorem Expr.build_means_storage :
    let storage := Expr.join (.range 0 46) (.span 9 27)
    let parent := Expr.union [.span 0xfffffffffffffffd 2, .listed [], storage]
    let child := Expr.listed [1, 2, 0, 1]
    (parent.join child).InWidth ∧
      (∃ v, (parent.join child).build = .ok v ∧ v.Means [0xfffffffffffffffe, 9, 0xfffffffffffffffd, 0xfffffffffffffffe]) ∧
      (parent.join (.listed [28, 29, 40])).build = .error (.misfit (.childOutOfBounds 29 29)) := by
  intro storage parent child
  have width (l : List Nat) (small : ∀ slot ∈ l, slot < 50) : (parent.join (.listed l)).InWidth := by
    refine ⟨⟨⟨by decide, by decide⟩, by simp [InWidth], ⟨⟨by decide, by decide⟩, by decide, by decide⟩, trivial⟩, ?_⟩
    intro slot mem
    exact Nat.lt_trans (small slot mem) (by decide)
  have inWidth := width [1, 2, 0, 1] (by decide)
  refine ⟨inWidth, ⟨_, rfl, (build_means (parent.join child) inWidth).1 _ rfl⟩, ?_⟩
  exact ((build_means _ (width [28, 29, 40] (by decide))).2.1 _).2 rfl

end InventoryClicks.SlotView
