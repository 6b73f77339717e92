import InventoryClicks.Proofs.ViewArithmetic

/-!
# Overfull unions

Of the constructors of views only a union can leave the width of sizes, and it does exactly if the sizes of its parts add up
to more than a size. So an expression comes to a view or to a misfit unless building it gets to such a union, and every view
that is built can be read in the width (`Expr.build_inWidth`).
-/

namespace InventoryClicks.SlotView

theorem mapError_eq_ok {ε : Type} {r : Except ε SlotView} {f : ε → Failure} {v : SlotView} :
    r.mapError f = .ok v ↔ r = .ok v := by
  cases r with
  | ok => simp
  | error => exact ⟨nofun, nofun⟩

theorem orMisfit_ne_fault {r : Except BuildError SlotView} {f : Fault} : orMisfit r ≠ .error (.fault f) := by
  cases r <;> nofun

mutual

/-- No list in the expression has more entries than a view has slots. -/
def Expr.Counted : Expr → Prop
  | .listed slots => slots.length < Bounded.viewLimit
  | .union parts => CountedAll parts
  | .join parent child => parent.Counted ∧ child.Counted
  | _ => True

def CountedAll : List Expr → Prop
  | [] => True
  | e :: rest => e.Counted ∧ CountedAll rest

end

/-- Building gets to a union of parts whose sizes add up to more than a size. -/
inductive Expr.Overfull : Expr → Prop where
  | here {parts : List Expr} {views : List SlotView} (made : buildAll parts = .ok views)
      (full : Bounded.viewLimit ≤ (views.map size).sum) : (union parts).Overfull
  | part {before after : List Expr} {e : Expr} {views : List SlotView} (made : buildAll before = .ok views)
      (full : e.Overfull) : (union (before ++ e :: after)).Overfull
  | parent {parent child : Expr} (full : parent.Overfull) : (join parent child).Overfull
  | child {parent child : Expr} {p : SlotView} (made : parent.build = .ok p) (full : child.Overfull) :
      (join parent child).Overfull

mutual

theorem Expr.built_of_build : (e : Expr) → e.InWidth → e.Counted → ∀ v, e.build = .ok v → v.Built
  | .range _ _, _, _, _, made => .range (mapError_eq_ok.1 made)
  | .span _ _, _, _, _, made => .span (mapError_eq_ok.1 made)
  | .singular _, width, _, _, rfl => .singular width
  | .listed _, width, counted, _, rfl => .listed width counted
  | .union parts, width, counted, v, made => by
    obtain ⟨views, all, made⟩ := bind_eq_ok.1 made
    exact .union (built_of_buildAll parts width counted views all) (mapError_eq_ok.1 made)
  | .join parent child, width, counted, v, made => by
    obtain ⟨p, first, made⟩ := bind_eq_ok.1 made
    obtain ⟨c, second, made⟩ := bind_eq_ok.1 made
    exact .join (parent.built_of_build width.1 counted.1 p first) (child.built_of_build width.2 counted.2 c second)
      (mapError_eq_ok.1 made)

theorem built_of_buildAll : (es : List Expr) → InWidthAll es → CountedAll es →
    ∀ views, buildAll es = .ok views → ∀ v ∈ views, v.Built
  | [], _, _, _, rfl => by simp
  | e :: rest, width, counted, views, made => by
    obtain ⟨v, here, made⟩ := bind_eq_ok.1 made
    obtain ⟨others, later, made⟩ := bind_eq_ok.1 made
    cases made
    have first := e.built_of_build width.1 counted.1 v here
    have all := built_of_buildAll rest width.2 counted.2 others later
    simpa using ⟨first, all⟩

end

mutual

theorem Checked.build_eq : (e : Expr) → e.InWidth → e.Counted → Checked.build e = e.build
  | .range min max, _, _ => ofRange_eq min max
  | .span start len, _, _ => ofSpan_eq start len
  | .singular _, _, _ => rfl
  | .listed _, _, _ => rfl
  | .union parts, width, counted => by
    rw [build, Expr.build, buildAll_eq parts width counted]
    rcases all : SlotView.buildAll parts with e | views
    · rfl
    · have built := built_of_buildAll parts width counted views all
      simp only [bind_ok, union_eq (fun v mem => (built v mem).fits) fun v mem => (built v mem).sized]
  | .join parent child, width, counted => by
    rw [build, Expr.build, build_eq parent width.1 counted.1, build_eq child width.2 counted.2]
    rcases first : parent.build with e | p
    · rfl
    rcases second : child.build with e | c
    · rfl
    have p := parent.built_of_build width.1 counted.1 p first
    have c := child.built_of_build width.2 counted.2 c second
    simp only [bind_ok, ofJoin_eq p.sized c.sized]

theorem Checked.buildAll_eq : (es : List Expr) → InWidthAll es → CountedAll es →
    Checked.buildAll es = SlotView.buildAll es
  | [], _, _ => rfl
  | e :: rest, width, counted => by
    rw [buildAll, SlotView.buildAll, build_eq e width.1 counted.1, buildAll_eq rest width.2 counted.2]

end

theorem inWidthAll_iff {es : List Expr} : InWidthAll es ↔ ∀ e ∈ es, e.InWidth := by
  induction es with
  | nil => simp [InWidthAll]
  | cons e rest ih => simp [InWidthAll, ih]

theorem countedAll_iff {es : List Expr} : CountedAll es ↔ ∀ e ∈ es, e.Counted := by
  induction es with
  | nil => simp [CountedAll]
  | cons e rest ih => simp [CountedAll, ih]

theorem buildAll_append_error {before after : List Expr} {e : Expr} {views : List SlotView} {f : Failure}
    (made : buildAll before = .ok views) (failed : e.build = .error f) : buildAll (before ++ e :: after) = .error f := by
  induction before generalizing views with
  | nil => exact bind_eq_error.2 (.inl failed)
  | cons first before ih =>
    obtain ⟨v, here, made⟩ := bind_eq_ok.1 made
    obtain ⟨others, later, -⟩ := bind_eq_ok.1 made
    exact bind_eq_error.2 (.inr ⟨v, here, bind_eq_error.2 (.inl (ih later))⟩)

theorem Expr.Overfull.build {e : Expr} (full : e.Overfull) (width : e.InWidth) (counted : e.Counted) :
    e.build = .error (.fault .additionOverflow) := by
  induction full with
  | here made full =>
    have built := built_of_buildAll _ width counted _ made
    rw [Expr.build, made, Checked.bind_ok, union_of_le_sum (fun v mem => (built v mem).fits) full]
    rfl
  | part made full ih =>
    have failed := ih (inWidthAll_iff.1 width _ (List.mem_append_right _ (.head _)))
      (countedAll_iff.1 counted _ (List.mem_append_right _ (.head _)))
    exact bind_eq_error.2 (.inl (buildAll_append_error made failed))
  | parent full ih => exact bind_eq_error.2 (.inl (ih width.1 counted.1))
  | child made full ih =>
    exact bind_eq_error.2 (.inr ⟨_, made, bind_eq_error.2 (.inl (ih width.2 counted.2))⟩)

mutual

theorem Expr.overfull_of_build : (e : Expr) → e.InWidth → e.Counted →
    ∀ f, e.build = .error (.fault f) → f = .additionOverflow ∧ e.Overfull
  | .range _ _, _, _, _, failed => absurd failed orMisfit_ne_fault
  | .span _ _, _, _, _, failed => absurd failed orMisfit_ne_fault
  | .singular _, _, _, _, failed => nomatch failed
  | .listed _, _, _, _, failed => nomatch failed
  | .union parts, width, counted, f, failed => by
    rcases bind_eq_error.1 failed with failed | ⟨views, all, failed⟩
    · obtain ⟨cause, before, e, after, views, rfl, made, full⟩ := overfull_of_buildAll parts width counted f failed
      exact ⟨cause, .part made full⟩
    · have built := built_of_buildAll parts width counted views all
      rw [union_cases fun v mem => (built v mem).fits] at failed
      split at failed
      · cases failed
      · next full =>
        cases failed
        exact ⟨rfl, .here all (Nat.le_of_not_lt full)⟩
  | .join parent child, width, counted, f, failed => by
    rcases bind_eq_error.1 failed with failed | ⟨p, first, failed⟩
    · obtain ⟨cause, full⟩ := parent.overfull_of_build width.1 counted.1 f failed
      exact ⟨cause, .parent full⟩
    rcases bind_eq_error.1 failed with failed | ⟨c, second, failed⟩
    · obtain ⟨cause, full⟩ := child.overfull_of_build width.2 counted.2 f failed
      exact ⟨cause, .child first full⟩
    · exact absurd failed orMisfit_ne_fault

theorem overfull_of_buildAll : (es : List Expr) → InWidthAll es → CountedAll es →
    ∀ f, buildAll es = .error (.fault f) → f = .additionOverflow ∧
      ∃ before e after views, es = before ++ e :: after ∧ buildAll before = .ok views ∧ e.Overfull
  | [], _, _, _, failed => nomatch failed
  | e :: rest, width, counted, f, failed => by
    rcases bind_eq_error.1 failed with failed | ⟨v, here, failed⟩
    · obtain ⟨cause, full⟩ := e.overfull_of_build width.1 counted.1 f failed
      exact ⟨cause, [], e, rest, [], rfl, rfl, full⟩
    rcases bind_eq_error.1 failed with failed | ⟨_, _, failed⟩
    · obtain ⟨cause, before, e', after, views, rfl, made, full⟩ :=
        overfull_of_buildAll rest width.2 counted.2 f failed
      refine ⟨cause, e :: before, e', after, v :: views, rfl, ?_, full⟩
      exact bind_eq_ok.2 ⟨v, here, bind_eq_ok.2 ⟨views, made, rfl⟩⟩
    · cases failed

end

/-- **Views stay in the width.** An expression of slots and sizes comes to a view or to a misfit with every sum and every
difference in its width, unless building it gets to a union whose parts are larger together than a size: this alone
overflows. Every view that is built is read in the width, whatever is asked of it. -/
theorem Expr.build_inWidth (e : Expr) (width : e.InWidth) (counted : e.Counted) :
    Checked.build e = e.build ∧
      (¬ e.Overfull → (∃ v, Checked.build e = .ok v) ∨ ∃ cause, Checked.build e = .error (.misfit cause)) ∧
      (∀ f, Checked.build e = .error (.fault f) ↔ f = .additionOverflow ∧ e.Overfull) ∧
      ∀ v, Checked.build e = .ok v → v.ReadsInWidth := by
  rw [Checked.build_eq e width counted]
  have faults (f : Fault) : e.build = .error (.fault f) ↔ f = .additionOverflow ∧ e.Overfull := by
    refine ⟨e.overfull_of_build width counted f, ?_⟩
    rintro ⟨rfl, full⟩
    exact full.build width counted
  refine ⟨rfl, fun fits => ?_, faults, fun v made => (e.built_of_build width counted v made).sized.readsInWidth⟩
  rcases made : e.build with (cause | f) | v
  · exact .inr ⟨cause, rfl⟩
  · exact absurd ((faults f).1 made).2 fits
  · exact .inl ⟨v, rfl⟩

/-- Almost all slots and the last one, of which two are joined out of order, and these once more with all the others. -/
theorem Expr.build_inWidth_last :
    let wide := Expr.union [.span 0 0xfffffffffffffffe, .singular 0xffffffffffffffff]
    let ends := wide.join (.listed [0xfffffffffffffffe, 0])
    (∃ v, Checked.build ends = .ok v ∧ v.ReadsInWidth ∧ Checked.lookup v 0 = .ok (some 0xffffffffffffffff)) ∧
      Checked.build (.union [ends, wide]) = .error (.fault .additionOverflow) := by
  intro wide ends
  have width : wide.InWidth := ⟨⟨by decide, by decide⟩, (by decide : _ < _), trivial⟩
  have width' : ends.InWidth := ⟨width, (by decide : ∀ slot ∈ [0xfffffffffffffffe, 0], slot < Bounded.viewLimit)⟩
  have counted : wide.Counted := ⟨trivial, trivial, trivial⟩
  have counted' : ends.Counted := ⟨counted, (by decide : 2 < Bounded.viewLimit)⟩
  obtain ⟨-, -, -, reads⟩ := build_inWidth ends width' counted'
  obtain ⟨-, -, faults, -⟩ := build_inWidth (.union [ends, wide]) ⟨width', width, trivial⟩ ⟨counted', counted, trivial⟩
  have full : (Expr.union [ends, wide]).Overfull := .here rfl (by decide)
  have made : Checked.build ends = .ok (.join _ _) := rfl
  refine ⟨⟨_, made, reads _ made, ?_⟩, (faults _).2 ⟨rfl, full⟩⟩
  exact (reads _ made).lookup 0

/-- Two halves of the range of slots make up neither a view nor a misfit. -/
theorem Expr.build_two_halves :
    let halves := Expr.union [.span 0 0x8000000000000000, .span 0 0x8000000000000000]
    halves.InWidth ∧ halves.Counted ∧ halves.build = .error (.fault .additionOverflow) ∧
      ¬ ((∃ v, halves.build = .ok v) ∨ ∃ cause, halves.build = .error (.misfit cause)) := by
  intro halves
  have failed : halves.build = .error (.fault .additionOverflow) := rfl
  refine ⟨⟨⟨by decide, by decide⟩, ⟨by decide, by decide⟩, trivial⟩, ⟨trivial, trivial, trivial⟩, failed, ?_⟩
  rw [failed]
  simp

end InventoryClicks.SlotView
