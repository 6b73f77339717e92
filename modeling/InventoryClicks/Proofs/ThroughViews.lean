import InventoryClicks.Inventory.ThroughView
import InventoryClicks.Proofs.BuiltViews
import InventoryClicks.Proofs.Weight

/-!
# Lenses

A view makes a lens of an inventory: what is written at a local slot is read there, and at every other local slot that
stands for the same slot, and nowhere else. That holds of views that reach past the inventory and of views that name a slot
more than once (`lens_of_view`).
-/

namespace InventoryClicks.Inventory

/-- The answer to a write, and the inventory that it leaves. -/
def setThrough (inv : Inventory) (view : SlotView) (l : Nat) (s : Stack) : Option Stack × Inventory :=
  match inv.replaceThrough? view l s with
  | some (old, after) => (some old, after)
  | none => (none, inv)

/-- The view maps the local slot to a slot of the inventory. -/
def Reaches (inv : Inventory) (view : SlotView) (l : Nat) : Prop :=
  ∃ i, view.toExternal? l = some i ∧ i < inv.slotCount

variable {inv : Inventory} {v : SlotView} {l i : Nat} {old s : Stack}

theorem getThrough?_of_toExternal? (maps : v.toExternal? l = some i) : inv.getThrough? v l = inv.get? i := by
  simp [getThrough?, maps]

theorem Reaches.getThrough? (reach : inv.Reaches v l) :
    ∃ i old, v.toExternal? l = some i ∧ i < inv.slotCount ∧ inv.get? i = some old ∧ inv.getThrough? v l = some old := by
  obtain ⟨i, maps, inside⟩ := reach
  obtain ⟨old, here⟩ := Option.isSome_iff_exists.1 (get?_isSome_iff.2 inside)
  exact ⟨i, old, maps, inside, here, (getThrough?_of_toExternal? maps).trans here⟩

theorem setThrough_of_toExternal? (maps : v.toExternal? l = some i) (here : inv.get? i = some old) :
    inv.setThrough v l s = (some old, inv.set i s) := by
  simp [setThrough, replaceThrough?, maps, here]

theorem setThrough_of_not_reaches (out : ¬ inv.Reaches v l) : inv.setThrough v l s = (none, inv) := by
  rcases maps : v.toExternal? l with _ | i
  · simp [setThrough, replaceThrough?, maps]
  · have missing : inv.get? i = none := by
      rw [← Option.not_isSome_iff_eq_none, get?_isSome_iff]
      exact fun inside => out ⟨i, maps, inside⟩
    simp [setThrough, replaceThrough?, maps, missing]

theorem set_set_get (here : inv.get? i = some old) : (inv.set i s).set i old = inv := by
  have inside : i < inv.slotCount := get?_isSome_iff.1 (by simp [here])
  refine ext_get? rfl fun j => ?_
  rw [get?_set, get?_set, slotCount_set]
  by_cases same : j = i
  · simp [same, inside, here]
  · simp [same]

/-- A write at a slot, read through the view. -/
theorem getThrough?_set (maps : v.toExternal? l = some i) (inside : i < inv.slotCount) (l' : Nat) :
    (inv.set i s).getThrough? v l' = if v.toExternal? l' = v.toExternal? l then some s else inv.getThrough? v l' := by
  rcases maps' : v.toExternal? l' with _ | j
  · simp [Inventory.getThrough?, maps, maps']
  · simp [Inventory.getThrough?, maps, maps', get?_set, inside]

theorem kind_foldl_set_empty (slots : List Nat) (inv : Inventory) :
    (slots.foldl (fun acc slot => acc.set slot .empty) inv).kind = inv.kind := by
  induction slots generalizing inv with
  | nil => rfl
  | cons slot slots ih => exact ih (inv.set slot .empty)

@[simp] theorem kind_clearThrough (inv : Inventory) (v : SlotView) : (inv.clearThrough v).kind = inv.kind :=
  kind_foldl_set_empty v.externals inv

theorem get?_foldl_set_empty (slots : List Nat) (inv : Inventory) (i : Nat) :
    (slots.foldl (fun acc slot => acc.set slot .empty) inv).get? i =
      (inv.get? i).map fun s => if i ∈ slots then .empty else s := by
  induction slots generalizing inv with
  | nil => simp
  | cons slot slots ih =>
    rw [List.foldl_cons, ih, get?_set]
    rcases hold : inv.get? i with _ | old
    · have out : ¬ i < inv.slotCount := by
        rw [← get?_isSome_iff, hold]
        simp
      have missed : ¬ (i = slot ∧ slot < inv.slotCount) := fun here => out (here.1 ▸ here.2)
      simp [missed]
    · have inside : i < inv.slotCount := get?_isSome_iff.1 (by simp [hold])
      by_cases same : i = slot
      · simp [same, same ▸ inside]
      · simp [same]

/-- Clearing empties the slots that the view contains, whatever the order in which it names them and how often. -/
theorem get?_clearThrough (fits : v.Fits) (i : Nat) :
    (inv.clearThrough v).get? i = if v.containsExternal i then (inv.get? i).map fun _ => .empty else inv.get? i := by
  rw [clearThrough, get?_foldl_set_empty, SlotView.externals_eq_toList fits]
  by_cases mem : i ∈ v.toList
  · simp [mem, (SlotView.containsExternal_iff_mem fits i).2 mem]
  · have out : v.containsExternal i = false :=
      Bool.eq_false_iff.2 fun contained => mem ((SlotView.containsExternal_iff_mem fits i).1 contained)
    simp [mem, out]

/-- A write at a local slot with a slot of the inventory behind it. -/
theorem Reaches.setThrough (reach : inv.Reaches v l) : ∃ old after,
    inv.setThrough v l s = (some old, after) ∧ inv.getThrough? v l = some old ∧
      (∀ l', after.getThrough? v l' = if v.toExternal? l' = v.toExternal? l then some s else inv.getThrough? v l') ∧
      (∀ i, v.toExternal? l ≠ some i → after.get? i = inv.get? i) ∧ after.setThrough v l old = (some s, inv) := by
  obtain ⟨i, old, maps, inside, here, answer⟩ := reach.getThrough?
  refine ⟨old, inv.set i s, setThrough_of_toExternal? maps here, answer, getThrough?_set maps inside, ?_, ?_⟩
  · intro j other
    have differ : j ≠ i := fun same => other (same ▸ maps)
    simp [get?_set, differ]
  · have written : (inv.set i s).get? i = some s := by simp [get?_set, inside]
    rw [setThrough_of_toExternal? maps written, set_set_get here]

/-- **A view is a lens.** A write through a view answers nothing exactly if the view maps the local slot to no slot of the
inventory, and then changes nothing. Otherwise it answers what was read there before, all local slots that stand for the
same slot read what was written, the other ones and all other slots are as they were, and writing the answer back undoes it.
Clearing empties the slots that the view contains and no other. -/
theorem lens_of_view (inv : Inventory) (v : SlotView) (built : v.Built) :
    (∀ l s, ((inv.setThrough v l s).1 = none ↔ ¬ inv.Reaches v l) ∧
      (¬ inv.Reaches v l → (inv.setThrough v l s).2 = inv) ∧
      (inv.Reaches v l → ∃ old after, inv.setThrough v l s = (some old, after) ∧ inv.getThrough? v l = some old ∧
        (∀ l', after.getThrough? v l' =
          if v.toExternal? l' = v.toExternal? l then some s else inv.getThrough? v l') ∧
        (∀ i, v.toExternal? l ≠ some i → after.get? i = inv.get? i) ∧ after.setThrough v l old = (some s, inv))) ∧
    ∀ i, (inv.clearThrough v).get? i =
      if v.containsExternal i then (inv.get? i).map fun _ => .empty else inv.get? i := by
  refine ⟨fun l s => ⟨?_, fun out => by rw [setThrough_of_not_reaches out], Reaches.setThrough⟩,
    fun i => get?_clearThrough built.fits i⟩
  constructor
  · intro nothing reach
    obtain ⟨old, after, answer, -⟩ := reach.setThrough (s := s)
    rw [answer] at nothing
    cases nothing
  · intro out
    rw [setThrough_of_not_reaches out]

/-- A chest of nine slots, and a view that names slot 3 twice and reaches past the chest. -/
theorem lens_of_view_repeating :
    let v := SlotView.append (.listed [3, 40, 3]) (.append (.span 7 4) (.listed []))
    let inv := (Inventory.empty .generic9x1).set 3 (.single .stone)
    let after := (inv.setThrough v 2 .empty).2
    v.Built ∧ (inv.setThrough v 1 (.single .dirt)).2 = inv ∧ (inv.setThrough v 5 (.single .dirt)).1 = none ∧
      (inv.setThrough v 2 .empty).1 = some (.single .stone) ∧ after.getThrough? v 0 = some .empty ∧
      after.setThrough v 2 (.single .stone) = (some .empty, inv) ∧ (inv.clearThrough v).get? 8 = some .empty := by
  intro v inv after
  have built : v.Built := by
    refine .union ?_ (show SlotView.union [.listed [3, 40, 3], .span 7 4] = .ok v from rfl)
    simp only [List.mem_cons, List.not_mem_nil, or_false, forall_eq_or_imp, forall_eq]
    exact ⟨.listed (by decide) (by decide), .span (show SlotView.ofSpan 7 4 = .ok (.span 7 4) from rfl)⟩
  obtain ⟨writes, clears⟩ := lens_of_view inv v built
  have past (l i) (maps : v.toExternal? l = some i) (out : 9 ≤ i) : ¬ inv.Reaches v l := by
    rintro ⟨j, maps', inside⟩
    rw [maps] at maps'
    cases maps'
    exact absurd inside (Nat.not_lt.2 out)
  obtain ⟨old, changed, answer, was, reads, -, back⟩ := (writes 2 .empty).2.2 ⟨3, rfl, by decide⟩
  have first : old = .single .stone := Option.some.inj (was.symm.trans rfl)
  subst first
  have same : changed = after := (congrArg Prod.snd answer).symm
  subst same
  refine ⟨built, (writes 1 _).2.1 (past 1 40 rfl (by decide)), (writes 5 _).1.2 (past 5 9 rfl (by decide)), ?_, ?_, back, ?_⟩
  · rw [answer]
  · rw [reads 0]
    rfl
  · rw [clears 8]
    rfl

end InventoryClicks.Inventory
