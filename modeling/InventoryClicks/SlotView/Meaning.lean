import InventoryClicks.SlotView.Basic

/-!
# The list a view means

In a view whose spans end within the slot range and whose joins stay inside of their parents, looking up a local slot is
looking it up in `toList`, and the size is the length of that list. So no local slot below the size is ever without an
external one, and a search through the local slots is a search through the list.
-/

namespace InventoryClicks.SlotView

/-- Views whose spans end within the slot range, and whose joins stay inside of their parents. -/
def Fits : SlotView → Prop
  | span start len => start + len ≤ Bounded.viewLimit
  | listed _ => True
  | append first rest => first.Fits ∧ rest.Fits
  | join parent child => parent.Fits ∧ child.Fits ∧ ∀ s ∈ child.toList, s < parent.size

/-- Picking entries of `l` by indices that are all in range keeps every index. -/
theorem filterMap_getElem?_of_lt {l : List Nat} {m : List Nat} (h : ∀ s ∈ m, s < l.length) :
    (m.filterMap (l[·]?)).length = m.length ∧ ∀ i : Nat, (m.filterMap (l[·]?))[i]? = m[i]?.bind (l[·]?) := by
  induction m with
  | nil => simp
  | cons a m ih =>
    have ha := List.getElem?_eq_getElem (h a (by simp))
    obtain ⟨h1, h2⟩ := ih (fun s hs => h s (by simp [hs]))
    rw [List.filterMap_cons_some ha]
    refine ⟨by simp [h1], fun i => ?_⟩
    cases i with
    | zero => simp [ha]
    | succ i => simp [h2 i]

theorem length_toList_and_toExternal? (v : SlotView) (hv : v.Fits) :
    v.toList.length = v.size ∧ ∀ l : Nat, v.toExternal? l = v.toList[l]? := by
  induction v with
  | span start len =>
    have ends : start + len ≤ Bounded.viewLimit := hv
    refine ⟨by simp [toList, size], fun l => ?_⟩
    simp only [toExternal?, toList]
    split
    · next h => rw [List.getElem?_range' h.1]; simp
    · next h => simp; omega
  | listed slots => exact ⟨rfl, fun l => rfl⟩
  | append first rest ihf ihr =>
    obtain ⟨h1, h2⟩ := ihf hv.1
    obtain ⟨h3, h4⟩ := ihr hv.2
    refine ⟨by simp [toList, size, h1, h3], fun l => ?_⟩
    simp only [toExternal?, toList, List.getElem?_append, h1, h2, h4]
  | join parent child ihp ihc =>
    obtain ⟨h1, h2⟩ := ihp hv.1
    obtain ⟨h3, h4⟩ := ihc hv.2.1
    obtain ⟨h5, h6⟩ := filterMap_getElem?_of_lt (l := parent.toList) (m := child.toList) (by rw [h1]; exact hv.2.2)
    refine ⟨by simp [toList, size, h5, h3], fun l => ?_⟩
    simp only [toExternal?, toList]
    rw [h6, h4]
    cases child.toList[l]? <;> simp [h2]

theorem length_toList {v : SlotView} (hv : v.Fits) : v.toList.length = v.size :=
  (length_toList_and_toExternal? v hv).1

theorem toExternal?_eq_getElem? {v : SlotView} (hv : v.Fits) (l : Nat) : v.toExternal? l = v.toList[l]? :=
  (length_toList_and_toExternal? v hv).2 l

theorem externals_eq_toList {v : SlotView} (hv : v.Fits) : v.externals = v.toList := by
  obtain ⟨hlen, hget⟩ := length_toList_and_toExternal? v hv
  apply List.ext_getElem?
  intro i
  have h := (filterMap_getElem?_of_lt (l := v.toList) (m := List.range v.size) (by simp [hlen])).2 i
  simp only [externals, funext hget]
  rw [h]
  by_cases hi : i < v.size
  · simp [List.getElem?_range hi]
  · simp [hlen, hi]

/-- A search from local slot `l` on to the end of the view. -/
theorem findFrom_eq_find? {v : SlotView} (hv : v.Fits) (p : Nat → Bool) {l n : Nat} (h : l + n = v.size) :
    v.findFrom p l n = (v.toList.drop l).find? p := by
  have hlen := length_toList hv
  induction n generalizing l with
  | zero =>
    rw [List.drop_eq_nil_of_le (by omega)]
    rfl
  | succ n ih =>
    have inside : l < v.toList.length := by omega
    have here : v.toExternal? l = some v.toList[l] := by
      rw [toExternal?_eq_getElem? hv, List.getElem?_eq_getElem inside]
    rw [List.drop_eq_getElem_cons inside, List.find?_cons, ← ih (by omega), findFrom, here]
    cases found : p v.toList[l] <;> simp [found]

theorem find?_eq_find? {v : SlotView} (hv : v.Fits) (p : Nat → Bool) : v.find? p = v.toList.find? p :=
  findFrom_eq_find? hv p (Nat.zero_add _)

theorem containsExternal_iff_mem {v : SlotView} (hv : v.Fits) (slot : Nat) :
    v.containsExternal slot = true ↔ slot ∈ v.toList := by
  have search : (v.find? (· == slot)).isSome = true ↔ slot ∈ v.toList := by
    rw [find?_eq_find? hv, List.find?_isSome]
    simp
  cases v with
  | span start len =>
    simp only [containsExternal, toList, List.mem_range'_1, Bool.and_eq_true, decide_eq_true_eq]
    omega
  | _ => exact search

end InventoryClicks.SlotView
