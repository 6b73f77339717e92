/-!
# Finite maps keyed by naturals

A map is its list of entries with keys strictly ascending, so equal maps are equal lists and the order of the
entries is the order in which writes are made. `ext_get?` says that reading at every key determines the map.
-/

namespace InventoryClicks

structure NatMap (α : Type) where
  entries : List (Nat × α)
  ascending : entries.Pairwise (·.1 < ·.1)
  deriving DecidableEq

namespace NatMap

variable {α : Type}

def empty : NatMap α := ⟨[], .nil⟩

instance : EmptyCollection (NatMap α) := ⟨empty⟩

instance : Inhabited (NatMap α) := ⟨empty⟩

def isEmpty (m : NatMap α) : Bool := m.entries.isEmpty

def size (m : NatMap α) : Nat := m.entries.length

def get? (m : NatMap α) (k : Nat) : Option α := m.entries.lookup k

def contains (m : NatMap α) (k : Nat) : Bool := (m.get? k).isSome

def keys (m : NatMap α) : List Nat := m.entries.map (·.1)

/-- Entries with the one at `k` set, in ascending order if the given ones are. -/
def insertEntry (k : Nat) (a : α) : List (Nat × α) → List (Nat × α)
  | [] => [(k, a)]
  | e :: rest =>
    if k < e.1 then (k, a) :: e :: rest
    else if k = e.1 then (k, a) :: rest
    else e :: insertEntry k a rest

theorem mem_insertEntry {k : Nat} {a : α} {e : Nat × α} {l : List (Nat × α)} :
    e ∈ insertEntry k a l → e = (k, a) ∨ e ∈ l := by
  induction l with
  | nil => simp [insertEntry]
  | cons hd tl ih => grind [insertEntry]

theorem ascending_insertEntry (k : Nat) (a : α) {l : List (Nat × α)} (h : l.Pairwise (·.1 < ·.1)) :
    (insertEntry k a l).Pairwise (·.1 < ·.1) := by
  induction l with
  | nil => simp [insertEntry]
  | cons hd tl ih =>
    rw [List.pairwise_cons] at h
    rw [insertEntry]
    split
    · next hlt => exact .cons (fun e he => by rcases List.mem_cons.1 he with rfl | he; · exact hlt
                                              · exact Nat.lt_trans hlt (h.1 e he)) (.cons h.1 h.2)
    · split
      · next _ heq => exact .cons (fun e he => by simpa [heq] using h.1 e he) h.2
      · exact .cons (fun e he => by
          rcases mem_insertEntry he with rfl | he
          · simp only; omega
          · exact h.1 e he) (ih h.2)

def insert (m : NatMap α) (k : Nat) (a : α) : NatMap α :=
  ⟨insertEntry k a m.entries, ascending_insertEntry k a m.ascending⟩

def erase (m : NatMap α) (k : Nat) : NatMap α :=
  ⟨m.entries.filter (·.1 != k), m.ascending.filter _⟩

/-- Later entries of the list win. -/
def ofList (l : List (Nat × α)) : NatMap α :=
  l.foldl (fun m e => m.insert e.1 e.2) empty

@[simp] theorem get?_empty (k : Nat) : (empty : NatMap α).get? k = none := rfl

theorem get?_insert (m : NatMap α) (k j : Nat) (a : α) :
    (m.insert k a).get? j = if j = k then some a else m.get? j := by
  obtain ⟨l, h⟩ := m
  simp only [insert, get?]
  induction l with
  | nil => grind [insertEntry]
  | cons hd tl ih =>
    have := ih (List.pairwise_cons.1 h).2
    grind [insertEntry]

theorem get?_erase (m : NatMap α) (k j : Nat) :
    (m.erase k).get? j = if j = k then none else m.get? j := by
  obtain ⟨l, h⟩ := m
  simp only [erase, get?]
  induction l with
  | nil => simp
  | cons hd tl ih =>
    have := ih (List.pairwise_cons.1 h).2
    grind

theorem lookup_eq_none {l : List (Nat × α)} {k : Nat} (h : ∀ e ∈ l, k < e.1) : l.lookup k = none := by
  induction l with
  | nil => rfl
  | cons hd tl ih => grind

theorem lookup_head (e : Nat × α) (l : List (Nat × α)) : (e :: l).lookup e.1 = some e.2 :=
  List.lookup_cons_self

/-- A map is what it answers at every key. -/
theorem ext_get? {m n : NatMap α} (h : ∀ k, m.get? k = n.get? k) : m = n := by
  obtain ⟨l, hl⟩ := m
  obtain ⟨r, hr⟩ := n
  simp only [get?] at h
  congr 1
  induction l generalizing r with
  | nil =>
    cases r with
    | nil => rfl
    | cons e r => exact absurd (h e.1) (by rw [lookup_head]; simp)
  | cons d l ih =>
    cases r with
    | nil => exact absurd (h d.1) (by rw [lookup_head]; simp)
    | cons e r =>
      rw [List.pairwise_cons] at hl hr
      have hd := h d.1
      have he := h e.1
      have hkey : d.1 = e.1 := by
        rcases Nat.lt_trichotomy d.1 e.1 with hlt | heq | hgt
        · rw [lookup_eq_none (l := e :: r) (by grind), lookup_head] at hd
          contradiction
        · exact heq
        · rw [lookup_eq_none (l := d :: l) (by grind), lookup_head] at he
          contradiction
      have hval : d.2 = e.2 := by grind
      rw [Prod.ext hkey hval, ih hl.2 r hr.2 fun k => ?_]
      by_cases hk : k = d.1
      · rw [lookup_eq_none (by grind), lookup_eq_none (by grind)]
      · have := h k
        grind

end NatMap

end InventoryClicks
