import InventoryClicks.Proofs.Overlay

/-!
# Staging is working in place

A transfer is staged in an overlay, and there it does slot by slot what it would do in the inventory itself
(`Transfer.run_standsFor`). So each way of ending a transfer is told by the run in place, whatever the operators: a fault
leaves the inventory as it was, and otherwise what is answered and written is what the run answers and leaves
(`Transfer.options_agree`).
-/

namespace InventoryClicks

open StepM

variable {inv : Inventory} {rule : StackingRule} {α β : Type}

namespace Overlay

/-- An overlay reads like the inventory with the changes written. -/
theorem Over.read_eq {o : Overlay} (covers : o.Over inv) (slot : Nat) :
    o.read slot = (inv.overwrite o.changes).read slot := by
  unfold Overlay.read Inventory.read
  rw [covers.base, Inventory.get?_overwrite]
  rcases staged : o.changes.get? slot with _ | s
  · cases inv.get? slot <;> rfl
  · obtain ⟨old, here⟩ := Option.isSome_iff_exists.1 (Inventory.get?_isSome_iff.2 (covers.inside slot s staged))
    simp [here]

/-- Steps on overlays of the inventory and steps on what the overlays show come to the same end, with `P`. -/
def StandsFor (inv : Inventory) (P : α → Prop) (staged : StepM Overlay α) (direct : StepM Inventory α) : Prop :=
  ∀ o, Over inv o → ∃ r o', Over inv o' ∧ (∀ a, r = .ok a → P a) ∧ staged.outcome o = (r, o') ∧
    direct.outcome (inv.overwrite o.changes) = (r, inv.overwrite o'.changes)

variable {P : α → Prop} {Q : β → Prop}

theorem StandsFor.bind {x : StepM Overlay α} {y : StepM Inventory α} {f : α → StepM Overlay β}
    {g : α → StepM Inventory β} (first : StandsFor inv P x y) (next : ∀ a, P a → StandsFor inv Q (f a) (g a)) :
    StandsFor inv Q (x >>= f) (y >>= g) := by
  intro o covers
  obtain ⟨r, o', covers', good, staged, direct⟩ := first o covers
  cases r with
  | error e => exact ⟨.error e, o', covers', nofun, outcome_bind_error staged, outcome_bind_error direct⟩
  | ok a =>
    rw [outcome_bind_ok staged, outcome_bind_ok direct]
    exact next a (good a rfl) o' covers'

theorem standsFor_ofExcept (r : Except Fault α) :
    StandsFor inv (fun _ => True) (StepM.ofExcept r) (StepM.ofExcept r) :=
  fun o covers => ⟨r, o, covers, fun _ _ => trivial, outcome_ofExcept r, outcome_ofExcept r⟩

/-- A slot that could be read is one of the inventory. -/
theorem standsFor_readSlot (slot : Nat) :
    StandsFor inv (fun _ => slot < inv.slotCount) (Transfer.readSlot slot) (Transfer.readSlot slot) := by
  intro o covers
  refine ⟨o.read slot, o, covers, fun s read => ?_, outcome_ofExcept _, ?_⟩
  · rw [covers.read_eq, Inventory.read_eq_ok_iff] at read
    have here : slot < (inv.overwrite o.changes).slotCount := Inventory.get?_isSome_iff.1 (by simp [read])
    exact here
  · rw [covers.read_eq]
    exact outcome_ofExcept _

theorem standsFor_writeSlot {slot : Nat} (here : slot < inv.slotCount) (s : Stack) :
    StandsFor inv (fun _ => True) (Transfer.writeSlot slot s) (Transfer.writeSlot slot s) := by
  intro o covers
  refine ⟨.ok ⟨⟩, o.write slot s, covers.write here s, fun _ _ => trivial, rfl, ?_⟩
  have write : (inv.overwrite o.changes).write slot s = .ok (inv.overwrite (o.changes.insert slot s)) := by
    rw [Inventory.overwrite_insert]
    exact if_pos here
  exact outcome_of_run (by simp [Transfer.writeSlot, SlotStore.write, write, Overlay.write])

end Overlay

open Overlay

namespace Transfer

theorem runSweep_standsFor (op : Operator) (slots : List Nat) (item : Stack) :
    StandsFor inv (fun _ => True) (runSweep rule op slots item) (runSweep rule op slots item) := by
  induction slots generalizing item with
  | nil => exact standsFor_ofExcept (.ok item)
  | cons slot slots ih =>
    unfold runSweep
    apply (standsFor_readSlot slot).bind
    intro current here
    apply (standsFor_ofExcept (op rule current item)).bind
    rintro (_ | e) -
    · exact ih item
    · apply (standsFor_writeSlot here e.slot).bind
      intro _ _
      exact ih e.incoming

theorem run_standsFor (t : Transfer) (item : Stack) :
    StandsFor inv (fun _ => True) (t.run rule item) (t.run rule item) := by
  induction t generalizing item with
  | sweep op slots => exact runSweep_standsFor op slots item
  | andThen first second ih₁ ih₂ =>
    unfold run
    apply (ih₁ item).bind
    intro rest _
    exact ih₂ rest

/-- The steps of the transfer on the inventory itself, each written at once. -/
def inPlace (t : Transfer) (item : Stack) : StepM Inventory Stack := t.run .standard item

/-- Staging stops at a fault where the run in place does, and otherwise holds back what that writes. -/
theorem stage_cases (t : Transfer) (inv : Inventory) (item : Stack) :
    (∃ e left, t.stage .standard inv item = .error e ∧ (t.inPlace item).outcome inv = (.error e, left)) ∨
      ∃ rest changes, t.stage .standard inv item = .ok (rest, changes) ∧
        (∀ slot s, changes.get? slot = some s → slot < inv.slotCount) ∧
        (t.inPlace item).outcome inv = (.ok rest, inv.overwrite changes) := by
  obtain ⟨r, o, covers, -, staged, direct⟩ := run_standsFor t item { base := inv } (over_start inv)
  have start : inv.overwrite ({ base := inv } : Overlay).changes = inv := inv.overwrite_empty
  rw [start] at direct
  unfold stage
  unfold StepM.outcome EStateM.run at staged
  split at staged
  · next run =>
    cases staged
    exact .inr ⟨_, o.changes, by rw [run], covers.inside, direct⟩
  · next run =>
    cases staged
    exact .inl ⟨_, _, by rw [run], direct⟩

theorem outcome_commit {changes : NatMap Stack} (inside : ∀ slot s, changes.get? slot = some s → slot < inv.slotCount) :
    (commit changes).outcome inv = (.ok ⟨⟩, inv.overwrite changes) := by
  have step (inv : Inventory) (slot : Nat) (s : Stack) (here : slot < inv.slotCount) :
      (writeSlot slot s : StepM Inventory Unit).run inv = .ok ⟨⟩ (inv.set slot s) := by
    simp [writeSlot, SlotStore.write, Inventory.write, here]
  rw [← Inventory.foldl_set_entries]
  exact outcome_of_run (Inventory.run_forM_write id step fun e mem => inside e.1 e.2 (NatMap.mem_entries_iff.1 mem))

/-- All three ways of ending a transfer, where staging stops at a fault. -/
theorem outcome_of_stage_error {t : Transfer} {item : Stack} {e : Fault} (staged : t.stage .standard inv item = .error e) :
    (t.all item).outcome inv = (.error e, inv) ∧ (t.allOrNothing item).outcome inv = (.error e, inv) ∧
      (t.dryRun item).outcome inv = (.error e, inv) := by
  have first : (t.stageHere item).outcome inv = (.error e, inv) := by
    rw [← staged]
    exact outcome_ofExcept _
  exact ⟨outcome_bind_error first, outcome_bind_error first, outcome_bind_error first⟩

/-- All three ways of ending a transfer, where staging comes to its end. -/
theorem outcome_of_stage_ok {t : Transfer} {item rest : Stack} {changes : NatMap Stack}
    (staged : t.stage .standard inv item = .ok (rest, changes))
    (inside : ∀ slot s, changes.get? slot = some s → slot < inv.slotCount) :
    (t.all item).outcome inv = (.ok rest, inv.overwrite changes) ∧
      (t.allOrNothing item).outcome inv = (.ok rest.isEmpty, if rest.isEmpty then inv.overwrite changes else inv) ∧
      (t.dryRun item).outcome inv = (.ok rest.isEmpty, inv) := by
  have first : (t.stageHere item).outcome inv = (.ok (rest, changes), inv) := by
    rw [← staged]
    exact outcome_ofExcept _
  have written := outcome_commit inside
  refine ⟨(outcome_bind_ok first).trans (outcome_bind_ok written), ?_, outcome_bind_ok first⟩
  refine (outcome_bind_ok first).trans ?_
  rcases empty : rest.isEmpty
  · simp [empty]
  · simp only [empty, ↓reduceIte]
    exact outcome_bind_ok written

/-- `Inventory.transact`, `Inventory.transactWhole` and `Inventory.fits` answer with what the steps on the inventory leave. -/
theorem outcome_eq_transact (t : Transfer) (inv : Inventory) (item : Stack) :
    (t.all item).outcome inv = (match inv.transact t item with
      | .ok (rest, after) => (.ok rest, after)
      | .error e => (.error e, inv)) ∧
    (t.allOrNothing item).outcome inv = (match inv.transactWhole t item with
      | .ok (whole, after) => (.ok whole, after)
      | .error e => (.error e, inv)) ∧
    (t.dryRun item).outcome inv = (inv.fits t item, inv) := by
  obtain ⟨e, left, staged, -⟩ | ⟨rest, changes, staged, inside, -⟩ := stage_cases t inv item
  · obtain ⟨all, whole, dry⟩ := outcome_of_stage_error staged
    rw [all, whole, dry, Inventory.transact, Inventory.transactWhole, Inventory.fits, staged]
    exact ⟨rfl, rfl, rfl⟩
  · obtain ⟨all, whole, dry⟩ := outcome_of_stage_ok staged inside
    rw [all, whole, dry, Inventory.transact, Inventory.transactWhole, Inventory.fits, staged]
    simp only [bind, Except.bind, Inventory.writeAll_eq_overwrite inside]
    refine ⟨rfl, ?_, rfl⟩
    cases rest.isEmpty <;> rfl

/-- All three ways of ending a transfer, where the run in place stops at a fault. -/
theorem outcome_of_inPlace_error {t : Transfer} {item : Stack} {e : Fault} {left : Inventory}
    (direct : (t.inPlace item).outcome inv = (.error e, left)) :
    (t.all item).outcome inv = (.error e, inv) ∧ (t.allOrNothing item).outcome inv = (.error e, inv) ∧
      (t.dryRun item).outcome inv = (.error e, inv) := by
  obtain ⟨e', left', staged, direct'⟩ | ⟨rest, changes, -, -, direct'⟩ := stage_cases t inv item
  · rw [direct] at direct'
    cases direct'
    exact outcome_of_stage_error staged
  · rw [direct] at direct'
    cases direct'

/-- All three ways of ending a transfer, where the run in place comes to its end. -/
theorem outcome_of_inPlace_ok {t : Transfer} {item rest : Stack} {after : Inventory}
    (direct : (t.inPlace item).outcome inv = (.ok rest, after)) :
    (t.all item).outcome inv = (.ok rest, after) ∧
      (t.allOrNothing item).outcome inv = (.ok rest.isEmpty, if rest.isEmpty then after else inv) ∧
      (t.dryRun item).outcome inv = (.ok rest.isEmpty, inv) := by
  obtain ⟨e, left, -, direct'⟩ | ⟨rest', changes, staged, inside, direct'⟩ := stage_cases t inv item
  · rw [direct] at direct'
    cases direct'
  · rw [direct] at direct'
    cases direct'
    exact outcome_of_stage_ok staged inside

/-- The slots that the transfer goes to, in order. -/
def slots : Transfer → List Nat
  | sweep _ slots => slots
  | andThen first second => first.slots ++ second.slots

/-- Every operator of the transfer has `P`. -/
def Uses (P : Operator → Prop) : Transfer → Prop
  | sweep op _ => P op
  | andThen first second => first.Uses P ∧ second.Uses P

end Transfer

/-- The operator stops at no fault. -/
def Operator.Answers (rule : StackingRule) (op : Operator) : Prop :=
  ∀ slot incoming, ∃ e?, op rule slot incoming = .ok e?

theorem Operator.Trades.answers {op : Operator} {w u : Weight} (trades : op.Trades rule w u) : op.Answers rule := by
  intro slot incoming
  obtain ⟨e?, answer, -⟩ := trades slot incoming
  exact ⟨e?, answer⟩

namespace Transfer

/-- The run comes to its end if all slots are the inventory's, and stops reading if one is not. -/
def Touches (m : StepM Inventory Stack) (inv : Inventory) (slots : List Nat) : Prop :=
  ∃ r after, m.outcome inv = (r, after) ∧ after.slotCount = inv.slotCount ∧
    ((∀ slot ∈ slots, slot < inv.slotCount) → ∃ rest, r = .ok rest) ∧
    ((∃ slot ∈ slots, inv.slotCount ≤ slot) → r = .error .readOutside)

theorem runSweep_touches {op : Operator} (answers : op.Answers rule) (slots : List Nat) (inv : Inventory) (item : Stack) :
    Touches (runSweep rule op slots item) inv slots := by
  induction slots generalizing inv item with
  | nil => exact ⟨.ok item, inv, rfl, rfl, by simp⟩
  | cons slot slots ih =>
    rcases here : inv.get? slot with _ | current
    · have outside : ¬ slot < inv.slotCount := by simp [← Inventory.get?_isSome_iff, here]
      have fault : inv.read slot = .error .readOutside := by simp [Inventory.read, here]
      exact ⟨_, inv, outcome_runSweep_error fault, rfl, fun all => absurd (all slot (by simp)) outside, fun _ => rfl⟩
    · have inside : slot < inv.slotCount := Inventory.get?_isSome_iff.1 (by simp [here])
      have read : inv.read slot = .ok current := Inventory.read_eq_ok_iff.2 here
      -- the slots after this one decide, whatever is written here
      have later {next : Inventory} {m : StepM Inventory Stack} (same : next.slotCount = inv.slotCount)
          (touches : Touches m next slots) (go : (runSweep rule op (slot :: slots) item).outcome inv = m.outcome next) :
          Touches (runSweep rule op (slot :: slots) item) inv (slot :: slots) := by
        obtain ⟨r, after, run, count, ends, stops⟩ := touches
        rw [same] at count ends stops
        refine ⟨r, after, go.trans run, count, fun all => ends fun i mem => all i (by simp [mem]), ?_⟩
        rintro ⟨i, mem, outside⟩
        rcases List.mem_cons.1 mem with rfl | mem
        · omega
        · exact stops ⟨i, mem, outside⟩
      obtain ⟨_ | e, answer⟩ := answers current item
      · exact later rfl (ih inv item) (outcome_runSweep_none read answer)
      · have write : inv.write slot e.slot = .ok (inv.set slot e.slot) := if_pos inside
        exact later (inv.slotCount_set slot e.slot) (ih _ e.incoming) (outcome_runSweep_some read answer write)

theorem run_touches {t : Transfer} (answers : t.Uses (Operator.Answers rule)) (inv : Inventory) (item : Stack) :
    Touches (t.run rule item) inv t.slots := by
  induction t generalizing inv item with
  | sweep op slots => exact runSweep_touches answers slots inv item
  | andThen first second ih₁ ih₂ =>
    obtain ⟨r, between, run₁, count₁, ends₁, stops₁⟩ := ih₁ answers.1 inv item
    unfold Touches run slots
    by_cases inside : ∀ slot ∈ first.slots, slot < inv.slotCount
    · obtain ⟨rest, rfl⟩ := ends₁ inside
      obtain ⟨r', after, run₂, count₂, ends₂, stops₂⟩ := ih₂ answers.2 between rest
      rw [count₁] at count₂ ends₂ stops₂
      refine ⟨r', after, (outcome_bind_ok run₁).trans run₂, count₂, fun all => ends₂ ?_, ?_⟩
      · exact fun slot mem => all slot (List.mem_append_right _ mem)
      · rintro ⟨slot, mem, outside⟩
        rcases List.mem_append.1 mem with mem | mem
        · have := inside slot mem
          omega
        · exact stops₂ ⟨slot, mem, outside⟩
    · obtain ⟨slot, mem, outside⟩ : ∃ slot ∈ first.slots, inv.slotCount ≤ slot := by simpa using inside
      rw [stops₁ ⟨slot, mem, outside⟩] at run₁
      refine ⟨_, between, outcome_bind_error run₁, count₁, fun all => ?_, fun _ => rfl⟩
      exact absurd (fun i mem => all i (List.mem_append_left _ mem)) inside

/-- **Options.** The run in place tells how each way of ending a transfer ends: where it stops at a fault they all do, and
leave the inventory as it was; otherwise all of it is what the run answers and leaves, a dry run answers whether that is
nothing and leaves the inventory as it was, and all or nothing answers the same and leaves either the one or the other.
If the operators answer, the run stops exactly when it touches a slot outside of the inventory. -/
theorem options_agree (t : Transfer) (inv : Inventory) (item : Stack) :
    (∀ e left, (t.inPlace item).outcome inv = (.error e, left) →
      (t.all item).outcome inv = (.error e, inv) ∧ (t.allOrNothing item).outcome inv = (.error e, inv) ∧
        (t.dryRun item).outcome inv = (.error e, inv)) ∧
    (∀ rest after, (t.inPlace item).outcome inv = (.ok rest, after) →
      (t.all item).outcome inv = (.ok rest, after) ∧
        (t.allOrNothing item).outcome inv = (.ok rest.isEmpty, if rest.isEmpty then after else inv) ∧
        (t.dryRun item).outcome inv = (.ok rest.isEmpty, inv)) ∧
    (t.Uses (Operator.Answers .standard) →
      ((∀ slot ∈ t.slots, slot < inv.slotCount) → ∃ rest after, (t.inPlace item).outcome inv = (.ok rest, after)) ∧
        ((∃ slot ∈ t.slots, inv.slotCount ≤ slot) → ∃ left, (t.inPlace item).outcome inv = (.error .readOutside, left))) := by
  refine ⟨fun e left => outcome_of_inPlace_error, fun rest after => outcome_of_inPlace_ok, fun answers => ?_⟩
  obtain ⟨r, after, run, -, ends, stops⟩ := run_touches answers inv item
  have direct : (t.inPlace item).outcome inv = (r, after) := run
  constructor
  · intro inside
    obtain ⟨rest, rfl⟩ := ends inside
    exact ⟨rest, after, direct⟩
  · intro outside
    rw [stops outside] at direct
    exact ⟨after, direct⟩

/-- Stone is gathered, and spread over one slot that is named twice. After that, a slot outside of the inventory stops it. -/
theorem options_agree_hopper :
    let inv := ((Inventory.empty .hopper).set 0 (.of .stone 5 none)).set 1 (.of .stone 60 none)
    let after := (inv.set 1 (.of .stone 6 none)).set 2 (.of .stone 60 none)
    let item := Stack.of .stone 10 none
    let rest := Stack.of .stone 4 none
    let spread := andThen (sweep (.collect Amount.unlimited) [1, 0]) (sweep (.fill 30) [2, 2])
    let outside := spread.andThen (take [3, 5])
    ((spread.inPlace item).outcome inv = (.ok rest, after) ∧ (spread.all item).outcome inv = (.ok rest, after) ∧
      (spread.allOrNothing item).outcome inv = (.ok false, inv) ∧ (spread.dryRun item).outcome inv = (.ok false, inv)) ∧
    (outside.all item).outcome inv = (.error .readOutside, inv) ∧
      (outside.allOrNothing item).outcome inv = (.error .readOutside, inv) ∧
      (outside.dryRun item).outcome inv = (.error .readOutside, inv) := by
  intro inv after item rest spread outside
  have direct : (spread.inPlace item).outcome inv = (.ok rest, after) := by decide
  obtain ⟨-, ends, -⟩ := options_agree spread inv item
  obtain ⟨stops, -, touches⟩ := options_agree outside inv item
  have honest := StackingRule.honest_standard
  have respects := StackingRule.respects_standard .items
  have answers : outside.Uses (Operator.Answers .standard) :=
    ⟨⟨(Operator.collect_balanced honest respects _).answers, (Operator.fill_balanced honest respects 30).answers⟩,
      (Operator.take_trades honest respects).answers⟩
  obtain ⟨left, direct'⟩ := (touches answers).2 ⟨5, by decide, by decide⟩
  exact ⟨⟨direct, ends rest after direct⟩, stops _ left direct'⟩

end Transfer

end InventoryClicks
