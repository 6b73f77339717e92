import Mathlib.Algebra.Ring.Nat
import InventoryClicks.Proofs.Filling
import InventoryClicks.Proofs.WindowSlots

/-!
# Drags

A drag lets slots take items of the cursor one after the other, each of them no more than a share that is fixed before the
first one is looked at (`Scene.Spread`). A left drag fixes the share so that it lasts for all slots, or, when there are more
slots than items, at one item, which then goes to the first slots that can take it (`Menu.drag_exact`).
-/

namespace InventoryClicks

open StepM

namespace Transfer

/-- What a slot gets of `n` items that go along slots, each of which takes its share of what comes to it. -/
def portion (share : Nat → Nat) : Nat → List Nat → Nat → Nat
  | _, [], _ => 0
  | n, i :: slots, slot => if slot = i then min (share i) n else portion share (n - share i) slots slot

/-- How many items a slot takes, if there are so many and up to a limit. -/
abbrev takes (limit : Nat) (item : Stack) (held : Nat → Stack) (slot : Nat) : Nat := min limit ((held slot).room item)

section

variable {share : Nat → Nat} {n slot : Nat} {slots pre post : List Nat}

theorem portion_le_share : portion share n slots slot ≤ share slot := by
  induction slots generalizing n with
  | nil => exact Nat.zero_le _
  | cons i slots ih =>
    unfold portion
    split
    · next same =>
      rw [same]
      exact Nat.min_le_left _ _
    · exact ih

theorem portion_of_notMem (new : slot ∉ slots) : portion share n slots slot = 0 := by
  induction slots generalizing n with
  | nil => rfl
  | cons i slots ih =>
    obtain ⟨differ, later⟩ := not_or.1 (mt List.mem_cons.2 new)
    rw [portion, if_neg differ, ih later]

theorem portion_append_of_mem (mem : slot ∈ pre) : portion share n (pre ++ post) slot = portion share n pre slot := by
  induction pre generalizing n with
  | nil => cases mem
  | cons i pre ih =>
    rw [List.cons_append, portion, portion]
    by_cases same : slot = i
    · rw [if_pos same, if_pos same]
    · rw [if_neg same, if_neg same, ih (List.mem_of_ne_of_mem same mem)]

/-- A slot gets what those before it leave of its share. -/
theorem portion_of_split (first : slot ∉ pre) :
    portion share n (pre ++ slot :: post) slot = min (share slot) (n - (pre.map share).sum) := by
  induction pre generalizing n with
  | nil => simp [portion]
  | cons i pre ih =>
    obtain ⟨differ, later⟩ := not_or.1 (mt List.mem_cons.2 first)
    rw [List.cons_append, portion, if_neg differ, ih later, List.map_cons, List.sum_cons, Nat.sub_sub]

/-- All that the slots get are the items, as far as there are shares of them. -/
theorem sum_portion (once : slots.Nodup) : (slots.map (portion share n slots)).sum = min n (slots.map share).sum := by
  induction slots generalizing n with
  | nil => simp
  | cons i slots ih =>
    obtain ⟨new, once⟩ := List.nodup_cons.1 once
    have later : slots.map (portion share n (i :: slots)) = slots.map (portion share (n - share i) slots) := by
      refine List.map_congr_left fun j mem => ?_
      have differ : j ≠ i := fun same => new (same ▸ mem)
      rw [portion, if_neg differ]
    rw [List.map_cons, List.sum_cons, List.map_cons, List.sum_cons, later, ih once, portion, if_pos rfl]
    omega

end

section

variable {σ : Type} [SlotStore σ] {p : Nat → Prop} {sound : σ → Prop} {look : σ → Nat → Stack} {s : σ}
  {limit n slot : Nat} {item : Stack} {slots : List Nat}

/-- A slot that items are filled into takes what it can, and the sweep goes on with the others. -/
theorem fill_step (limit : Nat) (shows : SlotStore.Shows p sound look) (h : sound s) (here : p slot)
    (most : n ≤ item.count) (slots : List Nat) :
    ∃ s', (runSweep .standard (.fill limit) (slot :: slots) (item.withCount n)).outcome s =
        (runSweep .standard (.fill limit) slots
          (item.withCount ((n - takes limit item (look s) slot : Nat) : Int))).outcome s' ∧
      sound s' ∧ look s' =
        Function.update (look s) slot ((look s slot).grown item (min (takes limit item (look s) slot) n)) := by
  have read := shows.read s slot h here
  have answer := Operator.fill_carried limit most (look s slot)
  have left : n - min n (takes limit item (look s) slot) = n - takes limit item (look s) slot := by omega
  rw [left, Nat.min_comm n] at answer
  by_cases idle : min (takes limit item (look s) slot) n = 0
  · have all : n - takes limit item (look s) slot = n := by omega
    rw [if_pos idle] at answer
    rw [outcome_runSweep_none read answer, idle, Stack.grown_zero, Function.update_eq_self, all]
    exact ⟨s, rfl, h, rfl⟩
  · rw [if_neg idle] at answer
    obtain ⟨s', write, h', look'⟩ := shows.write s slot _ h here
    exact ⟨s', outcome_runSweep_some read answer write, h', look'⟩

/-- Items that are filled into different slots, up to a limit for each of them. -/
theorem runSweep_portions (shows : SlotStore.Shows p sound look) {held : Nat → Stack} (once : slots.Nodup)
    (inside : ∀ slot ∈ slots, p slot) (h : sound s) (here : ∀ slot ∈ slots, look s slot = held slot)
    (most : n ≤ item.count) :
    ∃ s', (runSweep .standard (.fill limit) slots (item.withCount n)).outcome s =
        (.ok (item.withCount ((n - (slots.map (takes limit item held)).sum : Nat) : Int)), s') ∧
      sound s' ∧ ∀ i, look s' i = (look s i).grown item (portion (takes limit item held) n slots i) := by
  induction slots generalizing s n with
  | nil => exact ⟨s, by simp [runSweep], h, fun i => ((look s i).grown_zero item).symm⟩
  | cons slot slots ih =>
    obtain ⟨new, once⟩ := List.nodup_cons.1 once
    obtain ⟨s₁, step, h₁, look₁⟩ := fill_step limit shows h (inside slot (by simp)) most slots
    rw [takes, here slot (by simp)] at step look₁
    have apart : ∀ i ∈ slots, look s₁ i = held i := by
      intro i mem
      have differ : i ≠ slot := fun same => new (same ▸ mem)
      rw [look₁, Function.update_of_ne differ, here i (by simp [mem])]
    obtain ⟨s', run, h', look'⟩ := ih (n := n - takes limit item held slot) once (fun i mem => inside i (by simp [mem]))
      h₁ apart (by omega)
    rw [step, List.map_cons, List.sum_cons, ← Nat.sub_sub]
    refine ⟨s', run, h', fun i => ?_⟩
    rw [look', look₁, portion]
    by_cases same : i = slot
    -- a slot that was passed is not met again
    · rw [same, Function.update_self, portion_of_notMem new, Stack.grown_zero, if_pos rfl, here slot (by simp)]
    · rw [Function.update_of_ne same, if_neg same]

end

end Transfer

namespace Scene

/-- How many items the slots have got. -/
def gained (scene after : Scene) (slots : List Nat) : Nat :=
  (slots.map fun i => (after.stackAt i).count - (scene.stackAt i).count).sum

/-- The slots that have room for an item of the cursor. -/
def roomy (scene : Scene) (slots : List Nat) : List Nat :=
  Transfer.due (fun s => 0 < s.room scene.cursor) scene.stackAt slots

/-- What changes when slots take items of the cursor one after the other. -/
structure Spread (scene after : Scene) (share : Nat) (slots : List Nat) : Prop
    extends scene.SameBut (scene.CellOf slots) after where
  /-- A slot takes its share, as far as it has room and the slots before it left so much. -/
  count : ∀ pre i post, slots = pre ++ i :: post → (after.stackAt i).count = (scene.stackAt i).count +
    min share (min ((scene.stackAt i).room scene.cursor) (scene.cursor.count - scene.gained after pre))
  /-- What a slot gets are items of the cursor. -/
  grown : ∀ i ∈ slots, after.stackAt i =
    (scene.stackAt i).grown scene.cursor ((after.stackAt i).count - (scene.stackAt i).count)
  most : scene.gained after slots ≤ scene.cursor.count
  cursor : after.cursor = scene.cursor.withCount ((scene.cursor.count - scene.gained after slots : Nat) : Int)

variable {scene after : Scene} {share i : Nat} {slots pre post : List Nat}

theorem mem_roomy : i ∈ scene.roomy slots ↔ i ∈ slots ∧ 0 < (scene.stackAt i).room scene.cursor := by
  simp [roomy, Transfer.due]

theorem roomy_of_split (room : 0 < (scene.stackAt i).room scene.cursor) (split : slots = pre ++ i :: post) :
    scene.roomy slots = scene.roomy pre ++ i :: scene.roomy post := by
  unfold roomy
  exact Transfer.due_of_split (by simpa using room) split

theorem length_roomy_snoc (pre : List Nat) (i : Nat) : (scene.roomy (pre ++ [i])).length =
    (scene.roomy pre).length + if 0 < (scene.stackAt i).room scene.cursor then 1 else 0 := by
  unfold roomy Transfer.due
  rw [List.filter_append, List.length_append, List.filter_singleton]
  split <;> simp_all

open Transfer in
/-- What filling different slots leaves. -/
theorem spread_of_look (once : slots.Nodup) (filled : scene.cursor.isEmpty = false)
    (others : scene.SameBut (scene.CellOf slots) after)
    (look : ∀ i, after.stackAt i = (scene.stackAt i).grown scene.cursor
      (portion (takes share scene.cursor scene.stackAt) scene.cursor.count slots i))
    (cursor : after.cursor = scene.cursor.withCount
      ((scene.cursor.count - (slots.map (takes share scene.cursor scene.stackAt)).sum : Nat) : Int)) :
    scene.Spread after share slots := by
  have count (i : Nat) : (after.stackAt i).count = (scene.stackAt i).count +
      portion (takes share scene.cursor scene.stackAt) scene.cursor.count slots i := by
    rw [look]
    exact Stack.count_grown_of_le_room filled (portion_le_share.trans (Nat.min_le_right _ _))
  have gained {pre post : List Nat} (split : slots = pre ++ post) :
      scene.gained after pre = min scene.cursor.count (pre.map (takes share scene.cursor scene.stackAt)).sum := by
    rw [split] at once
    rw [← sum_portion once.of_append_left, Scene.gained]
    congr 1
    refine List.map_congr_left fun i mem => ?_
    rw [count, split, portion_append_of_mem mem, Nat.add_sub_cancel_left]
  have all := gained (List.append_nil slots).symm
  refine { others with count := ?_, grown := ?_, most := ?_, cursor := ?_ }
  · intro pre i post split
    have first : i ∉ pre := notMem_of_once once split
    rw [count, gained split, split, portion_of_split first, takes]
    omega
  · intro i _
    rw [count, Nat.add_sub_cancel_left]
    exact look i
  · omega
  · rw [cursor, all]
    congr 2
    omega

namespace Spread

variable (spread : scene.Spread after share slots)

include spread

theorem count_le (mem : i ∈ slots) : (after.stackAt i).count - (scene.stackAt i).count ≤ share := by
  obtain ⟨pre, post, split⟩ := List.append_of_mem mem
  have count := spread.count pre i post split
  omega

theorem gained_le (sub : pre ⊆ slots) : scene.gained after pre ≤ pre.length * share := by
  induction pre with
  | nil => exact Nat.zero_le _
  | cons i pre ih =>
    obtain ⟨here, later⟩ := List.cons_subset.1 sub
    have most := spread.count_le here
    have rest := ih later
    have sum : scene.gained after (i :: pre) =
        (after.stackAt i).count - (scene.stackAt i).count + scene.gained after pre := rfl
    rw [sum, List.length_cons, Nat.succ_mul]
    omega

/-- If there are shares for all slots, one that has room for it gets its share. -/
theorem count_of_shares (enough : slots.length * share ≤ scene.cursor.count) (mem : i ∈ slots)
    (room : share ≤ (scene.stackAt i).room scene.cursor) :
    (after.stackAt i).count = (scene.stackAt i).count + share := by
  obtain ⟨pre, post, split⟩ := List.append_of_mem mem
  have before : scene.gained after pre ≤ pre.length * share := spread.gained_le (by simp [split])
  have length : slots.length = pre.length + 1 + post.length := by
    rw [split, List.length_append, List.length_cons]
    omega
  have left : pre.length * share + share ≤ scene.cursor.count := by
    refine le_trans ?_ enough
    rw [← Nat.succ_mul, length]
    exact Nat.mul_le_mul_right share (by omega)
  rw [spread.count pre i post split]
  omega

end Spread

/-- Slots that get one item each have got as many as there are, of those that have room for one. -/
theorem Spread.gained_single (spread : scene.Spread after 1 slots) (split : slots = pre ++ post) :
    scene.gained after pre = min scene.cursor.count (scene.roomy pre).length := by
  induction pre using List.reverseRecOn generalizing post with
  | nil => exact (Nat.min_zero _).symm
  | append_singleton pre i ih =>
    have split' : slots = pre ++ i :: post := by simp [split]
    have count := spread.count pre i post split'
    have before := ih split'
    have snoc : scene.gained after (pre ++ [i]) =
        scene.gained after pre + ((after.stackAt i).count - (scene.stackAt i).count) := by
      simp [gained]
    rw [snoc, length_roomy_snoc]
    split <;> omega

/-- One item each goes to the first slots that have room for it, as long as there are items. -/
theorem Spread.count_single (spread : scene.Spread after 1 slots) (once : slots.Nodup) (mem : i ∈ slots) :
    (after.stackAt i).count = (scene.stackAt i).count +
      if i ∈ (scene.roomy slots).take scene.cursor.count then 1 else 0 := by
  obtain ⟨pre, post, split⟩ := List.append_of_mem mem
  have count := spread.count pre i post split
  rw [spread.gained_single split] at count
  rw [count]
  congr 1
  by_cases room : 0 < (scene.stackAt i).room scene.cursor
  · have before : i ∉ scene.roomy pre := fun here => Transfer.notMem_of_once once split (mem_roomy.1 here).1
    have place : (scene.roomy slots).idxOf i = (scene.roomy pre).length := by
      rw [roomy_of_split room split, List.idxOf_append_of_notMem before, List.idxOf_cons_self, Nat.add_zero]
    simp only [List.mem_take_iff_idxOf_lt (mem_roomy.2 ⟨mem, room⟩), place]
    split <;> omega
  · have refused : i ∉ (scene.roomy slots).take scene.cursor.count :=
      fun here => room (mem_roomy.1 (List.mem_of_mem_take here)).2
    rw [if_neg refused]
    omega

end Scene

namespace Menu

/-- A window does not have more slots than an amount can count. -/
theorem inRange_length {scene : Scene} {slots : List Nat} (once : slots.Nodup)
    (inside : ∀ slot ∈ slots, slot < scene.slotCount) : Amount.InRange slots.length := by
  have sub : slots ⊆ List.range scene.slotCount := fun slot mem => List.mem_range.2 (inside slot mem)
  have length := (List.subperm_of_subset once sub).length_le
  have size : scene.slotCount ≤ 90 := by
    unfold Window.slotCount
    split
    · next c _ =>
      have small := c.kind.slotCount_le
      unfold PlayerLayout.mainSize Inventory.slotCount
      omega
    · exact scene.player.kind.slotCount_le.trans (by decide)
  rw [List.length_range] at length
  unfold Amount.InRange
  omega

variable {menu : Menu} {scene : Scene} {a : Action} {slots : List Nat}

section

variable (own : scene.player.kind = .player) (filled : scene.cursor.isEmpty = false) (named : slots ≠ [])
  (once : slots.Nodup) (inside : ∀ slot ∈ slots, slot < scene.slotCount)

include own filled named once inside

/-- The draft that filling slots from the cursor ends with. -/
theorem spread_ends (share : Nat) : Ends (spread .standard share slots) { scene } fun _ d =>
    d.scene = scene ∧ d.Sound ∧ d.outcome.drops = none ∧ scene.Spread d.view share slots := by
  have sound := Draft.sound_start scene
  have start := Draft.view_start scene
  have opens : ∀ i ∈ slots, Draft.Open scene (scene.CellOf slots) i :=
    fun i mem => Draft.open_of_mem (inside i mem) mem
  have all : scene.cursor.withCount scene.cursor.count = scene.cursor := scene.cursor.withCount_count
  obtain ⟨d, run, frame, look⟩ := Transfer.runSweep_portions (n := scene.cursor.count)
    (Draft.shows_view { scene } own _) once opens (.refl sound) (fun _ _ => rfl) (Nat.le_refl _)
  simp only [start] at run look
  rw [all] at run
  unfold spread
  apply ends_bind_of_run (DraftM.run_cursor _)
  have cursor : ({ scene } : Draft).cursor = scene.cursor := rfl
  rw [cursor, if_neg (by simp [filled, named])]
  apply ends_bind_of_run (outcome_eq_ok.1 run)
  have others := frame.sameBut
  split
  · next same =>
    have kept : d.view.cursor = _ := frame.view_cursor.trans same.symm
    exact ends_pure ⟨frame.scene, frame.sound, frame.drops, Scene.spread_of_look once filled others look kept⟩
  · refine ends_of_run (DraftM.run_setCursor _ d) ⟨frame.scene, frame.sound, frame.drops, ?_⟩
    exact Scene.spread_of_look once filled ⟨others.player, others.container, others.apart⟩ look rfl

/-- The same for the share of a left drag. -/
theorem leftDrag_ends : Ends (leftDrag .standard slots) { scene } fun _ d =>
    d.scene = scene ∧ d.Sound ∧ d.outcome.drops = none ∧
      scene.Spread d.view (max 1 (scene.cursor.count / slots.length)) slots := by
  have share : max ((scene.cursor.count : Int).tdiv slots.length) 1 =
      (max 1 (scene.cursor.count / slots.length) : Nat) := by
    rw [← Int.ofNat_tdiv]
    omega
  have ends := spread_ends own filled named once inside (max 1 (scene.cursor.count / slots.length))
  rw [← share] at ends
  unfold leftDrag
  rw [if_neg (by simp [named]), if_pos (inRange_length once inside)]
  apply ends_bind_of_run (DraftM.run_cursor _)
  apply ends_bind_of_run (run_ofExcept_ok _ _)
  exact ends

end

/-- A creative drag leaves copies of the cursor in the slots that are empty, and touches no others. -/
theorem copyDrag_ends {touched : Cell → Prop} {d : Draft} (sound : d.Sound) (own : d.scene.player.kind = .player)
    (inside : ∀ slot ∈ slots, slot < d.scene.slotCount)
    (touch : ∀ slot ∈ slots, (d.view.stackAt slot).isEmpty → touched (d.scene.cell slot)) (s : Stack) :
    Ends (copyDrag s slots) d fun _ d' => Draft.Frame touched d d' ∧
      (∀ i, d'.view.stackAt i = if i ∈ slots ∧ (d.view.stackAt i).isEmpty then s else d.view.stackAt i) ∧
      ((∀ i ∈ slots, (d.view.stackAt i).isEmpty = false) → d' = d) := by
  induction slots generalizing d with
  | nil => exact ends_pure ⟨.refl sound, fun i => by simp, fun _ => rfl⟩
  | cons slot slots ih =>
    obtain ⟨c, old, shows⟩ := sound.shows own (inside slot (by simp))
    have stack := shows.stackAt
    have later : ∀ i ∈ slots, i < d.scene.slotCount := fun i mem => inside i (by simp [mem])
    unfold copyDrag
    apply ends_bind_of_run (DraftM.run_read sound shows)
    rw [← stack]
    split
    · next empty =>
      have here : touched c := Window.cell_of_locate shows.locate ▸ touch slot (by simp) empty
      have written : Draft.Frame touched d (d.writeCell s c) :=
        (Draft.Frame.refl sound).writeCell (sound.has shows.view) here s
      have look := sound.stackAt_writeCell shows s
      apply ends_bind_of_run (DraftM.run_write shows s)
      have step : Ends (copyDrag s slots) (d.writeCell s c) _ :=
        ih written.sound (written.scene ▸ own) (written.scene ▸ later) ?_
      · apply step.mono
        rintro ⟨⟩ d' ⟨frame, copies, -⟩
        refine ⟨written.trans frame, fun i => ?_, fun filled => ?_⟩
        · rw [copies, look]
          by_cases same : i = slot
          · simp [same, empty]
          · simp [same]
        · rw [filled slot (by simp)] at empty
          cases empty
      · intro i mem vacant
        rw [written.scene]
        by_cases same : i = slot
        · exact same ▸ touch slot (by simp) empty
        · rw [look, Function.update_of_ne same] at vacant
          exact touch i (by simp [mem]) vacant
    · next filled =>
      apply ends_bind_of_run (run_pure _ _)
      apply (ih sound own later fun i mem => touch i (by simp [mem])).mono
      rintro ⟨⟩ d' ⟨frame, copies, idle⟩
      refine ⟨frame, fun i => ?_, fun filled => idle fun i mem => filled i (by simp [mem])⟩
      rw [copies]
      by_cases same : i = slot
      · simp [same, filled]
      · simp [same]

theorem middleDrag_ends (touched : Cell → Prop) (own : scene.player.kind = .player)
    (inside : ∀ slot ∈ slots, slot < scene.slotCount)
    (touch : ∀ slot ∈ slots, (scene.stackAt slot).isEmpty → touched (scene.cell slot)) :
    Ends (middleDrag slots) { scene } fun _ d => Draft.Frame touched { scene } d ∧
      (∀ i, d.view.stackAt i = if i ∈ slots ∧ (scene.stackAt i).isEmpty then scene.cursor else scene.stackAt i) ∧
      (scene.cursor.isEmpty ∨ (∀ i ∈ slots, (scene.stackAt i).isEmpty = false) → d = { scene }) := by
  have sound := Draft.sound_start scene
  have start := Draft.view_start scene
  have cursor : ({ scene } : Draft).cursor = scene.cursor := rfl
  unfold middleDrag
  apply ends_bind_of_run (DraftM.run_cursor _)
  rw [cursor]
  rcases filled : scene.cursor.isEmpty
  · rw [if_neg (by simp)]
    have copied : Ends (copyDrag scene.cursor slots) { scene } _ :=
      copyDrag_ends sound own inside (by rwa [start]) scene.cursor
    rw [start] at copied
    apply copied.mono
    rintro ⟨⟩ d ⟨frame, copies, idle⟩
    exact ⟨frame, copies, fun still => idle (still.resolve_left (by simp))⟩
  · rw [if_pos rfl]
    refine ends_pure ⟨.refl sound, fun i => ?_, fun _ => rfl⟩
    rw [start]
    split
    · next taken => rw [Stack.isEmpty_iff.1 taken.2, Stack.isEmpty_iff.1 filled]
    · rfl

/-- **Drags.** A drag along different slots gives each of them its share of the cursor, in order, as far as the slot has
room and the cursor lasts (`Scene.Spread`). The share is one item when the right button is held, and an equal one for all
slots when the left one is. So with as many items as slots, all slots with room for their share get it, and with fewer
items, the first slots that have room for one get one each. -/
theorem drag_exact (standard : menu.rule = .standard) (own : scene.player.kind = .player)
    (filled : scene.cursor.isEmpty = false) (named : slots ≠ []) (once : slots.Nodup)
    (inside : ∀ slot ∈ slots, slot < scene.slotCount) :
    (∃ o after, menu.process scene (.drag .right slots) = .ok o ∧ o.drops = none ∧ o.apply.run scene = .ok ⟨⟩ after ∧
      scene.Spread after 1 slots) ∧
    ∃ o after, menu.process scene (.drag .left slots) = .ok o ∧ o.drops = none ∧ o.apply.run scene = .ok ⟨⟩ after ∧
      scene.Spread after (max 1 (scene.cursor.count / slots.length)) slots ∧
      (slots.length ≤ scene.cursor.count → ∀ i ∈ slots,
        scene.cursor.count / slots.length ≤ (scene.stackAt i).room scene.cursor →
          (after.stackAt i).count = (scene.stackAt i).count + scene.cursor.count / slots.length) ∧
      (scene.cursor.count < slots.length → ∀ i ∈ slots, (after.stackAt i).count = (scene.stackAt i).count +
        if i ∈ (scene.roomy slots).take scene.cursor.count then 1 else 0) := by
  have slotted : 0 < slots.length := List.length_pos_iff.2 named
  constructor
  · obtain ⟨⟨⟩, d, run, same, sound, drops, spread⟩ := spread_ends own filled named once inside 1
    rw [← standard] at run
    obtain ⟨answer, applied⟩ := process_of_run (a := .drag .right slots) run same sound
    exact ⟨d.outcome, d.view, answer, drops, applied, spread⟩
  · obtain ⟨⟨⟩, d, run, same, sound, drops, spread⟩ := leftDrag_ends own filled named once inside
    rw [← standard] at run
    obtain ⟨answer, applied⟩ := process_of_run (a := .drag .left slots) run same sound
    refine ⟨d.outcome, d.view, answer, drops, applied, spread, fun many i mem room => ?_, fun few i mem => ?_⟩
    · have some : 0 < scene.cursor.count / slots.length := Nat.div_pos many slotted
      rw [Nat.max_eq_right some] at spread
      exact spread.count_of_shares (Nat.mul_div_le _ _) mem room
    · rw [Nat.div_eq_of_lt few, Nat.max_eq_left (Nat.zero_le 1)] at spread
      exact spread.count_single once mem

/-- Of 13 eggs, an empty slot gets its share of 3 and a slot with 15 gets 1. Of 2 eggs, both get 1. -/
theorem drag_exact_hopper :
    let hopper := ((Inventory.empty .hopper).set 0 (.of .egg 15 none)).set 1 (.of .stone 3 none)
    let below := (Inventory.empty .player).set 9 (.of .egg 20 none)
    let scene (n : Int) : Scene := { player := below, container := some hopper, cursor := .of .egg n none }
    (∃ o after, container.process (scene 13) (.drag .left [0, 1, 5, 2]) = .ok o ∧
      o.apply.run (scene 13) = .ok ⟨⟩ after ∧ (scene 13).Spread after 3 [0, 1, 5, 2] ∧ (after.stackAt 2).count = 3) ∧
    ∃ o after, container.process (scene 2) (.drag .left [0, 1, 5, 2]) = .ok o ∧
      o.apply.run (scene 2) = .ok ⟨⟩ after ∧ (scene 2).Spread after 1 [0, 1, 5, 2] ∧ (after.stackAt 2).count = 1 := by
  intro hopper below scene
  have standard : container.rule = .standard := rfl
  have own (n : Int) : (scene n).player.kind = .player := rfl
  have inside (n : Int) : ∀ slot ∈ [0, 1, 5, 2], slot < (scene n).slotCount := (by decide : ∀ slot ∈ _, slot < 41)
  constructor
  · obtain ⟨-, o, after, answer, -, applied, spread, many, -⟩ :=
      drag_exact standard (own 13) (by decide) (by decide) (by decide) (inside 13)
    have share : max 1 ((scene 13).cursor.count / [0, 1, 5, 2].length) = 3 := by decide
    rw [share] at spread
    have count := (many (by decide) 2 (by decide) (by decide)).trans (by decide : _ = 3)
    exact ⟨o, after, answer, applied, spread, count⟩
  · obtain ⟨-, o, after, answer, -, applied, spread, -, few⟩ :=
      drag_exact standard (own 2) (by decide) (by decide) (by decide) (inside 2)
    have share : max 1 ((scene 2).cursor.count / [0, 1, 5, 2].length) = 1 := by decide
    rw [share] at spread
    have count := (few (by decide) 2 (by decide)).trans (by decide : _ = 1)
    exact ⟨o, after, answer, applied, spread, count⟩

end Menu

end InventoryClicks
