import InventoryClicks.Proofs.Decoder
import InventoryClicks.Proofs.Draft

/-!
# What menus do to a draft

Under a rule that counts items as they are, every allowed action comes to its end on a sound draft and leaves a sound
one (`Menu.perform_ends`). Unless the action is creative, the items on the draft and those it will throw are as many as
before, of every type that the rule keeps apart.
-/

namespace InventoryClicks

open StepM

namespace Draft

variable {d d' : Draft} {c : Cell} {old s : Stack} {w : Weight}

/-- What an action leaves of a draft: a sound draft of the same scene, with at most one more stack to be thrown. -/
structure Extends (d d' : Draft) : Prop where
  scene : d'.scene = d.scene
  sound : d'.Sound
  drops : d'.outcome.dropped.length ≤ d.outcome.dropped.length + 1

/-- Items that the draft leaves in the scene, and those that it will throw. -/
def balance (w : Weight) (d : Draft) : Int := d.view.weight w + (d.outcome.dropped.map (·.weight w)).sum

/-- Nothing comes from nowhere, and nothing vanishes. -/
structure Trades (w : Weight) (d d' : Draft) : Prop extends Extends d d' where
  balance : d'.balance w = d.balance w

theorem Extends.refl (sound : d.Sound) : d.Extends d := ⟨rfl, sound, Nat.le_succ _⟩

theorem Trades.refl (sound : d.Sound) : d.Trades w d := ⟨.refl sound, rfl⟩

theorem Frame.extends {touched : Cell → Prop} (frame : Frame touched d d') : d.Extends d' :=
  ⟨frame.scene, frame.sound, by rw [frame.dropped]; exact Nat.le_succ _⟩

theorem Extends.writeCell (more : d.Extends d') (shown : d'.view.at? c = some old) (s : Stack) :
    d.Extends (d'.writeCell s c) where
  scene := by rw [scene_writeCell, more.scene]
  sound := more.sound.writeCell (more.sound.has shown) s
  drops := by
    rw [dropped_writeCell]
    exact more.drops

theorem Extends.setCursor (more : d.Extends d') (s : Stack) : d.Extends (d'.setCursor s) :=
  ⟨more.scene, more.sound, more.drops⟩

/-- One more stack to be thrown, after steps that threw none. -/
theorem Extends.drop (more : d.Extends d') (same : d'.outcome.dropped = d.outcome.dropped) (s : Stack) :
    d.Extends (d'.drop s) where
  scene := more.scene
  sound := more.sound
  drops := by
    have drops : (d'.drop s).outcome.dropped = d'.outcome.dropped ++ [s] := rfl
    rw [drops, same, List.length_append]
    exact Nat.le_refl _

theorem Sound.balance_writeCell (sound : d.Sound) (shown : d.view.at? c = some old) (s : Stack) :
    (d.writeCell s c).balance w = d.balance w - old.weight w + s.weight w := by
  simp only [balance, sound.weight_writeCell shown, dropped_writeCell]
  omega

theorem balance_setCursor (d : Draft) (s : Stack) :
    (d.setCursor s).balance w = d.balance w - d.cursor.weight w + s.weight w := by
  have before : d.view.weight w =
      d.view.player.weight w + (d.view.container.map (·.weight w)).getD 0 + d.cursor.weight w := rfl
  have after : (d.setCursor s).view.weight w =
      d.view.player.weight w + (d.view.container.map (·.weight w)).getD 0 + s.weight w := rfl
  have drops : (d.setCursor s).outcome.dropped = d.outcome.dropped := rfl
  simp only [balance, before, after, drops]
  omega

theorem balance_drop (d : Draft) (s : Stack) : (d.drop s).balance w = d.balance w + s.weight w := by
  have view : (d.drop s).view = d.view := rfl
  have drops : (d.drop s).outcome.dropped = d.outcome.dropped ++ [s] := rfl
  simp only [balance, view, drops, List.map_append, List.sum_append, List.map_cons, List.map_nil, List.sum_cons,
    List.sum_nil]
  omega

end Draft

namespace DraftM

variable {d : Draft} {slot : Nat} {c : Cell} {s : Stack}

theorem run_cursor (d : Draft) : cursor.run d = .ok d.cursor d := rfl

theorem run_setCursor (s : Stack) (d : Draft) : (setCursor s).run d = .ok ⟨⟩ (d.setCursor s) := rfl

theorem run_drop (s : Stack) (d : Draft) : (DraftM.drop s).run d = .ok ⟨⟩ (d.drop s) := rfl

theorem run_read (sound : d.Sound) (shows : d.Shows slot c s) : (read slot).run d = .ok s d := by
  simp [read, shows.read sound]

theorem run_write (shows : d.Shows slot c s) (new : Stack) : (write slot new).run d = .ok ⟨⟩ (d.writeCell new c) := by
  simp [write, shows.write new]

theorem run_readPlayer (sound : d.Sound) (shown : d.view.at? (.player slot) = some s) :
    (readPlayer slot).run d = .ok s d := by
  have cell : d.readPlayer slot = .ok s := sound.readCell shown
  simp [readPlayer, cell]

theorem run_writePlayer (new : Stack) : (writePlayer slot new).run d = .ok ⟨⟩ (d.writeCell new (.player slot)) := rfl

end DraftM

namespace Menu

open Draft

variable {rule : StackingRule} {w : Weight} {d : Draft} {slot : Nat} {c : Cell} {clicked : Stack}

/-- Cursor and slot are given stacks that weigh together what the old ones did. -/
theorem exchangeCursor_trades (sound : d.Sound) (shows : d.Shows slot c clicked) {a b : Stack}
    (even : a.weight w + b.weight w = clicked.weight w + d.cursor.weight w) :
    Ends (exchangeCursor slot a b) d fun _ => d.Trades w := by
  have written := (Extends.refl sound).writeCell shows.view a
  unfold exchangeCursor
  apply ends_bind_of_run (DraftM.run_write shows a)
  refine ends_of_run (DraftM.run_setCursor b _) ⟨written.setCursor b, ?_⟩
  rw [balance_setCursor, sound.balance_writeCell shows.view, cursor_writeCell]
  omega

/-- A balanced operator, and what is done with its answer. -/
theorem ends_bind_of_balanced {op : Operator} (balanced : op.Balanced rule w) (a b : Stack)
    {next : Option Exchange → DraftM Unit} {P : Unit → Draft → Prop}
    (h : ∀ e?, (∀ e, e? = some e → e.Balances w a b) → Ends (next e?) d P) :
    Ends (StepM.ofExcept (op rule a b) >>= next) d P := by
  obtain ⟨e?, answer, balances⟩ := balanced a b
  rw [answer]
  exact ends_bind_of_run (run_ofExcept_ok e? d) (h e? balances)

/-- What is left of the cursor after a transfer goes back to the cursor. -/
theorem transferCursor_trades (sound : d.Sound) (own : d.scene.player.kind = .player) {t : Transfer}
    (balanced : t.Balanced rule w (Open d.scene fun _ => True)) :
    Ends (do
      let rest ← t.run rule d.cursor
      unless rest = d.cursor do DraftM.setCursor rest) d fun _ => d.Trades w := by
  apply Ends.bind (d.run_transfer sound own balanced d.cursor)
  rintro rest d' ⟨frame, weight⟩
  have drops := frame.dropped
  split
  · next same =>
    refine ends_pure ⟨frame.extends, ?_⟩
    rw [same] at weight
    simp only [balance, drops]
    omega
  · refine ends_of_run (DraftM.run_setCursor rest d') ⟨frame.extends.setCursor rest, ?_⟩
    rw [balance_setCursor, frame.view_cursor]
    simp only [balance, drops]
    omega

/-- What is split off are some of the items, and the others are left. -/
theorem split_parts (honest : rule.Honest) (s : Stack) (amount : Int) :
    ∃ r, split rule s amount = .ok r ∧ ∀ part rest, r = some (part, rest) →
      s.isEmpty = false ∧ ∃ n : Nat, 0 < n ∧ n ≤ s.count ∧ part = s.withCount n ∧ rest = s.withCount (s.count - n) := by
  have count_le := s.count_le
  unfold split
  simp only [honest.amount, honest.withAmount, bind, Except.bind, pure, Except.pure]
  generalize size : min amount (s.count : Int) = part
  rcases stop : s.isEmpty || decide (part ≤ 0) with _ | _
  · simp only [Bool.or_eq_false_iff, decide_eq_false_iff_not] at stop
    have difference : Amount.sub s.count part = .ok (s.count - part) :=
      Amount.sub_eq_ok (by unfold Amount.InRange; omega)
    obtain ⟨n, rfl⟩ := Int.eq_ofNat_of_zero_le (by omega : 0 ≤ part)
    refine ⟨some (s.withCount n, s.withCount (s.count - n)), by simp [difference], ?_⟩
    rintro _ _ ⟨⟩
    exact ⟨stop.1, n, by omega, by omega, rfl, rfl⟩
  · exact ⟨none, by simp, by simp⟩

/-- Part of a stack and its rest weigh together what the stack did. -/
theorem split_balanced (honest : rule.Honest) (s : Stack) (amount : Int) :
    ∃ r, split rule s amount = .ok r ∧
      ∀ part rest, r = some (part, rest) → part.weight w + rest.weight w = s.weight w := by
  have count_le := s.count_le
  obtain ⟨r, answer, parts⟩ := split_parts honest s amount
  refine ⟨r, answer, fun part rest some => ?_⟩
  obtain ⟨filled, n, pos, most, rfl, rfl⟩ := parts part rest some
  rw [Stack.weight_withCount filled (by omega) (by omega), Stack.weight_withCount filled (by omega) (by omega),
    Stack.weight, ← Int.add_mul]
  congr 1
  omega

/-- The slots that the menu moves stacks along are slots of the window. -/
structure Routes (menu : Menu) (scene : Scene) : Prop where
  shift : ∀ d s slot, d.scene = scene → ∀ i ∈ menu.shiftSlots d s slot, i < scene.slotCount
  collect : ∀ d s slot, d.scene = scene → ∀ i ∈ menu.collectSlots d s slot, i < scene.slotCount

section

variable (honest : rule.Honest) (respects : rule.Respects w) (sound : d.Sound) (own : d.scene.player.kind = .player)

include honest respects sound own

theorem leftClick_trades (inside : slot < d.scene.slotCount) : Ends (leftClick rule slot) d fun _ => d.Trades w := by
  obtain ⟨c, clicked, shows⟩ := sound.shows own inside
  unfold leftClick
  apply ends_bind_of_run (DraftM.run_cursor d)
  apply ends_bind_of_run (DraftM.run_read sound shows)
  apply ends_bind_of_balanced (Operator.fill_balanced honest respects _)
  rintro (_ | e) balances
  · simp only
    split
    · exact ends_pure (.refl sound)
    · exact exchangeCursor_trades sound shows (Int.add_comm _ _)
  · exact exchangeCursor_trades sound shows (balances e rfl)

theorem rightClick_trades (inside : slot < d.scene.slotCount) : Ends (rightClick rule slot) d fun _ => d.Trades w := by
  obtain ⟨c, clicked, shows⟩ := sound.shows own inside
  unfold rightClick
  apply ends_bind_of_run (DraftM.run_cursor d)
  apply ends_bind_of_run (DraftM.run_read sound shows)
  split
  · exact ends_pure (.refl sound)
  split
  · rw [honest.amount_succ]
    apply ends_bind_of_run (run_ofExcept_ok _ d)
    apply ends_bind_of_balanced (Operator.fill_balanced honest respects _)
    rintro (_ | e) balances
    · exact ends_pure (.refl sound)
    · refine exchangeCursor_trades sound shows ?_
      have even : e.slot.weight w + e.incoming.weight w = d.cursor.weight w + clicked.weight w := balances e rfl
      omega
  split
  · apply ends_bind_of_balanced (Operator.fill_balanced honest respects _)
    rintro (_ | e) balances
    · exact ends_pure (.refl sound)
    · exact exchangeCursor_trades sound shows (balances e rfl)
  · exact exchangeCursor_trades sound shows (Int.add_comm _ _)

theorem spread_trades {slots : List Nat} (inside : ∀ slot ∈ slots, slot < d.scene.slotCount) (perSlot : Int) :
    Ends (spread rule perSlot slots) d fun _ => d.Trades w := by
  unfold spread
  apply ends_bind_of_run (DraftM.run_cursor d)
  split
  · exact ends_pure (.refl sound)
  · exact transferCursor_trades sound own
      ⟨Operator.fill_balanced honest respects _, fun slot mem => ⟨inside slot mem, fun _ _ => trivial⟩⟩

theorem leftDrag_trades {slots : List Nat} (inside : ∀ slot ∈ slots, slot < d.scene.slotCount) :
    Ends (leftDrag rule slots) d fun _ => d.Trades w := by
  unfold leftDrag
  split
  · exact ends_pure (.refl sound)
  split
  · apply ends_bind_of_run (DraftM.run_cursor d)
    rw [honest.amount]
    apply ends_bind_of_run (run_ofExcept_ok _ d)
    exact spread_trades honest respects sound own inside _
  · exact spread_trades honest respects sound own inside 0

theorem collectClick_trades {menu : Menu} (rules : menu.rule = rule) (routes : menu.Routes d.scene) (slot : Nat) :
    Ends (menu.collectClick slot) d fun _ => d.Trades w := by
  unfold collectClick
  apply ends_bind_of_run (DraftM.run_cursor d)
  split
  · exact ends_pure (.refl sound)
  · apply ends_bind_of_run (run_get d)
    have balanced := Operator.collect_balanced honest respects Amount.unlimited
    have here : ∀ i ∈ menu.collectSlots d d.cursor slot, Open d.scene (fun _ => True) i :=
      fun i mem => ⟨routes.collect d d.cursor slot rfl i mem, fun _ _ => trivial⟩
    rw [rules]
    exact transferCursor_trades sound own
      ⟨⟨Operator.onlyIf_trades balanced (Condition.slotPartial_answers honest), here⟩,
        Operator.onlyIf_trades balanced (Condition.slotFull_answers honest), here⟩

theorem shiftClick_trades {menu : Menu} (rules : menu.rule = rule) (routes : menu.Routes d.scene)
    (inside : slot < d.scene.slotCount) : Ends (menu.shiftClick slot) d fun _ => d.Trades w := by
  obtain ⟨c, clicked, shows⟩ := sound.shows own inside
  unfold shiftClick
  apply ends_bind_of_run (DraftM.run_read sound shows)
  split
  · exact ends_pure (.refl sound)
  apply ends_bind_of_run (run_get d)
  rw [rules]
  -- the clicked slot is left out, so its cell is not touched before the rest is written back
  have others : ∀ i ∈ (menu.shiftSlots d clicked slot).filter (· != slot), Open d.scene (· ≠ c) i := by
    intro i mem
    obtain ⟨routed, differ⟩ := List.mem_filter.1 mem
    refine ⟨routes.shift d clicked slot rfl i routed, ?_⟩
    rintro k located rfl
    have same := Window.locate_inj located shows.locate
    simp [same] at differ
  apply Ends.bind (d.run_transfer sound own (Transfer.add_balanced honest respects others others) clicked)
  rintro rest d' ⟨frame, weight⟩
  have drops := frame.dropped
  have shows' : d'.Shows slot c clicked :=
    ⟨by rw [frame.scene]; exact shows.locate, by rw [frame.at?_view sound (by simp)]; exact shows.view⟩
  split
  · next same =>
    refine ends_pure ⟨frame.extends, ?_⟩
    rw [same] at weight
    simp only [balance, drops]
    omega
  · refine ends_of_run (DraftM.run_write shows' rest) ⟨frame.extends.writeCell shows'.view rest, ?_⟩
    rw [frame.sound.balance_writeCell shows'.view]
    simp only [balance, drops]
    omega

end

theorem dropFromCursor_trades (honest : rule.Honest) (sound : d.Sound) (amount : Int) :
    Ends (dropFromCursor rule amount) d fun _ => d.Trades w := by
  obtain ⟨r, answer, balanced⟩ := split_balanced (w := w) honest d.cursor amount
  unfold dropFromCursor
  apply ends_bind_of_run (DraftM.run_cursor d)
  rw [answer]
  apply ends_bind_of_run (run_ofExcept_ok r d)
  rcases r with _ | ⟨part, rest⟩
  · exact ends_pure (.refl sound)
  · have even := balanced part rest rfl
    apply ends_bind_of_run (DraftM.run_setCursor rest d)
    refine ends_of_run (DraftM.run_drop part _) ⟨((Extends.refl sound).setCursor rest).drop rfl part, ?_⟩
    rw [balance_drop, balance_setCursor]
    omega

theorem dropFromSlot_trades (honest : rule.Honest) (sound : d.Sound) (own : d.scene.player.kind = .player)
    (inside : slot < d.scene.slotCount) (amount : Int) : Ends (dropFromSlot rule slot amount) d fun _ => d.Trades w := by
  obtain ⟨c, clicked, shows⟩ := sound.shows own inside
  obtain ⟨r, answer, balanced⟩ := split_balanced (w := w) honest clicked amount
  unfold dropFromSlot
  apply ends_bind_of_run (DraftM.run_read sound shows)
  rw [answer]
  apply ends_bind_of_run (run_ofExcept_ok r d)
  rcases r with _ | ⟨part, rest⟩
  · exact ends_pure (.refl sound)
  · have even := balanced part rest rfl
    apply ends_bind_of_run (DraftM.run_write shows rest)
    have written := (Extends.refl sound).writeCell shows.view rest
    refine ends_of_run (DraftM.run_drop part _) ⟨written.drop (dropped_writeCell d rest c) part, ?_⟩
    rw [balance_drop, sound.balance_writeCell shows.view]
    omega

theorem swapWithPlayer_trades (sound : d.Sound) (own : d.scene.player.kind = .player) (inside : slot < d.scene.slotCount)
    {playerSlot : Nat} (mine : playerSlot < 46) : Ends (swapWithPlayer slot playerSlot) d fun _ => d.Trades w := by
  obtain ⟨c, clicked, shows⟩ := sound.shows own inside
  have has : d.scene.Has (.player playerSlot) := by
    apply Inventory.get?_isSome_iff.2
    rw [Inventory.slotCount, own]
    exact mine
  obtain ⟨held, shown⟩ : ∃ s, d.view.at? (.player playerSlot) = some s := by
    obtain ⟨s, here⟩ := Option.isSome_iff_exists.1 has
    exact ⟨_, by rw [sound.at?_view, here, Option.map_some]⟩
  unfold swapWithPlayer
  apply ends_bind_of_run (DraftM.run_readPlayer sound shown)
  apply ends_bind_of_run (DraftM.run_read sound shows)
  split
  · exact ends_pure (.refl sound)
  · next differ =>
    have apart : c ≠ .player playerSlot := by
      rintro rfl
      have same := shows.view
      rw [shown] at same
      cases same
      exact differ rfl
    have first := (Extends.refl sound).writeCell shown clicked
    have shows' : (d.writeCell clicked (.player playerSlot)).Shows slot c clicked :=
      ⟨by rw [scene_writeCell]; exact shows.locate,
        by rw [sound.at?_view_writeCell has, if_neg apart]; exact shows.view⟩
    apply ends_bind_of_run (DraftM.run_writePlayer clicked)
    refine ends_of_run (DraftM.run_write shows' held) ⟨first.writeCell shows'.view held, ?_⟩
    rw [first.sound.balance_writeCell shows'.view, sound.balance_writeCell shown]
    omega

theorem middleClick_extends (sound : d.Sound) (own : d.scene.player.kind = .player) (inside : slot < d.scene.slotCount) :
    Ends (middleClick rule slot) d fun _ => d.Extends := by
  obtain ⟨c, clicked, shows⟩ := sound.shows own inside
  unfold middleClick
  apply ends_bind_of_run (DraftM.run_read sound shows)
  apply ends_bind_of_run (DraftM.run_cursor d)
  split
  · exact ends_of_run (DraftM.run_setCursor _ d) ((Extends.refl sound).setCursor _)
  · exact ends_pure (.refl sound)

theorem copyDrag_frame (sound : d.Sound) (own : d.scene.player.kind = .player) {slots : List Nat}
    (inside : ∀ slot ∈ slots, slot < d.scene.slotCount) (s : Stack) :
    Ends (copyDrag s slots) d fun _ d' => Frame (fun _ => True) d d' := by
  -- the frame is from the draft that the drag began with, and holds at each slot
  suffices along : ∀ d', Frame (fun _ => True) d d' → Ends (copyDrag s slots) d' fun _ d'' => Frame (fun _ => True) d d'' from
    along d (.refl sound)
  induction slots with
  | nil => exact fun d' frame => ends_pure frame
  | cons slot slots ih =>
    intro d' frame
    have later := ih fun i mem => inside i (by simp [mem])
    have here : slot < d'.scene.slotCount := by
      rw [frame.scene]
      exact inside slot (by simp)
    obtain ⟨c, old, shows⟩ := frame.sound.shows (by rw [frame.scene, own]) here
    unfold copyDrag
    apply ends_bind_of_run (DraftM.run_read frame.sound shows)
    split
    · apply ends_bind_of_run (DraftM.run_write shows s)
      exact later _ (frame.writeCell (frame.sound.has shows.view) trivial s)
    · apply ends_bind_of_run (run_pure _ _)
      exact later d' frame

/-- **Menus.** An allowed action comes to its end on a draft. Unless it is creative, it only moves items. -/
theorem perform_ends {menu : Menu} {mode : GameMode} {a : Action} (honest : menu.rule.Honest)
    (respects : menu.rule.Respects w) (routes : menu.Routes d.scene) (sound : d.Sound)
    (own : d.scene.player.kind = .player) (allowed : a.Allowed d.scene.slotCount mode) :
    Ends (menu.perform a) d fun _ d' => d.Extends d' ∧ (a.isCreative = false → d.Trades w d') := by
  have trades {m : DraftM Unit} (h : Ends m d fun _ => d.Trades w) :
      Ends m d fun _ d' => d.Extends d' ∧ (a.isCreative = false → d.Trades w d') :=
    h.mono fun _ _ t => ⟨t.toExtends, fun _ => t⟩
  have extends_ {m : DraftM Unit} (creative : a.isCreative = true) (h : Ends m d fun _ => d.Extends) :
      Ends m d fun _ d' => d.Extends d' ∧ (a.isCreative = false → d.Trades w d') :=
    h.mono fun _ _ t => ⟨t, fun not => by rw [creative] at not; cases not⟩
  have clicked {slot : Nat} (named : a.slots = [slot]) : slot < d.scene.slotCount := by
    apply allowed.slots
    simp [named]
  cases a with
  | click button slot =>
    cases button with
    | left => exact trades (leftClick_trades honest respects sound own (clicked rfl))
    | right => exact trades (rightClick_trades honest respects sound own (clicked rfl))
    | middle => exact extends_ rfl (middleClick_extends sound own (clicked rfl))
  | shift secondary slot => exact trades (shiftClick_trades honest respects sound own rfl routes (clicked rfl))
  | collect slot => exact trades (collectClick_trades honest respects sound own rfl routes slot)
  | drag button slots =>
    cases button with
    | left => exact trades (leftDrag_trades honest respects sound own allowed.slots)
    | right => exact trades (spread_trades honest respects sound own allowed.slots 1)
    | middle =>
      apply extends_ rfl
      show Ends (middleDrag slots) d fun _ => d.Extends
      unfold middleDrag
      apply ends_bind_of_run (DraftM.run_cursor d)
      split
      · exact ends_pure (.refl sound)
      · exact (copyDrag_frame sound own allowed.slots d.cursor).mono fun _ _ frame => frame.extends
  | dropCursor button =>
    cases button with
    | left =>
      apply trades
      show Ends (do
        let all ← StepM.ofExcept (menu.rule.amount (← DraftM.cursor))
        dropFromCursor menu.rule all) d fun _ => d.Trades w
      apply ends_bind_of_run (DraftM.run_cursor d)
      rw [honest.amount]
      apply ends_bind_of_run (run_ofExcept_ok _ d)
      exact dropFromCursor_trades honest sound _
    | right => exact trades (dropFromCursor_trades honest sound 1)
    | middle => exact trades (ends_pure (.refl sound))
  | dropSlot slot all =>
    cases all with
    | true =>
      apply trades
      show Ends (do
        let all ← StepM.ofExcept (menu.rule.amount (← DraftM.read slot))
        dropFromSlot menu.rule slot all) d fun _ => d.Trades w
      obtain ⟨c, s, shows⟩ := sound.shows own (clicked rfl)
      apply ends_bind_of_run (DraftM.run_read sound shows)
      rw [honest.amount]
      apply ends_bind_of_run (run_ofExcept_ok _ d)
      exact dropFromSlot_trades honest sound own (clicked rfl) _
    | false => exact trades (dropFromSlot_trades honest sound own (clicked rfl) 1)
  | hotbarSwap hotbar slot =>
    have index := Action.lt_of_badHotbar?_eq_none allowed.hotbar
    refine trades (swapWithPlayer_trades sound own (clicked rfl) ?_)
    unfold PlayerLayout.hotbarSlot PlayerLayout.hotbarStart
    omega
  | offhandSwap slot => exact trades (swapWithPlayer_trades sound own (clicked rfl) (by decide))
  | creativeSet slot s =>
    obtain ⟨c, old, shows⟩ := sound.shows own (clicked rfl)
    exact extends_ rfl (ends_of_run (DraftM.run_write shows s) ((Extends.refl sound).writeCell shows.view s))
  | creativeDrop s =>
    apply extends_ rfl
    show Ends (unless s.isEmpty do DraftM.drop s) d fun _ => d.Extends
    split
    · exact ends_pure (.refl sound)
    · exact ends_of_run (DraftM.run_drop s d) ((Extends.refl sound).drop rfl s)

end Menu

end InventoryClicks
