import InventoryClicks.Click.Menu
import InventoryClicks.Proofs.Agree

/-!
# Menus over related drafts

A link is a relation between drafts that the single steps of a menu keep, as long as they name window slots with `seen`
and handle stacks with `good`. Then a whole action keeps it (`Menu.perform_agree`): on related drafts it comes to the
same end. The cases of all actions are gone through here once, for every such relation.
-/

namespace InventoryClicks

open StepM

variable {R : Draft → Draft → Prop} {seen : Nat → Prop} {good : Stack → Prop}

structure Draft.Link (R : Draft → Draft → Prop) (seen : Nat → Prop) (good : Stack → Prop) : Prop extends
    SlotStore.Link R seen good good where
  readPlayer : ∀ slot, Agree R good (DraftM.readPlayer slot)
  writePlayer : ∀ slot s, good s → Agree R (fun _ => True) (DraftM.writePlayer slot s)
  cursor : Agree R good DraftM.cursor
  setCursor : ∀ s, good s → Agree R (fun _ => True) (DraftM.setCursor s)
  drop : ∀ s, good s → Agree R (fun _ => True) (DraftM.drop s)

/-- What the rule makes of good stacks is good. -/
structure StackingRule.Keeps (rule : StackingRule) (good : Stack → Prop) : Prop where
  fill : ∀ limit, (Operator.fill limit).Keeps rule good good good
  full : ∀ s, good s → good (rule.withAmount s (rule.maxSize s))
  split : ∀ s amount part rest, good s → Menu.split rule s amount = .ok (some (part, rest)) → good part ∧ good rest

/-- The stacks that the action brings along. -/
def Action.given : Action → List Stack
  | creativeSet _ s | creativeDrop s => [s]
  | _ => []

namespace Menu

/-- On related drafts the menu routes stacks alike, along slots with `seen`. -/
def Reaches (menu : Menu) (R : Draft → Draft → Prop) (seen : Nat → Prop) : Action → Prop
  | .shift _ slot => ∀ d d' s, R d d' →
    menu.shiftSlots d' s slot = menu.shiftSlots d s slot ∧ ∀ i ∈ menu.shiftSlots d s slot, seen i
  | .collect slot => ∀ d d' s, R d d' →
    menu.collectSlots d' s slot = menu.collectSlots d s slot ∧ ∀ i ∈ menu.collectSlots d s slot, seen i
  | _ => True

variable {rule : StackingRule} (link : Draft.Link R seen good) (keeps : rule.Keeps good) {slot : Nat}

section

include link

theorem exchangeCursor_agree (named : seen slot) {cursor clicked : Stack} (a : good cursor) (b : good clicked) :
    Agree R (fun _ => True) (exchangeCursor slot cursor clicked) := by
  unfold exchangeCursor
  apply (link.write slot cursor named a).bind
  intro _ _
  exact link.setCursor clicked b

include keeps

theorem leftClick_agree (named : seen slot) : Agree R (fun _ => True) (leftClick rule slot) := by
  unfold leftClick
  apply link.cursor.bind
  intro cursor onCursor
  apply (link.read slot named).bind
  intro clicked inSlot
  apply (keeps.fill _).agree_bind inSlot onCursor
  rintro (_ | e) kept
  · simp only
    split
    · exact agree_pure trivial
    · exact exchangeCursor_agree link named onCursor inSlot
  · obtain ⟨written, left⟩ := kept e rfl
    exact exchangeCursor_agree link named written left

theorem rightClick_agree (named : seen slot) : Agree R (fun _ => True) (rightClick rule slot) := by
  unfold rightClick
  apply link.cursor.bind
  intro cursor onCursor
  apply (link.read slot named).bind
  intro clicked inSlot
  split
  · exact agree_pure trivial
  split
  · refine Agree.bind (P := fun _ => True) (agree_ofExcept fun _ _ => trivial) ?_
    intro more _
    apply (keeps.fill _).agree_bind onCursor inSlot
    rintro (_ | e) kept
    · exact agree_pure trivial
    · obtain ⟨taken, left⟩ := kept e rfl
      exact exchangeCursor_agree link named left taken
  split
  · apply (keeps.fill 1).agree_bind inSlot onCursor
    rintro (_ | e) kept
    · exact agree_pure trivial
    · obtain ⟨written, left⟩ := kept e rfl
      exact exchangeCursor_agree link named written left
  · exact exchangeCursor_agree link named onCursor inSlot

theorem middleClick_agree (named : seen slot) : Agree R (fun _ => True) (middleClick rule slot) := by
  unfold middleClick
  apply (link.read slot named).bind
  intro clicked inSlot
  apply link.cursor.bind
  intro cursor _
  split
  · exact link.setCursor _ (keeps.full clicked inSlot)
  · exact agree_pure trivial

theorem shiftClick_agree {menu : Menu} (rules : menu.rule = rule) {secondary : Bool}
    (reaches : menu.Reaches R seen (.shift secondary slot)) (named : seen slot) :
    Agree R (fun _ => True) (menu.shiftClick slot) := by
  unfold shiftClick
  rw [rules]
  apply (link.read slot named).bind
  intro clicked inSlot
  split
  · exact agree_pure trivial
  apply agree_get
  intro d d' related
  obtain ⟨same, routed⟩ := reaches d d' clicked related
  refine ⟨by rw [same], ?_⟩
  have others : ∀ i ∈ (menu.shiftSlots d clicked slot).filter (· != slot), seen i :=
    fun i mem => routed i (List.mem_filter.1 mem).1
  apply (Transfer.run_agree link.toLink (Transfer.add_keeps (keeps.fill _) others others) inSlot).bind
  intro rest left
  split
  · exact agree_pure trivial
  · exact link.write slot rest named left

omit keeps in
/-- What is left of the cursor after a transfer goes back to the cursor. -/
theorem transferCursor_agree {t : Transfer} (kept : t.Keeps rule seen good good good) {cursor : Stack}
    (onCursor : good cursor) :
    Agree R (fun _ => True) (do
      let rest ← t.run rule cursor
      unless rest = cursor do DraftM.setCursor rest) := by
  apply (Transfer.run_agree link.toLink kept onCursor).bind
  intro rest left
  split
  · exact agree_pure trivial
  · exact link.setCursor rest left

theorem collectClick_agree {menu : Menu} (rules : menu.rule = rule) (reaches : menu.Reaches R seen (.collect slot)) :
    Agree R (fun _ => True) (menu.collectClick slot) := by
  unfold collectClick
  rw [rules]
  apply link.cursor.bind
  intro cursor onCursor
  split
  · exact agree_pure trivial
  apply agree_get
  intro d d' related
  obtain ⟨same, routed⟩ := reaches d d' cursor related
  have collect := Operator.Keeps.collect (keeps.fill Amount.unlimited)
  refine ⟨by rw [same], transferCursor_agree link (t := .andThen (.sweep _ _) (.sweep _ _)) ?_ onCursor⟩
  exact ⟨⟨collect.onlyIf _, routed⟩, collect.onlyIf _, routed⟩

theorem spread_agree {slots : List Nat} (named : ∀ i ∈ slots, seen i) (perSlot : Int) :
    Agree R (fun _ => True) (spread rule perSlot slots) := by
  unfold spread
  apply link.cursor.bind
  intro cursor onCursor
  split
  · exact agree_pure trivial
  · exact transferCursor_agree link (t := .sweep _ _) ⟨keeps.fill perSlot, named⟩ onCursor

theorem leftDrag_agree {slots : List Nat} (named : ∀ i ∈ slots, seen i) :
    Agree R (fun _ => True) (leftDrag rule slots) := by
  unfold leftDrag
  split
  · exact agree_pure trivial
  split
  · apply link.cursor.bind
    intro cursor _
    refine Agree.bind (P := fun _ => True) (agree_ofExcept fun _ _ => trivial) ?_
    intro amount _
    exact spread_agree link keeps named _
  · exact spread_agree link keeps named 0

omit keeps in
theorem copyDrag_agree {slots : List Nat} (named : ∀ i ∈ slots, seen i) {cursor : Stack} (onCursor : good cursor) :
    Agree R (fun _ => True) (copyDrag cursor slots) := by
  induction slots with
  | nil => exact agree_pure trivial
  | cons slot slots ih =>
    have here : seen slot := named slot (by simp)
    have later : Agree R (fun _ => True) (copyDrag cursor slots) := ih fun i mem => named i (by simp [mem])
    unfold copyDrag
    apply (link.read slot here).bind
    intro old _
    split
    · apply (link.write slot cursor here onCursor).bind
      intro _ _
      exact later
    · exact later

omit link in
/-- A stack is split, and steps go on with the parts. -/
theorem agree_bind_split {s : Stack} (whole : good s) (amount : Int) {next : Option (Stack × Stack) → DraftM Unit}
    (h : ∀ r, (∀ part rest, r = some (part, rest) → good part ∧ good rest) → Agree R (fun _ => True) (next r)) :
    Agree R (fun _ => True) (StepM.ofExcept (split rule s amount) >>= next) := by
  refine Agree.bind (agree_ofExcept ?_) h
  intro r answer part rest found
  rw [found] at answer
  exact keeps.split s amount part rest whole answer

theorem dropFromCursor_agree (amount : Int) : Agree R (fun _ => True) (dropFromCursor rule amount) := by
  unfold dropFromCursor
  apply link.cursor.bind
  intro cursor onCursor
  apply agree_bind_split keeps onCursor
  rintro (_ | ⟨part, rest⟩) parts
  · exact agree_pure trivial
  · obtain ⟨thrown, left⟩ := parts part rest rfl
    apply (link.setCursor rest left).bind
    intro _ _
    exact link.drop part thrown

theorem dropFromSlot_agree (named : seen slot) (amount : Int) :
    Agree R (fun _ => True) (dropFromSlot rule slot amount) := by
  unfold dropFromSlot
  apply (link.read slot named).bind
  intro clicked inSlot
  apply agree_bind_split keeps inSlot
  rintro (_ | ⟨part, rest⟩) parts
  · exact agree_pure trivial
  · obtain ⟨thrown, left⟩ := parts part rest rfl
    apply (link.write slot rest named left).bind
    intro _ _
    exact link.drop part thrown

omit keeps in
theorem swapWithPlayer_agree (named : seen slot) (playerSlot : Nat) :
    Agree R (fun _ => True) (swapWithPlayer slot playerSlot) := by
  unfold swapWithPlayer
  apply (link.readPlayer playerSlot).bind
  intro own held
  apply (link.read slot named).bind
  intro clicked inSlot
  split
  · exact agree_pure trivial
  · apply (link.writePlayer playerSlot clicked inSlot).bind
    intro _ _
    exact link.write slot own named held

end

/-- **Links.** An action that names slots with `seen` and brings along good stacks comes to the same end on linked
drafts. -/
theorem perform_agree {menu : Menu} (link : Draft.Link R seen good) (keeps : menu.rule.Keeps good) {a : Action}
    (named : ∀ slot ∈ a.slots, seen slot) (reaches : menu.Reaches R seen a) (brought : ∀ s ∈ a.given, good s) :
    Agree R (fun _ => True) (menu.perform a) := by
  have clicked {slot : Nat} (mentioned : a.slots = [slot]) : seen slot := by
    apply named
    simp [mentioned]
  cases a with
  | click button slot =>
    cases button with
    | left => exact leftClick_agree link keeps (clicked rfl)
    | right => exact rightClick_agree link keeps (clicked rfl)
    | middle => exact middleClick_agree link keeps (clicked rfl)
  | shift secondary slot => exact shiftClick_agree link keeps rfl reaches (clicked rfl)
  | collect slot => exact collectClick_agree link keeps rfl reaches
  | drag button slots =>
    cases button with
    | left => exact leftDrag_agree link keeps named
    | right => exact spread_agree link keeps named 1
    | middle =>
      show Agree R (fun _ => True) (middleDrag slots)
      unfold middleDrag
      apply link.cursor.bind
      intro cursor onCursor
      split
      · exact agree_pure trivial
      · exact copyDrag_agree link named onCursor
  | dropCursor button =>
    cases button with
    | left =>
      show Agree R (fun _ => True) (do
        let all ← StepM.ofExcept (menu.rule.amount (← DraftM.cursor))
        dropFromCursor menu.rule all)
      apply link.cursor.bind
      intro cursor _
      refine Agree.bind (P := fun _ => True) (agree_ofExcept fun _ _ => trivial) ?_
      intro all _
      exact dropFromCursor_agree link keeps all
    | right => exact dropFromCursor_agree link keeps 1
    | middle => exact agree_pure trivial
  | dropSlot slot all =>
    cases all with
    | true =>
      show Agree R (fun _ => True) (do
        let all ← StepM.ofExcept (menu.rule.amount (← DraftM.read slot))
        dropFromSlot menu.rule slot all)
      apply (link.read slot (clicked rfl)).bind
      intro old _
      refine Agree.bind (P := fun _ => True) (agree_ofExcept fun _ _ => trivial) ?_
      intro all _
      exact dropFromSlot_agree link keeps (clicked rfl) all
    | false => exact dropFromSlot_agree link keeps (clicked rfl) 1
  | hotbarSwap hotbar slot => exact swapWithPlayer_agree link (clicked rfl) _
  | offhandSwap slot => exact swapWithPlayer_agree link (clicked rfl) _
  | creativeSet slot s => exact link.write slot s (clicked rfl) (brought s (by simp [Action.given]))
  | creativeDrop s =>
    show Agree R (fun _ => True) (unless s.isEmpty do DraftM.drop s)
    split
    · exact agree_pure trivial
    · exact link.drop s (brought s (by simp [Action.given]))

end Menu

end InventoryClicks
