import InventoryClicks.Proofs.Contents

/-!
# No illegal stacks

A stack is legal if its material lets so many items share a slot. Under the standard rule every operation on legal stacks
leaves legal ones, whichever of them it takes the limit from, so what a menu makes of a scene of legal stacks is legal
again, creative actions included (`Menu.process_legal`).
-/

namespace InventoryClicks

def Stack.Legal (s : Stack) : Prop := s.count ≤ s.material.maxStack

instance (s : Stack) : Decidable s.Legal := inferInstanceAs (Decidable (_ ≤ _))

def Inventory.Legal (inv : Inventory) : Prop := ∀ slot s, inv.get? slot = some s → s.Legal

def NatMap.Legal (changes : NatMap Stack) : Prop := ∀ slot s, changes.get? slot = some s → s.Legal

structure Scene.Legal (scene : Scene) : Prop where
  player : scene.player.Legal
  container : ∀ c, scene.container = some c → c.Legal
  cursor : scene.cursor.Legal

structure Outcome.Legal (o : Outcome) : Prop where
  changes : o.changes.Legal
  playerChanges : o.playerChanges.Legal
  cursor : ∀ s, o.cursor = some s → s.Legal
  dropped : ∀ s ∈ o.dropped, s.Legal

namespace Stack

theorem legal_empty : empty.Legal := Nat.zero_le _

theorem legal_of {material : Material} {count : Int} {data : Option (List UInt8)} (few : count ≤ material.maxStack) :
    (of material count data).Legal := by
  unfold of
  split
  · exact legal_empty
  · show min count.toNat 127 ≤ material.maxStack
    omega

theorem legal_withCount {s : Stack} {count : Int} (few : count ≤ s.material.maxStack) : (s.withCount count).Legal :=
  legal_of few

end Stack

theorem Scene.legal_iff {scene : Scene} : scene.Legal ↔ scene.Only Stack.Legal :=
  ⟨fun ⟨player, container, cursor⟩ => ⟨player, container, cursor⟩,
    fun ⟨player, container, cursor⟩ => ⟨player, container, cursor⟩⟩

theorem Outcome.legal_iff {o : Outcome} : o.Legal ↔ o.Only Stack.Legal :=
  ⟨fun ⟨changes, playerChanges, cursor, dropped⟩ => ⟨changes, playerChanges, cursor, dropped⟩,
    fun ⟨changes, playerChanges, cursor, dropped⟩ => ⟨changes, playerChanges, cursor, dropped⟩⟩

/-- What is put into a slot fits it, whatever was there; what is left over is no more than came in. -/
theorem Operator.legal_of_fill {limit : Int} {slot incoming : Stack} {e : Exchange}
    (filled : fill limit .standard slot incoming = .ok (some e)) :
    e.slot.Legal ∧ (incoming.Legal → e.incoming.Legal) := by
  rw [fill_standard] at filled
  injection filled with filled
  split at filled
  · cases filled
  split at filled
  · cases filled
  split at filled
  · cases filled
  · next moved =>
    cases filled
    unfold fillAmount at moved ⊢
    constructor
    · apply Stack.legal_withCount
      omega
    · intro legal
      apply Stack.legal_withCount
      unfold Stack.Legal at legal
      omega

theorem StackingRule.keeps_legal : standard.Keeps Stack.Legal where
  fill limit slot incoming e _ carried filled := by
    obtain ⟨written, left⟩ := Operator.legal_of_fill filled
    exact ⟨written, left carried⟩
  full s _ := Stack.legal_withCount (Int.le_refl _)
  split s amount part rest whole answer := by
    obtain ⟨available, counted, answer⟩ := bind_eq_ok.1 answer
    cases counted
    unfold Stack.Legal at whole
    simp only at answer
    split at answer
    · cases answer
    · next some_ =>
      obtain ⟨left, difference, answer⟩ := bind_eq_ok.1 answer
      cases answer
      unfold Amount.sub at difference
      split at difference
      · cases difference
        simp only [Bool.or_eq_true, decide_eq_true_eq, not_or] at some_
        constructor
        · apply Stack.legal_withCount
          omega
        · apply Stack.legal_withCount
          omega
      · cases difference

/-- What a menu with the standard rule makes of legal stacks is legal. -/
theorem Menu.process_legal {menu : Menu} (standard : menu.rule = .standard) {scene : Scene} (legal : scene.Legal)
    {a : Action} (given : ∀ s ∈ a.given, s.Legal) {o : Outcome} (processed : menu.process scene a = .ok o) : o.Legal := by
  have keeps : menu.rule.Keeps Stack.Legal := by
    rw [standard]
    exact StackingRule.keeps_legal
  exact Outcome.legal_iff.2 (process_only keeps (Scene.legal_iff.1 legal) given processed)

end InventoryClicks
