import InventoryClicks.Proofs.Standard

/-!
# Calls of standard players never fault

A call can stop at a fault in its decoder, in a hook, in processing, in counting items and in applying its outcome. With
hooks that always answer, a call of a standard player on a standard container does not (`Player.calls_end`): an outcome
that was processed names too few slots for the count to leave the range of amounts.
-/

namespace InventoryClicks

theorem NatMap.length_entries_le {α : Type} {m : NatMap α} {n : Nat} (inside : ∀ k a, m.get? k = some a → k < n) :
    m.entries.length ≤ n := by
  have below : m.keys ⊆ List.range n := by
    intro k mem
    obtain ⟨a, get⟩ := mem_keys_iff.1 mem
    exact List.mem_range.2 (inside k a get)
  have length := m.nodup_keys.length_le_of_subset below
  rwa [List.length_range, keys, List.length_map] at length

namespace Outcome

variable {o : Outcome} {scene : Scene}

/-- Every entry adds or takes away 127 items at most. -/
theorem gain_total (inv : Inventory) {entries : List (Nat × Stack)} {n b : Int}
    (inside : ∀ e ∈ entries, e.1 < inv.slotCount) (lo : -b ≤ n) (hi : n ≤ b) (room : b + 127 * entries.length < 0x80000000) :
    ∃ m, gain inv n entries = .ok m ∧ -(b + 127 * entries.length) ≤ m ∧ m ≤ b + 127 * entries.length := by
  induction entries generalizing n b with
  | nil => exact ⟨n, rfl, by simpa using lo, by simpa using hi⟩
  | cons e entries ih =>
    obtain ⟨old, here⟩ := Option.isSome_iff_exists.1 (Inventory.get?_isSome_iff.2 (inside e (by simp)))
    have old_le := old.count_le
    have new_le := e.2.count_le
    rw [List.length_cons] at room ⊢
    have first : Amount.add n (e.2.count - old.count) = .ok (n + (e.2.count - old.count)) :=
      Amount.add_eq_ok (by unfold Amount.InRange; omega)
    obtain ⟨m, rest, bounds⟩ := ih (n := n + (e.2.count - old.count)) (b := b + 127)
      (fun e' mem => inside e' (by simp [mem])) (by omega) (by omega) (by omega)
    refine ⟨m, ?_, by omega, by omega⟩
    have read : inv.read e.1 = .ok old := Inventory.read_eq_ok_iff.2 here
    unfold gain at rest ⊢
    simp only [List.foldlM_cons, bind, Except.bind, read, first] at rest ⊢
    exact rest

theorem delta_total (fits : o.Fits scene.toWindow) : ∃ n, o.delta scene = .ok n := by
  have changes := NatMap.length_entries_le fits.changes
  have playerChanges := NatMap.length_entries_le fits.playerChanges
  have clicked_le := scene.clicked.kind.slotCount_le
  have player_le := scene.player.kind.slotCount_le
  unfold Inventory.slotCount at changes playerChanges
  obtain ⟨n, clicked, lo, hi⟩ := gain_total scene.clicked (n := 0) (b := 0)
    (fun e mem => fits.changes e.1 e.2 (NatMap.mem_entries_iff.1 mem)) (by omega) (by omega) (by omega)
  obtain ⟨m, both, lo', hi'⟩ := gain_total scene.player
    (fun e mem => fits.playerChanges e.1 e.2 (NatMap.mem_entries_iff.1 mem)) lo hi (by omega)
  unfold delta
  simp only [bind, Except.bind, clicked, both]
  split
  · next s _ =>
    have new_le := s.count_le
    have old_le := scene.cursor.count_le
    exact ⟨_, Amount.add_eq_ok (by unfold Amount.InRange; omega)⟩
  · exact ⟨m, rfl⟩

theorem droppedCount_total (few : o.dropped.length ≤ 1) : ∃ n, o.droppedCount = .ok n := by
  unfold droppedCount
  match o.dropped, few with
  | [], _ => exact ⟨0, rfl⟩
  | [s], _ =>
    have count_le := s.count_le
    have sum : Amount.add 0 s.count = .ok (0 + s.count : Int) := Amount.add_eq_ok (by unfold Amount.InRange; omega)
    exact ⟨0 + s.count, by simp only [List.foldlM_cons, List.foldlM_nil, sum]; rfl⟩

theorem Settles.imbalance?_total (settles : o.Settles scene) : ∃ flaw?, o.imbalance? scene = .ok flaw? := by
  obtain ⟨delta, count⟩ := delta_total settles.fits
  obtain ⟨dropped, drops⟩ := droppedCount_total settles.drops
  unfold imbalance?
  simp only [bind, Except.bind, count, drops]
  exact ⟨_, rfl⟩

end Outcome

namespace Turn

variable {g : Setting} {sent : Action}

theorem outcomeFlaw?_total (setup : Setup) (who : Clicker) {scene : Scene} {processed : Outcome}
    (settles : processed.Settles scene) (outcome : Outcome) :
    ∃ flaw?, outcomeFlaw? setup who scene processed outcome = .ok flaw? := by
  unfold outcomeFlaw?
  split
  · exact ⟨_, rfl⟩
  · split
    · next kept =>
      rw [kept.1]
      exact settles.imbalance?_total
    · exact ⟨_, rfl⟩

theorem Setting.Standard.not_stops (standard : g.Standard) (total : g.setup.hooks.Total)
    (allowed : sent.Allowed g.scene.slotCount g.who.mode) (e : Fault) : ¬ g.Stops sent e := by
  intro stops
  cases stops with
  | before pre =>
    obtain ⟨v, answer⟩ := Hooks.preVerdict_total total g.context sent
    rw [answer] at pre
    cases pre
  | processing action admits process =>
    obtain ⟨o, answer, -⟩ := standard.process .items (admits.allowed allowed)
    rw [answer] at process
    cases process
  | after action processed admits process click =>
    obtain ⟨v, answer⟩ := Hooks.clickVerdict_total total g.context action processed
    rw [answer] at click
    cases click
  | checking action processed outcome makes check =>
    obtain ⟨o, answer, settles, -⟩ := standard.process .items (makes.admits.allowed allowed)
    rw [makes.process] at answer
    cases answer
    obtain ⟨flaw?, checked⟩ := outcomeFlaw?_total g.setup g.who settles outcome
    rw [checked] at check
    cases check

theorem Course.ends {decoded : Option Action} {answer : Except Fault (Option Outcome)} {scene : Scene} {r : Report}
    (course : Course g (.ok decoded) answer scene r) (standard : g.Standard) (total : g.setup.hooks.Total)
    (allowed : ∀ a, decoded = some a → a.Allowed g.scene.slotCount g.who.mode) : ∃ o?, answer = .ok o? := by
  cases course with
  | ignored r uncalled silent => exact ⟨none, rfl⟩
  | @acted sent _ _ _ ending =>
    cases ending with
    | stopped e r why quiet silent => exact absurd why (standard.not_stops total (allowed sent rfl) e)
    | refused r why quiet resync => exact ⟨none, rfl⟩
    | applied action processed outcome before after applies quiet silent effects calls => exact ⟨some outcome, rfl⟩
    | interrupted e action processed outcome r applies hook drops =>
      obtain ⟨hook, mem, cx, stop⟩ := hook
      obtain ⟨v, answer⟩ := total.post hook mem cx action outcome
      rw [answer] at stop
      cases stop

end Turn

namespace Player

variable {setup : Setup} {p : Player}

theorem Standard.click_ends (standard : p.Standard) (total : setup.hooks.Total) (id : Nat) {c : Option Container}
    (opened : ∀ k, c = some k → k.Standard) (packet : Packet) : ∃ o?, (p.click setup id c packet).answer = .ok o? := by
  obtain ⟨action?, decoded, allowed⟩ := decoded_allowed standard.kind (standard.reads opened) id packet
  have course := (p.click_called setup id c packet).course
  rw [decoded] at course
  exact course.ends (standard.setting opened setup id) total allowed

theorem Standard.creative_ends (standard : p.Standard) (total : setup.hooks.Total) (id : Nat) (slot : Int)
    (stack : Stack) : ∃ o?, (p.creative setup id slot stack).answer = .ok o? := by
  have course := (p.creative_called setup id slot stack).course
  exact course.ends (standard.setting (c := none) nofun setup id) total fun a h => decodeCreative_allowed standard.kind h

/-- **Safety.** With hooks that always answer, no call of a player stops at a fault, whatever the packet is and whatever
the decoders have been sent before. -/
theorem calls_end (setup : Setup) (total : setup.hooks.Total) (id : Nat) (p : Player) (own : p.inventory.kind = .player)
    (reached : (Decoder.ofInventory p.inventory).Reachable p.decoder) :
    (∀ packet, ∃ o?, (p.click setup id none packet).answer = .ok o?) ∧
      (∀ slot stack, ∃ o?, (p.creative setup id slot stack).answer = .ok o?) ∧
      ∀ c : Container, c.menu = .ofKind c.inventory.kind → (Decoder.ofInventory c.inventory).Reachable c.decoder →
        ∀ packet, ∃ o?, (p.click setup id (some c) packet).answer = .ok o? := by
  have standard : p.Standard := by
    refine ⟨own, ?_⟩
    rw [← own]
    exact reached.reads (Decoder.reads_ofInventory p.inventory)
  refine ⟨fun packet => ?_, fun slot stack => ?_, fun c menu shared packet => ?_⟩
  · exact standard.click_ends total id (c := none) nofun packet
  · exact standard.creative_ends total id slot stack
  · apply standard.click_ends total id
    rintro k ⟨⟩
    exact ⟨menu, shared.reads (Decoder.reads_ofInventory c.inventory)⟩

/-- A hook asks for a slot that a hopper does not have. -/
theorem calls_end_outside :
    let outside : Outcome := { changes := NatMap.empty.insert 99 .empty }
    let setup : Setup := { hooks := { click := [fun _ _ _ => .ok (.proceed outside)] } }
    let p := Player.ofInventory (.empty .player) (.single .stone) .survival
    let hopper := Container.ofInventory (.empty .hopper)
    let packet : Packet := { mode := .click, slot := 0, button := 0 }
    (∃ o?, (p.click setup 0 (some hopper) packet).answer = .ok o?) ∧
      (p.click setup 0 (some hopper) packet).report.notices = [.rejectedOutcome (.clickedOutside 99 .hopper)] := by
  intro outside setup p hopper packet
  have total : setup.hooks.Total := by
    refine ⟨by simp [setup], ?_, by simp [setup]⟩
    intro hook mem cx a o
    rw [List.mem_singleton.1 mem]
    exact ⟨_, rfl⟩
  have ended := (calls_end setup total 0 p rfl .start).2.2 hopper rfl .start packet
  exact ⟨ended, by decide⟩

end Player

end InventoryClicks
