import InventoryClicks.Proofs.Acceptance
import InventoryClicks.Proofs.Draining
import InventoryClicks.Proofs.Independence
import InventoryClicks.Proofs.WindowSlots

/-!
# Contention for a slot

Any number of players put items of one type into the same slot of a container, one at a time by right clicks and in whatever
order. A click moves one item as long as there is room (`Session.step_gives`), so the session afterwards is known in closed
form, `Session.given`, and no item is lost (`Session.contended`). If there is room for all of them, the order does not matter.
-/

namespace InventoryClicks

open StepM

namespace Stack

variable {s item : Stack}

/-- Stacks of one type differ in their count only. -/
theorem Holds.withCount_eq (holds : s.Holds item) (n : Int) : s.withCount n = item.withCount n := by
  rw [withCount, holds.2.1, holds.2.2, withCount]

section

variable (holds : s.Holds item) {m : Nat}

include holds

theorem Holds.takes (few : m ≤ 127) : (item.withCount m).isEmpty = true ∨ (item.withCount m).Holds s := by
  have filled := holds.item_ne_empty
  rcases Nat.eq_zero_or_pos m with rfl | pos
  · exact .inl (by simp)
  · obtain ⟨material, data⟩ := type_withCount filled pos
    refine .inr ⟨isEmpty_eq_false_iff.2 ?_, material.trans holds.2.1.symm, data.trans holds.2.2.symm⟩
    rw [count_withCount filled]
    omega

theorem Holds.room_withCount (few : m ≤ 127) : (item.withCount m).room s = item.material.maxStack - m := by
  have count : (item.withCount m).count = min m 127 := count_withCount holds.item_ne_empty m
  rw [room, if_pos ⟨holds.1, holds.takes few⟩, count, holds.2.1, Nat.min_eq_left few]

theorem Holds.grown_withCount (few : m ≤ 127) : (item.withCount m).grown s 1 = item.withCount ((m + 1 : Nat) : Int) := by
  rcases holds.takes few with empty | like
  · have none : m = 0 := by
      have count := count_withCount holds.item_ne_empty m
      rw [isEmpty_iff.1 empty, count_empty] at count
      omega
    rw [grown_of_isEmpty empty, holds.withCount_eq, none]
  · rw [like.grown_eq, holds.withCount_eq, count_withCount holds.item_ne_empty, Nat.min_eq_left few]

end

end Stack

/-- One item goes from the cursor to a slot of the container, if there is room for it. -/
def Outcome.giving (slot : Nat) (old cursor : Stack) : Outcome :=
  if old.room cursor = 0 then {}
  else { changes := (∅ : NatMap Stack).insert slot (old.grown cursor 1), cursor := some (cursor.shrunk 1) }

/-- A right click on a window slot. -/
def Packet.rightClick (slot : Nat) : Packet := { mode := .click, slot, button := 1 }

/-- A right click of a cursor on a container slot that is empty or holds items like its own. -/
theorem Menu.process_giving {menu : Menu} {scene : Scene} {slot : Nat} {old : Stack} (standard : menu.rule = .standard)
    (located : scene.locate slot = .ok (.container slot)) (live : scene.at? (.container slot) = some old)
    (filled : scene.cursor.isEmpty = false) (takes : old.isEmpty ∨ old.Holds scene.cursor) :
    menu.process scene (.click .right slot) = .ok (.giving slot old scene.cursor) := by
  have sound := Draft.sound_start scene
  have cursor : ({ scene } : Draft).cursor = scene.cursor := rfl
  have shows : ({ scene } : Draft).Shows slot (.container slot) old := ⟨located, by rw [Draft.view_start]; exact live⟩
  have shares : StackingRule.standard.canShareSlot old scene.cursor = true := by
    rcases takes with empty | like
    · exact StackingRule.canShareSlot_standard_iff.2 (.inl empty)
    · exact StackingRule.canShareSlot_standard_iff.2 (.inr (.inr (StackingRule.canStack_standard_iff.2 like.2)))
  have pos := Stack.isEmpty_eq_false_iff.1 filled
  have fill := Operator.fill_limited 1 old scene.cursor
  have ends : Ends (rightClick .standard slot) { scene } fun _ d =>
      d = { scene, outcome := .giving slot old scene.cursor } := by
    unfold rightClick Outcome.giving
    apply ends_bind_of_run (DraftM.run_cursor _)
    apply ends_bind_of_run (DraftM.run_read sound shows)
    rw [cursor, filled, Bool.false_and, if_neg nofun, if_neg nofun, if_pos shares]
    rw [Nat.cast_one] at fill
    rw [fill]
    apply ends_bind_of_run (run_ofExcept_ok _ _)
    by_cases full : old.room scene.cursor = 0
    · rw [if_pos full, if_pos (by omega)]
      exact ends_pure rfl
    · have one : min scene.cursor.count (min 1 (old.room scene.cursor)) = 1 := by omega
      rw [if_neg full, one, if_neg nofun]
      apply ends_bind_of_run (DraftM.run_write shows _)
      exact ends_of_run (DraftM.run_setCursor _ _) rfl
  obtain ⟨⟨⟩, d, run, rfl⟩ := ends
  have performed : (menu.perform (.click .right slot)).run { scene } = _ := standard ▸ run
  rw [process, performed]

namespace Player

variable {setup : Setup} {p : Player} {c : Container} {i slot : Nat} {old : Stack}
  (own : p.inventory.kind = .player) (standard : c.Standard) (shown : c.inventory.get? slot = some old)
  (filled : p.cursor.isEmpty = false) (takes : old.isEmpty ∨ old.Holds p.cursor)

include standard shown

theorem decode_rightClick : (Decoder.decode i p.mode (.rightClick slot)).outcome c.decoder =
    (.ok (some (.click .right slot)), c.decoder) := by
  have inside : slot < c.inventory.kind.slotCount := Inventory.get?_isSome_iff.1 (Option.isSome_of_mem shown)
  have small : slot < Decoder.sizeFor c.inventory.kind := by
    unfold Decoder.sizeFor
    split <;> omega
  have within : ¬ ((Packet.rightClick slot).mode = .click ∧ (Packet.rightClick slot).slot = Packet.outside) := by
    simp only [Packet.rightClick, Packet.outside]
    omega
  have named : c.decoder.slot? slot = .ok (some slot) := by
    rw [Decoder.slot?, if_neg (by omega), standard.decoder.window]
    simp [bind, Except.bind, pure, Except.pure, small]
  have named' : c.decoder.slot? (Packet.rightClick slot).slot = .ok (some slot) := named
  rw [Decoder.outcome_decode_slot c.decoder i p.mode (by simp [Packet.rightClick]) within, named']
  rfl

include own filled takes

/-- A right click is processed to an outcome that passes the check, and applied. -/
theorem ruling_giving : p.ruling setup i (some c) (.rightClick slot) =
    .applied (.click .right slot) (.giving slot old p.cursor) := by
  have inside : slot < c.inventory.kind.slotCount := Inventory.get?_isSome_iff.1 (Option.isSome_of_mem shown)
  have decoded : p.decoded i (some c) (.rightClick slot) = .ok (some (.click .right slot)) :=
    congrArg Prod.fst (decode_rightClick standard shown)
  have rule : c.menu.rule = .standard := by rw [standard.menu, Menu.rule_ofKind]
  have setting : (p.setting setup i (some c)).Standard := by
    refine ⟨own, rule, ?_⟩
    have menu : (p.setting setup i (some c)).menu = .ofKind c.inventory.kind := standard.menu
    rw [menu]
    exact Menu.routes_ofKind rfl
  have allowed : (Action.click .right slot).Allowed (p.scene (some c.inventory)).slotCount p.mode := by
    refine ⟨nofun, rfl, fun i mem => ?_⟩
    rw [List.mem_singleton.1 mem, Menu.slotCount_open rfl, Inventory.slotCount]
    omega
  have located : (p.scene (some c.inventory)).locate slot = .ok (.container slot) := by
    simp only [Window.locate, Player.scene, Inventory.slotCount]
    exact if_pos inside
  have processed : c.menu.process (p.scene (some c.inventory)) (.click .right slot) = .ok (.giving slot old p.cursor) :=
    Menu.process_giving rule located shown filled takes
  obtain ⟨o, made, settles, gains⟩ := setting.process .items allowed
  cases processed.symm.trans made
  have passes : Turn.outcomeFlaw? setup (p.clicker i) (p.scene (some c.inventory)) (.giving slot old p.cursor)
      (.giving slot old p.cursor) = .ok none := by
    have flawless := Outcome.flaw?_eq_none_iff.2 settles.fits
    have balanced := settles.imbalance?_eq_none (gains rfl)
    unfold Turn.outcomeFlaw?
    have here : (Player.setting setup i p (some c)).scene = p.scene (some c.inventory) := rfl
    rw [here] at flawless balanced
    simp only [flawless, balanced]
    split <;> rfl
  have judged : p.ruling setup i (some c) (.rightClick slot) =
      Turn.judge setup c.menu (p.clicker i) (p.scene (some c.inventory)) (.ok (some (.click .right slot))) := by
    rw [ruling, decoded]
    rfl
  rw [judged, Turn.judge, processed]
  simp only [passes]

end Player

attribute [ext] Session

namespace Session

variable {s : Session} {k slot i : Nat} {stack : Stack} {t : Stack} {c : Container}

/-- The players have given away items of their cursors, one for each time that the list names them, and a slot of the
container holds the stack. -/
def given (s : Session) (k slot : Nat) (stack : Stack) (givers : List Nat) : Session where
  players := s.players.mapIdx fun i p => { p with cursor := p.cursor.shrunk (givers.count i) }
  containers := s.containers.modify k fun c => { c with inventory := c.inventory.set slot stack }

theorem players_given (s : Session) (givers : List Nat) :
    (s.given k slot stack givers).players[i]? =
      s.players[i]?.map fun p => { p with cursor := p.cursor.shrunk (givers.count i) } := List.getElem?_mapIdx ..

theorem containers_given (there : s.containers[k]? = some c) (givers : List Nat) :
    (s.given k slot stack givers).containers =
      s.containers.set k { c with inventory := c.inventory.set slot stack } := by
  unfold given
  rw [List.modify_eq_set_getElem?, there]
  rfl

theorem given_given (s : Session) (a b : Stack) (xs ys : List Nat) :
    (s.given k slot a xs).given k slot b ys = s.given k slot b (xs ++ ys) := by
  apply Session.ext
  · refine List.ext_getElem? fun i => ?_
    simp only [players_given, Option.map_map, List.count_append]
    congr 1
    funext p
    simp only [Function.comp_apply, Stack.shrunk_shrunk]
  · have again (inv : Inventory) : (inv.set slot a).set slot b = inv.set slot b := by
      refine Inventory.ext_get? rfl fun j => ?_
      simp only [Inventory.get?_set, Inventory.slotCount_set]
      split <;> rfl
    simp only [given, List.modify_modify_eq]
    congr 1
    funext c
    simp only [Function.comp_apply, again]

theorem given_nil (there : s.containers[k]? = some c) (shown : c.inventory.get? slot = some stack) :
    s.given k slot stack [] = s := by
  apply Session.ext
  · refine List.ext_getElem? fun i => ?_
    simp [players_given]
  · have same : c.inventory.set slot stack = c.inventory := by
      refine Inventory.ext_get? rfl fun j => ?_
      rw [Inventory.get?_set]
      split
      · next here => rw [here.1, shown]
      · rfl
    obtain ⟨room, rfl⟩ := List.getElem?_eq_some_iff.1 there
    rw [containers_given there, same]
    exact List.set_getElem_self room

theorem players_given_one {p : Player} (here : s.players[i]? = some p) :
    (s.given k slot stack [i]).players = s.players.set i { p with cursor := p.cursor.shrunk 1 } := by
  refine List.ext_getElem? fun j => ?_
  have room := (List.getElem?_eq_some_iff.1 here).1
  rw [players_given, List.getElem?_set]
  by_cases same : i = j
  · rw [← same, here, if_pos rfl, if_pos room, Option.map_some, List.count_singleton_self]
  · simp [same]

/-- The players have items of the type of `t` to give away for each time that the list names them. -/
def Supplies (s : Session) (t : Stack) (givers : List Nat) : Prop :=
  ∀ i ∈ givers, ∃ p, s.players[i]? = some p ∧ p.inventory.kind = .player ∧ p.cursor.Holds t ∧
    givers.count i ≤ p.cursor.count

theorem Supplies.of_sublist {xs ys : List Nat} (supplies : s.Supplies t ys) (fewer : xs.Sublist ys) : s.Supplies t xs := by
  intro i mem
  obtain ⟨p, here, own, holds, enough⟩ := supplies i (fewer.subset mem)
  exact ⟨p, here, own, holds, (fewer.count_le i).trans enough⟩

theorem Supplies.given {givers : List Nat} (supplies : s.Supplies t (i :: givers)) :
    (s.given k slot stack [i]).Supplies t givers := by
  intro j mem
  obtain ⟨p, here, own, holds, enough⟩ := supplies j (.tail _ mem)
  have named : 0 < givers.count j := List.count_pos_iff.2 mem
  have split : (i :: givers).count j = [i].count j + givers.count j := by
    rw [← List.count_append]
    rfl
  refine ⟨{ p with cursor := p.cursor.shrunk ([i].count j) }, ?_, own, holds.shrunk (by omega), ?_⟩
  · rw [players_given, here]
    rfl
  · rw [Stack.count_shrunk]
    omega

/-- Items on the cursors of all players. -/
def carried (s : Session) : Int := (s.players.map fun p => (p.cursor.count : Int)).sum

/-- The cursors lose as many items as are given away. -/
theorem Supplies.carried_given (k slot : Nat) (stack : Stack) {givers : List Nat} (supplies : s.Supplies t givers) :
    (s.given k slot stack givers).carried + givers.length = s.carried := by
  -- The first gives one item, and the others give theirs afterwards.
  induction givers generalizing s with
  | nil =>
    have players : (s.given k slot stack []).players = s.players := by
      refine List.ext_getElem? fun i => ?_
      simp [players_given]
    rw [carried, players]
    exact Int.add_zero _
  | cons i givers ih =>
    obtain ⟨p, here, -, -, enough⟩ := supplies i (.head _)
    have others := ih (s := s.given k slot stack [i]) supplies.given
    have named : 0 < (i :: givers).count i := List.count_pos_iff.2 (.head _)
    have first : (s.given k slot stack [i]).carried = s.carried - 1 := by
      have paid := sum_map_set (fun p : Player => (p.cursor.count : Int)) here (a := { p with cursor := p.cursor.shrunk 1 })
      rw [carried, players_given_one here, paid, carried, Stack.count_shrunk]
      omega
    have split : s.given k slot stack (i :: givers) = (s.given k slot stack [i]).given k slot stack givers :=
      (given_given s stack stack [i] givers).symm
    rw [split, List.length_cons]
    omega

section

variable {setup : Setup} (unhooked : setup.hooks = {}) (there : s.containers[k]? = some c) (standard : c.Standard)

include unhooked there standard

/-- **One click.** -/
theorem step_gives {p : Player} {old : Stack} (here : s.players[i]? = some p) (own : p.inventory.kind = .player)
    (shown : c.inventory.get? slot = some old) (filled : p.cursor.isEmpty = false)
    (takes : old.isEmpty ∨ old.Holds p.cursor) :
    ∃ reply, reply.answer = .ok (some (.giving slot old p.cursor)) ∧
      s.step setup (.click i (some k) (.rightClick slot)) =
        (reply, if old.room p.cursor = 0 then s else s.given k slot (old.grown p.cursor 1) [i]) := by
  let o := Outcome.giving slot old p.cursor
  refine ⟨{ answer := .ok (some o), report := (Turn.Ruling.applied (.click .right slot) o).report i }, rfl, ?_⟩
  rw [step_shared unhooked here there]
  have ruled : p.ruling setup i (some c) (.rightClick slot) = .applied (.click .right slot) o :=
    Player.ruling_giving own standard shown filled takes
  have kept : p.decoderAfter i (some c) (.rightClick slot) = c.decoder :=
    congrArg Prod.snd (Player.decode_rightClick standard shown)
  simp only [ruled, kept, Turn.Ruling.answer, Turn.Ruling.written]
  congr 1
  by_cases full : old.room p.cursor = 0
  · have nothing : o = {} := if_pos full
    have stays : p.rewritten {} = p := by simp [Player.rewritten]
    have stays' : c.rewritten {} c.decoder = c := by simp [Container.rewritten]
    obtain ⟨room, same⟩ := List.getElem?_eq_some_iff.1 here
    obtain ⟨room', same'⟩ := List.getElem?_eq_some_iff.1 there
    rw [if_pos full, nothing, stays, stays']
    apply Session.ext
    · rw [← same]
      exact List.set_getElem_self room
    · rw [← same']
      exact List.set_getElem_self room'
  · have moves : o = { changes := (∅ : NatMap Stack).insert slot (old.grown p.cursor 1), cursor := some (p.cursor.shrunk 1) } :=
      if_neg full
    have pays : p.rewritten o = { p with cursor := p.cursor.shrunk 1 } := by simp [Player.rewritten, moves]
    have takes : c.rewritten o c.decoder = { c with inventory := c.inventory.set slot (old.grown p.cursor 1) } := by
      simp [Container.rewritten, moves, Inventory.overwrite_insert]
    rw [if_neg full, pays, takes]
    apply Session.ext
    · exact (players_given_one here).symm
    · exact (containers_given there [i]).symm

end

/-- The calls are all answered with an outcome, and leave the session `after`. -/
def Leads (setup : Setup) (s : Session) (calls : List Call) (after : Session) : Prop :=
  ∃ replies, s.run setup calls = (replies, after) ∧ ∀ reply ∈ replies, ∃ o, reply.answer = .ok (some o)

theorem Leads.cons {setup : Setup} {call : Call} {calls : List Call} {next after : Session} {reply : Reply} {o : Outcome}
    (step : s.step setup call = (reply, next)) (answer : reply.answer = .ok (some o))
    (rest : next.Leads setup calls after) : s.Leads setup (call :: calls) after := by
  obtain ⟨replies, run, answers⟩ := rest
  refine ⟨reply :: replies, ?_, ?_⟩
  · rw [run_cons, step, run]
  · rintro r (_ | ⟨_, mem⟩)
    · exact ⟨o, answer⟩
    · exact answers r mem

/-- Right clicks on a slot of the container, one after the other. -/
def rightClicks (k slot : Nat) (clickers : List Nat) : List Call :=
  clickers.map fun i => .click i (some k) (.rightClick slot)

section

variable {setup : Setup} (unhooked : setup.hooks = {}) (there : s.containers[k]? = some c) (standard : c.Standard)
  {m : Nat} (fits : m ≤ t.material.maxStack) (shown : c.inventory.get? slot = some (t.withCount m))
  {clickers : List Nat} (supplies : s.Supplies t clickers)

include unhooked there standard fits shown supplies

/-- **Any number of clicks.** -/
theorem run_gives : s.Leads setup (rightClicks k slot clickers)
    (s.given k slot (t.withCount (min t.material.maxStack (m + clickers.length) : Nat))
      (clickers.take (t.material.maxStack - m))) := by
  -- Each click leaves the slot with one item more, or full as it was.
  induction clickers generalizing s c m with
  | nil =>
    rw [List.length_nil, Nat.add_zero, Nat.min_eq_right fits, List.take_nil, given_nil there shown]
    exact ⟨[], rfl, nofun⟩
  | cons i clickers ih =>
    obtain ⟨p, here, own, holds, -⟩ := supplies i (.head _)
    have small := t.material.maxStack_le
    have takes := holds.takes (m := m) (by omega)
    obtain ⟨reply, answer, step⟩ := step_gives unhooked there standard here own shown holds.1 takes
    rw [holds.room_withCount (by omega), holds.grown_withCount (by omega)] at step
    rcases Nat.eq_zero_or_pos (t.material.maxStack - m) with full | left
    · rw [if_pos full] at step
      have rest := ih there standard fits shown (supplies.of_sublist (List.sublist_cons_self ..))
      have same : min t.material.maxStack (m + (i :: clickers).length) =
          min t.material.maxStack (m + clickers.length) := by
        rw [List.length_cons]
        omega
      rw [full, List.take_zero] at rest
      rw [full, List.take_zero, same]
      exact .cons step answer rest
    · rw [if_neg (by omega)] at step
      let more := t.withCount ((m + 1 : Nat) : Int)
      have inside : slot < c.inventory.slotCount := Inventory.get?_isSome_iff.1 (Option.isSome_of_mem shown)
      have there' : (s.given k slot more [i]).containers[k]? =
          some { c with inventory := c.inventory.set slot more } := by
        rw [containers_given there]
        exact List.getElem?_set_self (List.getElem?_eq_some_iff.1 there).1
      have shown' : (c.inventory.set slot more).get? slot = some more := by
        rw [Inventory.get?_set, if_pos ⟨rfl, inside⟩]
      have standard' : Container.Standard { c with inventory := c.inventory.set slot more } :=
        ⟨standard.menu, standard.decoder⟩
      have rest := ih there' standard' (by omega) shown' supplies.given
      have same : min t.material.maxStack (m + (i :: clickers).length) =
          min t.material.maxStack (m + 1 + clickers.length) := by
        rw [List.length_cons]
        omega
      have first : (i :: clickers).take (t.material.maxStack - m) =
          [i] ++ clickers.take (t.material.maxStack - (m + 1)) := by
        have next : t.material.maxStack - m = t.material.maxStack - (m + 1) + 1 := by omega
        rw [next, List.take_succ_cons]
        rfl
      rw [given_given] at rest
      rw [same, first]
      exact .cons step answer rest

end

/-- **Contended clicks lose nothing.** However the clicks of all players interleave, the slot takes one item of each click
until it is full and none after, each from the cursor of the player who clicks, and nothing else changes. The cursors lose
as many items as the slot gains. If there is room for all, clicks in any other order leave the same session. -/
theorem contended {setup : Setup} (unhooked : setup.hooks = {}) {s : Session} {k : Nat} {c : Container}
    (there : s.containers[k]? = some c) (standard : c.Standard) {t : Stack} {m : Nat} (fits : m ≤ t.material.maxStack)
    {slot : Nat} (shown : c.inventory.get? slot = some (t.withCount m)) {clickers : List Nat}
    (supplies : s.Supplies t clickers) :
    let full := t.material.maxStack
    let after := s.given k slot (t.withCount (min full (m + clickers.length) : Nat)) (clickers.take (full - m))
    s.Leads setup (rightClicks k slot clickers) after ∧
      after.carried + (min full (m + clickers.length) - m : Nat) = s.carried ∧
      (m + clickers.length ≤ full → ∀ other, other.Perm clickers → s.Leads setup (rightClicks k slot other) after) := by
  intro full after
  refine ⟨run_gives unhooked there standard fits shown supplies, ?_, fun room other perm => ?_⟩
  · have paid := (supplies.of_sublist (List.take_sublist (full - m) clickers)).carried_given k slot
      (t.withCount (min full (m + clickers.length) : Nat))
    have number : (clickers.take (full - m)).length = min full (m + clickers.length) - m := by
      rw [List.length_take]
      omega
    rwa [number] at paid
  · have supplies' : s.Supplies t other := by
      intro i mem
      obtain ⟨p, here, own, holds, enough⟩ := supplies i (perm.mem_iff.1 mem)
      exact ⟨p, here, own, holds, perm.count_eq i ▸ enough⟩
    have run := run_gives unhooked there standard fits shown supplies'
    have whole : clickers.take (full - m) = clickers := List.take_of_length_le (by omega)
    have whole' : other.take (full - m) = other := List.take_of_length_le (by rw [perm.length_eq]; omega)
    rw [whole', perm.length_eq] at run
    have same : s.given k slot (t.withCount (min full (m + clickers.length) : Nat)) other = after := by
      simp only [after, whole, given, perm.count_eq]
    rwa [same] at run

/-- Two players fill up a stack of eggs in a hopper, in either order. -/
theorem contended_eggs :
    let hopper := Container.ofInventory ((Inventory.empty .hopper).set 1 (.of .egg 14 none))
    let one := Player.ofInventory (.empty .player) (.of .egg 5 none) .survival
    let other := Player.ofInventory (.empty .player) (.of .egg 1 none) .creative
    let s : Session := { players := [one, other], containers := [hopper] }
    let after := s.given 0 1 (.of .egg 16 none) [0, 1]
    s.Leads {} (rightClicks 0 1 [0, 1]) after ∧ s.Leads {} (rightClicks 0 1 [1, 0]) after ∧
      after.carried + 2 = s.carried := by
  intro hopper one other s after
  have standard : hopper.Standard := Container.standard_ofInventory _
  have shown : hopper.inventory.get? 1 = some ((Stack.single .egg).withCount (14 : Nat)) := by decide
  have supplies : s.Supplies (.single .egg) [0, 1] := by
    intro i mem
    rcases List.mem_cons.1 mem with rfl | mem
    · exact ⟨one, rfl, rfl, by decide, by decide⟩
    · cases List.mem_singleton.1 mem
      exact ⟨other, rfl, rfl, by decide, by decide⟩
  obtain ⟨run, paid, orders⟩ :=
    contended (rfl : ({} : Setup).hooks = {}) (rfl : s.containers[0]? = some hopper) standard (by decide) shown supplies
  exact ⟨run, orders (by decide) [1, 0] (List.Perm.swap ..), paid⟩

end Session

end InventoryClicks
