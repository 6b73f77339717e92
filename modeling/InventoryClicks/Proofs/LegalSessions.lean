import InventoryClicks.Proofs.KeptStacks
import InventoryClicks.Proofs.Legal
import InventoryClicks.Proofs.Overlay
import InventoryClicks.Proofs.Process
import InventoryClicks.Proofs.Staging

/-!
# Sessions of legal stacks

If nobody has an illegal stack, no clicks of any players in any modes produce one, neither in an inventory or on a cursor
nor among the stacks that are thrown. Stacks that are added to an inventory, which may be illegal themselves, fill its slots
up to the limit only (`Session.clicks_legal`).
-/

namespace InventoryClicks

open StepM

/-- A stack that is thrown. -/
def Effect.Legal : Effect → Prop
  | .drop _ s => s.Legal
  | .resync _ => True
  | .applied .. => True

def Report.Legal (r : Report) : Prop := ∀ e ∈ r.effects, e.Legal

/-- Inventory and cursor. -/
structure Player.Legal (p : Player) : Prop where
  inventory : p.inventory.Legal
  cursor : p.cursor.Legal

/-- Legal stacks, and the menu for the inventory. -/
structure Container.Legal (c : Container) : Prop where
  inventory : c.inventory.Legal
  menu : c.menu = .ofKind c.inventory.kind

theorem Player.legal_iff {p : Player} : p.Legal ↔ p.Only Stack.Legal :=
  ⟨fun ⟨inventory, cursor⟩ => ⟨inventory, cursor⟩, fun ⟨inventory, cursor⟩ => ⟨inventory, cursor⟩⟩

theorem Container.Legal.only {c : Container} (legal : c.Legal) : c.Only Stack.Legal where
  inventory := legal.inventory
  rule := by
    rw [legal.menu, Menu.rule_ofKind]
    exact StackingRule.keeps_legal

theorem Reply.Only.legal {r : Reply} (only : r.Only Stack.Legal) : r.report.Legal := by
  intro e mem
  have kept := only.effects e mem
  cases e with
  | drop player s => exact kept
  | resync player => exact trivial
  | applied player action outcome => exact trivial

/-- Without hooks, a click leaves legal stacks and throws legal ones. -/
theorem Player.click_legal {setup : Setup} (unhooked : setup.hooks = {}) (id : Nat) {p : Player} (legal : p.Legal)
    {c : Option Container} (opened : ∀ k, c = some k → k.Legal) (packet : Packet) :
    (p.click setup id c packet).player.Legal ∧
      (∀ k, (p.click setup id c packet).container = some k → k.Legal) ∧ (p.click setup id c packet).report.Legal := by
  have keep : setup.hooks.Keep Stack.Legal := by
    rw [unhooked]
    exact Hooks.keep_none
  obtain ⟨player, container, reply⟩ := click_only StackingRule.keeps_legal keep (legal_iff.1 legal)
    (fun k is => (opened k is).only) packet
  have keeps := (p.click_called setup id c packet).keeps
  refine ⟨legal_iff.2 player, fun k left => ⟨(container k left).inventory, ?_⟩, reply.legal⟩
  cases c with
  | none =>
    have alone : (p.click setup id none packet).container = none := rfl
    rw [alone] at left
    cases left
  | some k₀ =>
    obtain ⟨k', left', menu, kind, -⟩ := keeps.container k₀ rfl
    rw [left] at left'
    cases left'
    rw [menu, kind]
    exact (opened k₀ rfl).menu

namespace Inventory

/-- Whatever is illegal was there before. -/
def Spares (before after : Inventory) : Prop := ∀ slot s, after.get? slot = some s → s.Legal ∨ before.get? slot = some s

theorem spares_refl (inv : Inventory) : inv.Spares inv := fun _ _ here => .inr here

theorem spares_overwrite (inv : Inventory) {changes : NatMap Stack} (legal : changes.Legal) :
    inv.Spares (inv.overwrite changes) := by
  intro slot s here
  rw [get?_overwrite, Option.map_eq_some_iff] at here
  obtain ⟨old, held, stack⟩ := here
  rcases staged : changes.get? slot with _ | s'
  · rw [staged, Option.getD_none] at stack
    rw [← stack]
    exact .inr held
  · rw [staged, Option.getD_some] at stack
    rw [← stack]
    exact .inl (legal slot s' staged)

end Inventory

namespace Transfer

variable {inv : Inventory}

theorem stage_add_legal {fill air : List Nat} {item rest : Stack} {changes : NatMap Stack}
    (staged : (add fill air).stage .standard inv item = .ok (rest, changes)) : changes.Legal := by
  have keeps (limit : Int) : (Operator.fill limit).Keeps .standard (fun _ => True) Stack.Legal fun _ => True :=
    fun slot incoming e _ _ filled => ⟨(Operator.legal_of_fill filled).1, trivial⟩
  have adds : (add fill air).Keeps .standard (fun _ => True) (fun _ => True) Stack.Legal fun _ => True :=
    add_keeps (keeps _) (fun _ _ => trivial) fun _ _ => trivial
  exact (stage_only adds (fun _ _ => trivial) (fun _ _ _ => trivial) trivial staged).2

/-- The slots that stacks are added to are slots of the inventory. -/
theorem addTo_balanced (w : Weight) (kind : Inventory.Kind) :
    (addTo kind).Balanced .standard w (· < kind.slotCount) := by
  rw [kind.addTo_eq]
  exact add_balanced StackingRule.honest_standard (StackingRule.respects_standard w) kind.fillOrder_inside
    kind.airOrder_inside

/-- Adding a stack always comes to its end, and leaves no slot above its limit that was not above it before. -/
theorem addTo_spares (inv : Inventory) (item : Stack) :
    (∃ rest after, inv.transact (addTo inv.kind) item = .ok (rest, after) ∧ inv.Spares after) ∧
      ∃ added after, inv.transactWhole (addTo inv.kind) item = .ok (added, after) ∧ inv.Spares after := by
  obtain ⟨rest, changes, staged, inside, -⟩ := stage_ends inv (addTo_balanced .items inv.kind) item
  have legal : changes.Legal := by
    rw [inv.kind.addTo_eq] at staged
    exact stage_add_legal staged
  have written := Inventory.writeAll_eq_overwrite inside
  constructor
  · refine ⟨rest, inv.overwrite changes, ?_, inv.spares_overwrite legal⟩
    simp only [Inventory.transact, staged, bind, Except.bind, written]
    rfl
  · unfold Inventory.transactWhole
    simp only [staged, bind, Except.bind, written]
    split
    · exact ⟨true, inv.overwrite changes, rfl, inv.spares_overwrite legal⟩
    · exact ⟨false, inv, rfl, inv.spares_refl⟩

end Transfer

namespace Session

variable {setup : Setup} {s : Session}

/-- A packet of a player who is in a mode, for a container or for their own inventory. -/
structure Click where
  player : Nat
  mode : GameMode
  container : Option Nat
  packet : Packet
  deriving DecidableEq, Repr

def setMode (s : Session) (i : Nat) (mode : GameMode) : Session :=
  match s.players[i]? with
  | some p => s.setPlayer i { p with mode }
  | none => s

/-- Replies to the clicks in order, and the session after the last. -/
def clicks (setup : Setup) (s : Session) : List Click → List Reply × Session
  | [] => ([], s)
  | x :: rest =>
    let (reply, s) := (s.setMode x.player x.mode).step setup (.click x.player x.container x.packet)
    let (replies, s) := s.clicks setup rest
    (reply :: replies, s)

theorem Every.setMode {P : Player → Prop} {C : Container → Prop} (every : s.Every P C)
    (keeps : ∀ p mode, P p → P { p with mode }) (i : Nat) (mode : GameMode) : (s.setMode i mode).Every P C := by
  unfold Session.setMode
  split
  · next p here => exact every.setPlayer i (keeps p mode (every.player here))
  · exact every

/-- No stack in the session is illegal. -/
abbrev Legal (s : Session) : Prop := s.Every Player.Legal Container.Legal

theorem Move.legal (unhooked : setup.hooks = {}) (legal : s.Legal) {i : Nat} {j : Option Nat} {packet : Packet}
    {reply : Reply} {after : Session} (move : Move setup s (.click i j packet) reply after) :
    after.Legal ∧ reply.report.Legal := by
  cases move with
  | idle => exact ⟨legal, by simp [Report.Legal]⟩
  | own i p packet here =>
    obtain ⟨player, -, thrown⟩ := Player.click_legal unhooked i (legal.player here) (c := none) nofun packet
    exact ⟨legal.setPlayer i player, thrown⟩
  | shared i j p c left packet here there leaves =>
    have opened : ∀ k, some c = some k → k.Legal := by
      rintro k ⟨⟩
      exact legal.container there
    obtain ⟨player, container, thrown⟩ := Player.click_legal unhooked i (legal.player here) opened packet
    exact ⟨(legal.setPlayer i player).setContainer j (container left leaves), thrown⟩

theorem legal_of_clicks (unhooked : setup.hooks = {}) (legal : s.Legal) (xs : List Click) :
    (s.clicks setup xs).2.Legal ∧ ∀ r ∈ (s.clicks setup xs).1, r.report.Legal := by
  induction xs generalizing s with
  | nil => exact ⟨legal, by simp [clicks]⟩
  | cons x xs ih =>
    have inMode : (s.setMode x.player x.mode).Legal := legal.setMode (fun p mode h => ⟨h.inventory, h.cursor⟩) _ _
    obtain ⟨legal', thrown⟩ := (step_move setup (s.setMode x.player x.mode) _).legal unhooked inMode
    obtain ⟨after, later⟩ := ih legal'
    refine ⟨after, fun r mem => ?_⟩
    rcases List.mem_cons.1 mem with rfl | mem
    · exact thrown
    · exact later r mem

/-- **Legality.** From a session of legal stacks, clicks of any players in any modes lead to sessions of legal stacks and
throw legal stacks only. And a stack of any size that is added to an inventory makes no stack in it illegal. -/
theorem clicks_legal (unhooked : setup.hooks = {}) (legal : s.Legal) (xs : List Click) (inv : Inventory) (item : Stack) :
    ((s.clicks setup xs).2.Legal ∧ ∀ r ∈ (s.clicks setup xs).1, r.report.Legal) ∧
      (∃ rest after, inv.transact (.addTo inv.kind) item = .ok (rest, after) ∧ inv.Spares after) ∧
      ∃ added after, inv.transactWhole (.addTo inv.kind) item = .ok (added, after) ∧ inv.Spares after :=
  ⟨legal_of_clicks unhooked legal xs, Transfer.addTo_spares inv item⟩

/-- A copied stack is full, and is thrown as such. Eggs are added beside more eggs than a slot may hold. -/
theorem clicks_legal_copied :
    let player := Player.ofInventory ((Inventory.empty .player).set 36 (.of .enderPearl 3 none)) .empty .survival
    let s : Session := { players := [player] }
    let copy : Click := ⟨0, .creative, none, { mode := .middleClick, slot := 36, button := 2 }⟩
    let throw_ : Click := ⟨0, .survival, none, { mode := .click, slot := Packet.outside, button := 0 }⟩
    let hopper := (Inventory.empty .hopper).set 1 (.of .egg 100 none)
    (s.clicks {} [copy, throw_]).1.map (·.report.effects.filterMap Effect.drop?) = [[], [(0, .of .enderPearl 16 none)]] ∧
      (∀ r ∈ (s.clicks {} [copy, throw_]).1, r.report.Legal) ∧
      ∃ after, hopper.transact (.addTo .hopper) (.of .egg 127 none) = .ok (.of .egg 63 none, after) ∧
        hopper.Spares after := by
  intro player s copy throw_ hopper
  have slots : ∀ s ∈ player.inventory.slots, s.Legal := by decide
  have legal : s.Legal := by
    constructor
    · intro p mem
      rw [List.mem_singleton.1 mem]
      exact ⟨fun slot s here => slots s (List.mem_of_getElem? here), Stack.legal_empty⟩
    · intro c mem
      cases mem
  obtain ⟨⟨-, thrown⟩, ⟨rest, after, added, spares⟩, -⟩ :=
    @clicks_legal {} s rfl legal [copy, throw_] hopper (.of .egg 127 none)
  have left : (hopper.transact (.addTo .hopper) (.of .egg 127 none)).map (·.1) = .ok (.of .egg 63 none) := by decide
  have added : hopper.transact (.addTo .hopper) (.of .egg 127 none) = .ok (rest, after) := added
  rw [added] at left ⊢
  cases left
  exact ⟨by decide, thrown, after, rfl, spares⟩

end Session

end InventoryClicks
