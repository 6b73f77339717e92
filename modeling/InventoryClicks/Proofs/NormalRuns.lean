import InventoryClicks.Proofs.InventoryOps
import InventoryClicks.Proofs.KeptStacks
import InventoryClicks.Proofs.RawStacks

/-!
# Runs of stacks in normal form

Calls of players and operations of the application, in any order. Nothing gets into an inventory, onto a cursor, into an
answer or out into the world but what can be made of the stacks that came into the session, and no inventory changes its kind
or its number of slots (`Session.runs_normal`). Stacks are what the constructors make, so all of these are in normal form.
-/

namespace InventoryClicks

/-- The property does not depend on how many items there are, and holds of the empty stack. -/
structure RawStack.Supply (Q : RawStack → Prop) : Prop where
  empty : Q .empty
  withAmount : ∀ r n, Q r → Q (r.withAmount n)

theorem RawStack.Supply.closed {Q : RawStack → Prop} (supply : Supply Q) : Stack.Closed (Q ·.raw) where
  empty := supply.empty
  withCount s n kept := by
    show Q (StackingRule.standard.withAmount s n).raw
    rw [s.raw_withAmount]
    exact supply.withAmount s.raw n kept

namespace Session

/-- A call of a player under a setup of its own, or what the application does to the inventory of a player or of a container. -/
inductive Op where
  | call (setup : Setup) (call : Call)
  | player (i : Nat) (op : Inventory.Op)
  | container (j : Nat) (op : Inventory.Op)

inductive Answer where
  | reply (reply : Reply)
  | handed (answers : Except Fault (List Stack))
  /-- There is no such player, or no such container. -/
  | nobody

def perform (s : Session) : Op → Answer × Session
  | .call setup call =>
    let (reply, after) := s.step setup call
    (.reply reply, after)
  | .player i op =>
    match s.players[i]? with
    | none => (.nobody, s)
    | some p =>
      let (answers, after) := p.inventory.perform op
      (.handed answers, s.setPlayer i { p with inventory := after })
  | .container j op =>
    match s.containers[j]? with
    | none => (.nobody, s)
    | some c =>
      let (answers, after) := c.inventory.perform op
      (.handed answers, s.setContainer j { c with inventory := after })

/-- Answers to the operations in order, and the session after the last. -/
def performAll (s : Session) : List Op → List Answer × Session
  | [] => ([], s)
  | op :: rest =>
    let (answer, s) := s.perform op
    let (answers, s) := s.performAll rest
    (answer :: answers, s)

variable {setup : Setup} {s : Session} {P : Stack → Prop}

/-- Every stack in an inventory or on a cursor. -/
def Only (s : Session) (P : Stack → Prop) : Prop := s.Every (·.Only P) (·.inventory.Only P)

/-- The stacks that the operation brings along, and those that its hooks make. -/
def Op.Only (op : Op) (P : Stack → Prop) : Prop :=
  match op with
  | .call setup c => setup.hooks.Keep P ∧ c.Only P
  | .player _ op | .container _ op => op.Only P

/-- The stacks that are answered, and that are thrown. -/
def Answer.Only (a : Answer) (P : Stack → Prop) : Prop :=
  match a with
  | .reply r => r.Only P
  | .handed answers => ∀ l, answers = .ok l → ∀ x ∈ l, P x
  | .nobody => True

/-- Kind and number of slots of every inventory. -/
def shapes (s : Session) : List (Inventory.Kind × Nat) × List (Inventory.Kind × Nat) :=
  (s.players.map fun p => (p.inventory.kind, p.inventory.slots.length),
    s.containers.map fun c => (c.inventory.kind, c.inventory.slots.length))

/-- An element that gives way to one that is mapped to the same. -/
theorem map_set_of_eq {α β : Type} {f : α → β} {l : List α} {i : Nat} {a b : α} (here : l[i]? = some a)
    (same : f b = f a) : (l.set i b).map f = l.map f := by
  have there : (l.map f)[i]? = some (f a) := by rw [List.getElem?_map, here]; rfl
  obtain ⟨inside, value⟩ := List.getElem?_eq_some_iff.1 there
  rw [List.map_set, same, ← value, List.set_getElem_self]

theorem shapes_setPlayer {i : Nat} {p q : Player} (here : s.players[i]? = some p)
    (same : q.inventory.kind = p.inventory.kind) : (s.setPlayer i q).shapes = s.shapes := by
  simp only [shapes, setPlayer]
  rw [map_set_of_eq here (by simp [same, Inventory.length_slots])]

theorem shapes_setContainer {j : Nat} {c d : Container} (there : s.containers[j]? = some c)
    (same : d.inventory.kind = c.inventory.kind) : (s.setContainer j d).shapes = s.shapes := by
  simp only [shapes, setContainer]
  rw [map_set_of_eq there (by simp [same, Inventory.length_slots])]

theorem Move.shapes {call : Call} {reply : Reply} {after : Session} (move : Move setup s call reply after) :
    after.shapes = s.shapes := by
  cases move with
  | idle => rfl
  | own i p packet here => exact shapes_setPlayer here (p.click_called setup i none packet).keeps.kind
  | shared i j p c left packet here there leaves =>
    have keeps := (p.click_called setup i (some c) packet).keeps
    obtain ⟨left', leaves', -, kind, -⟩ := keeps.container c rfl
    rw [leaves] at leaves'
    cases leaves'
    have there' : (s.setPlayer i (p.click setup i (some c) packet).player).containers[j]? = some c := there
    rw [shapes_setContainer there' kind, shapes_setPlayer here keeps.kind]
  | creative i p slot stack here => exact shapes_setPlayer here (p.creative_called setup i slot stack).keeps.kind
  | forgot i p here => exact shapes_setPlayer here rfl
  | closed i j c there => exact shapes_setContainer there rfl

/-- One operation keeps a property of stacks, and the shapes of the inventories. -/
theorem perform_only (closed : Stack.Closed P) (only : s.Every (·.Only P) (·.Only P)) {op : Op} (brought : op.Only P) :
    (s.perform op).2.Every (·.Only P) (·.Only P) ∧ (s.perform op).1.Only P ∧ (s.perform op).2.shapes = s.shapes := by
  cases op with
  | call setup call =>
    have move := step_move setup s call
    obtain ⟨hooks, given⟩ := brought
    obtain ⟨after, replied⟩ := move.only (StackingRule.counts_standard.keeps closed) hooks only given
    exact ⟨after, replied, move.shapes⟩
  | player i op =>
    rcases here : s.players[i]? with _ | p
    · simp only [perform, here]
      exact ⟨only, trivial, trivial⟩
    · have held := only.player here
      have done : Inventory.Keeps P p.inventory (p.inventory.perform op) :=
        Inventory.perform_keeps closed held.inventory brought
      simp only [perform, here]
      exact ⟨only.setPlayer i ⟨done.only, held.cursor⟩, done.answered, shapes_setPlayer here done.kind⟩
  | container j op =>
    rcases there : s.containers[j]? with _ | c
    · simp only [perform, there]
      exact ⟨only, trivial, trivial⟩
    · have held := only.container there
      have done : Inventory.Keeps P c.inventory (c.inventory.perform op) :=
        Inventory.perform_keeps closed held.inventory brought
      simp only [perform, there]
      exact ⟨only.setContainer j ⟨done.only, held.rule⟩, done.answered, shapes_setContainer there done.kind⟩

theorem performAll_only (closed : Stack.Closed P) (only : s.Every (·.Only P) (·.Only P)) {ops : List Op}
    (brought : ∀ op ∈ ops, op.Only P) :
    (s.performAll ops).2.Every (·.Only P) (·.Only P) ∧ (∀ a ∈ (s.performAll ops).1, a.Only P) ∧
      (s.performAll ops).2.shapes = s.shapes := by
  induction ops generalizing s with
  | nil => exact ⟨only, by simp [performAll], rfl⟩
  | cons op ops ih =>
    obtain ⟨between, first, shapes⟩ := perform_only closed only (brought op (by simp))
    obtain ⟨after, later, shapes'⟩ := ih between fun op mem => brought op (by simp [mem])
    refine ⟨after, fun a mem => ?_, shapes'.trans shapes⟩
    rcases List.mem_cons.1 mem with rfl | mem
    · exact first
    · exact later a mem

/-- **Normal form.** Let the stacks that are in a session, that come into it, and that hooks and operators of the application
make, have a property that does not depend on how many items there are, and let the rules of the menus make their stacks like
the standard one, whatever else they answer. Then after any calls and operations every stack in an inventory, on a cursor,
among the answers or thrown has the property, and all inventories have kept their kinds and their numbers of slots. This is
what is proved of the run. That the stacks are made by constructors, count 0 to 127 items, and are the empty stack if they are
empty at all, comes with the type `Stack`, which holds exactly what the constructors make (`RawStack.built_iff`). -/
theorem runs_normal {Q : RawStack → Prop} (supply : RawStack.Supply Q) (start : s.Only (Q ·.raw))
    (rules : ∀ c ∈ s.containers, c.menu.rule.Counts) {ops : List Op} (brought : ∀ op ∈ ops, op.Only (Q ·.raw)) :
    (s.performAll ops).2.Only (fun x => Q x.raw ∧ x.raw.Built ∧ x.raw.Normal) ∧
      (∀ a ∈ (s.performAll ops).1, a.Only fun x => Q x.raw ∧ x.raw.Built ∧ x.raw.Normal) ∧
      (s.performAll ops).2.shapes = s.shapes := by
  have normal : (fun x : Stack => Q x.raw ∧ x.raw.Built ∧ x.raw.Normal) = (Q ·.raw) := by
    funext x
    have built : x.raw.Built := RawStack.built_iff.2 ⟨x, rfl⟩
    exact propext ⟨And.left, fun kept => ⟨kept, built, built.normal⟩⟩
  have only : s.Every (·.Only (Q ·.raw)) (·.Only (Q ·.raw)) :=
    ⟨start.players, fun c mem => ⟨start.containers c mem, (rules c mem).keeps supply.closed⟩⟩
  obtain ⟨after, answered, shapes⟩ := performAll_only supply.closed only brought
  rw [normal]
  exact ⟨⟨after.players, fun c mem => (after.containers c mem).inventory⟩, answered, shapes⟩

/-- Stone is put into a hopper and taken from it again. A hook marks what is picked up, and the rule of the hopper lets no
stacks share a slot by right clicks. Nothing of the stone is left in the end. -/
theorem runs_normal_emptied :
    let Q (r : RawStack) := r = .empty ∨ r.material = .stone
    let stone (n : Int) := Stack.of .stone n (some [7])
    let player := Player.ofInventory ((Inventory.empty .player).set 36 (stone 5)) .empty .survival
    let rule := { StackingRule.standard.byMaterial with canShareSlot := fun _ _ => false }
    let hopper := Container.withMenu (.empty .hopper) { Menu.container with rule }
    let s : Session := { players := [player], containers := [hopper] }
    let marks : Setup :=
      { hooks := { click := [fun _ _ o => .ok (.proceed { o with cursor := o.cursor.map (·.withData (some [8])) })] } }
    let click (setup : Setup) (slot : Int) : Op := .call setup (.click 0 (some 0) { mode := .click, slot, button := 0 })
    let ops := [click marks 32, click {} 0, .container 0 (.take (.of .stone 9 (some [8])) .all),
      .player 0 (.setThrough (.listed [50, 7]) 1 (stone 2))]
    let after := (s.performAll ops).2
    (after.Only fun x => Q x.raw ∧ x.raw.Built ∧ x.raw.Normal) ∧
      (∀ a ∈ (s.performAll ops).1, a.Only fun x => Q x.raw ∧ x.raw.Built ∧ x.raw.Normal) ∧
      after.shapes = s.shapes ∧ after.containers.map (·.inventory.get? 0) = [some .empty] := by
  intro Q stone player rule hopper s marks click ops after
  have normalized {r : RawStack} (material : r.material = .stone) : Q r.normalized := by
    unfold RawStack.normalized
    split
    · exact .inl rfl
    · exact .inr material
  have supply : RawStack.Supply Q := by
    refine ⟨.inl rfl, ?_⟩
    rintro r n (rfl | material)
    · exact .inl rfl
    · exact normalized material
  have filled (n : Int) (data : Option (List UInt8)) : Q (Stack.of .stone n data).raw := by
    rw [Stack.raw_of]
    exact normalized rfl
  have marked {x : Stack} (kept : Q x.raw) : Q (x.withData (some [8])).raw := by
    rw [Stack.raw_withData, RawStack.withData]
    split
    · exact kept
    · next some =>
      rcases kept with none | material
      · rw [none] at some
        exact absurd rfl some
      · exact .inr material
  have keep : marks.hooks.Keep (Q ·.raw) := by
    refine ⟨nofun, ?_⟩
    intro hook mem cx a o o' _ _ only answer
    rw [List.mem_singleton.1 mem] at answer
    cases answer
    refine ⟨only.changes, only.playerChanges, ?_, only.dropped⟩
    intro x picked
    obtain ⟨y, is, rfl⟩ := Option.map_eq_some_iff.1 picked
    exact marked (only.cursor y is)
  have start : s.Only (Q ·.raw) := by
    have slots : ∀ x ∈ player.inventory.slots, x = .empty ∨ x = stone 5 := by decide
    have free : ∀ x ∈ hopper.inventory.slots, x = .empty := by decide
    constructor
    · intro p mem
      rw [List.mem_singleton.1 mem]
      refine ⟨fun slot x here => ?_, .inl rfl⟩
      rcases slots x (List.mem_of_getElem? here) with rfl | rfl
      · exact .inl rfl
      · exact filled 5 _
    · intro c mem slot x here
      rw [List.mem_singleton.1 mem] at here
      rw [free x (List.mem_of_getElem? here)]
      exact .inl rfl
  have rules : ∀ c ∈ s.containers, c.menu.rule.Counts := by
    intro c mem
    rw [List.mem_singleton.1 mem]
    exact fun _ _ => rfl
  have brought : ∀ op ∈ ops, op.Only (Q ·.raw) := by
    simp only [ops, List.mem_cons, List.not_mem_nil, or_false, forall_eq_or_imp, forall_eq]
    exact ⟨⟨keep, trivial⟩, ⟨Hooks.keep_none, trivial⟩, filled 9 _, filled 2 _⟩
  obtain ⟨left, answers, shapes⟩ := runs_normal supply start rules brought
  have emptied : after.containers.map (·.inventory.get? 0) = [some .empty] := by decide
  exact ⟨left, answers, shapes, emptied⟩

end Session

end InventoryClicks
