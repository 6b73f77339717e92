import InventoryClicks.World.Basic
import InventoryClicks.Proofs.Atomicity
import InventoryClicks.Proofs.Equipment

/-!
# Serving requests

A client asks for changes of its inventory by click packets and by packets of the creative inventory. Whichever it is, the
request is passed over or has a turn (`World.serve_served`). A turn that no hook stops too late either writes nothing and
announces nothing, or writes one outcome and announces the events of its writes (`Tick.Serves.writes`); what other clients
carry stays as it is (`Tick.Serves.keeps`).
-/

namespace InventoryClicks

open StepM

/-- No hook stopped a call with this answer once its outcome had been applied. -/
def Hooks.Through {α : Type} (hooks : Hooks) (answer : Except Fault α) : Prop :=
  (∃ a, answer = .ok a) ∨ ∀ hook ∈ hooks.post, ∀ cx action o, ∃ v, hook cx action o = .ok v

theorem Hooks.Through.of_map {α β : Type} {hooks : Hooks} {answer : Except Fault α} {f : α → β}
    (through : hooks.Through (answer.map f)) : hooks.Through answer := by
  rcases through with ⟨b, ended⟩ | answers
  · cases answer with
    | error e => cases ended
    | ok a => exact .inl ⟨a, rfl⟩
  · exact .inr answers

namespace Turn

/-- What is announced of a turn. The effects of one that stopped at a fault are lost. -/
def settledReport (answer : Except Fault (Option Outcome)) (r : Report) : Report :=
  match answer with
  | .ok _ => r
  | .error _ => { r with effects := [] }

theorem Setting.applied_effects (g : Setting) (decoded action : Action) (processed outcome : Outcome) :
    (g.effects decoded action processed outcome).filterMap Effect.applied? = [(g.who.player, action, outcome)] := by
  have drops : (outcome.thrown.map (Effect.drop g.who.player)).filterMap Effect.applied? = [] := by
    rw [List.filterMap_map, List.filterMap_eq_nil_iff]
    exact fun _ _ => rfl
  unfold effects
  rw [List.filterMap_append, List.filterMap_append, drops]
  split <;> rfl

/-- A turn that no hook stops late has written nothing and tells of nothing, or has written the one outcome that it
tells of. -/
theorem Course.told {g : Setting} {decoded : Except Fault (Option Action)} {answer : Except Fault (Option Outcome)}
    {scene : Scene} {r : Report} (h : Course g decoded answer scene r) (through : g.setup.hooks.Through answer) :
    scene = g.scene ∧ (settledReport answer r).applied = [] ∨
      ∃ action o, scene = g.scene.overwrite o ∧ (settledReport answer r).applied = [(g.who.player, action, o)] := by
  cases h with
  | undecodable e => exact .inl ⟨rfl, rfl⟩
  | ignored r uncalled silent => exact .inl ⟨rfl, congrArg (List.filterMap _) silent⟩
  | acted ending =>
    cases ending with
    | stopped e r why quiet silent => exact .inl ⟨rfl, rfl⟩
    | refused r why quiet resync => exact .inl ⟨rfl, congrArg (List.filterMap _) resync⟩
    | applied action processed outcome before after applies quiet silent effects calls =>
      refine .inr ⟨action, outcome, rfl, ?_⟩
      show (before.effects ++ after.effects).filterMap _ = _
      rw [silent, effects, List.nil_append, Setting.applied_effects]
    | interrupted e action processed outcome r applies hook drops =>
      obtain ⟨hook, mem, cx, stop⟩ := hook
      rcases through with ⟨a, ended⟩ | answers
      · cases ended
      · obtain ⟨v, answer⟩ := answers hook mem cx action outcome
        rw [stop] at answer
        cases answer

/-- What the bulletin then says. -/
theorem Course.announced {g : Setting} {decoded : Except Fault (Option Action)} {answer : Except Fault (Option Outcome)}
    {scene : Scene} {r : Report} (h : Course g decoded answer scene r) (through : g.setup.hooks.Through answer)
    (held : HeldSlot) (viewing : Bool) (b : Bulletin) :
    let b' := b.addReport held viewing (settledReport answer r)
    (scene = g.scene ∧ b'.applied = b.applied ∧ b'.equipment = b.equipment) ∨
      ∃ action o, scene = g.scene.overwrite o ∧ b'.applied = b.applied ++ [(g.who.player, action, o)] ∧
        b'.equipment = b.equipment ++ ((o.writes viewing).filterMap held.event?).map (g.who.player, ·) := by
  intro b'
  obtain ⟨applied, equipment⟩ := b.addReport_applied held viewing (settledReport answer r)
  rcases h.told through with ⟨after, told⟩ | ⟨action, o, after, told⟩
  · rw [told] at applied equipment
    left
    exact ⟨after, applied.trans (List.append_nil _), equipment.trans (List.append_nil _)⟩
  · rw [told] at applied equipment
    right
    refine ⟨action, o, after, applied, ?_⟩
    rw [equipment, ← Bulletin.equipmentOf_eq, List.flatMap_singleton]

end Turn

namespace World

/-- Client `i` holds `held` and has `scene` in view: what it carries, and the container that it has open. -/
inductive Shows (w : World) (i : Nat) : HeldSlot → Scene → Prop where
  | intro (client : Client) (gear : Gear) (c : Option Container) (here : w.client? i = some client)
      (carries : client.gear = some gear) (viewing : client.viewing.bind (w.containers[·]?) = c)
      (opened : c.isSome = client.viewing.isSome) :
      Shows w i gear.held { player := gear.inventory, container := c.map (·.inventory), cursor := gear.cursor }

/-- From `w` to `w'` nobody writes to the inventory of client `i`, who holds the same slot. Containers may change, and
the client may open or close one. -/
def Keeps (i : Nat) (w w' : World) : Prop :=
  ∀ held scene, w.Shows i held scene → ∃ scene', w'.Shows i held scene' ∧ scene'.player = scene.player

/-- What a client may send to have its inventory changed. -/
inductive Request where
  | click (packet : Packet)
  | creative (slot : Int) (stack : Stack)

namespace Request

/-- The container that the turn for a request takes place with. Packets of the creative inventory are for the client's
own inventory even while a container is open. -/
def viewing (client : Client) : Request → Option Nat
  | click _ => client.viewing
  | creative .. => none

/-- The part of a scene that the turn for a request sees. -/
def seen (scene : Scene) : Request → Scene
  | click _ => scene
  | creative .. => { scene with container := none }

/-- The scene when the turn leaves `left` of the part that it saw. -/
def left (scene left : Scene) : Request → Scene
  | click _ => left
  | creative .. => { left with container := scene.container }

theorem left_seen (scene : Scene) (request : Request) : request.left scene (request.seen scene) = scene := by
  cases request <;> rfl

theorem left_overwrite (scene : Scene) (o : Outcome) (request : Request) :
    request.left scene ((request.seen scene).overwrite o) =
      { scene.writeAll (o.writes (request.seen scene).container.isSome) with cursor := o.cursor.getD scene.cursor } := by
  cases request with
  | click packet =>
    show scene.overwrite o =
      { scene.writeAll (o.writes scene.container.isSome) with cursor := o.cursor.getD scene.cursor }
    rcases open_ : scene.container with _ | c
    · rw [Scene.overwrite_own open_, Option.isSome_none, Scene.writeAll_own, open_]
    · rw [Scene.overwrite_container open_, Option.isSome_some, Scene.writeAll_shared, open_]
      rfl
  | creative slot stack =>
    show { Scene.overwrite { scene with container := none } o with container := scene.container } =
      { scene.writeAll (o.writes false) with cursor := o.cursor.getD scene.cursor }
    rw [Scene.overwrite_own rfl, Scene.writeAll_own]

end Request

/-- The stages of an update serve requests. -/
def serve (i : Nat) : Request → TickM Unit
  | .click packet => click i packet
  | .creative slot stack => creative i slot stack

/-- The world when a turn of the client is settled. -/
def leave (w : World) (i : Nat) (client : Client) (gear : Gear) (viewing : Option Nat) (played : Played) : World :=
  { w.setClient i { client with gear := some (gear.leave played.player) } with
    containers := match viewing, played.container with
      | some j, some c => w.containers.set j c
      | _, _ => w.containers }

theorem outcome_settle (i : Nat) (client : Client) (gear : Gear) (viewing : Option Nat) (played : Played) (t : Tick) :
    (settle i client gear viewing played).outcome t =
      (played.answer.map fun _ => ⟨⟩,
        { world := t.world.leave i client gear viewing played,
          bulletin := t.bulletin.addReport gear.held viewing.isSome (Turn.settledReport played.answer played.report) }) := by
  obtain ⟨⟨answer, report⟩, player, container⟩ := played
  cases answer <;> cases viewing <;> cases container <;> rfl

/-- How a request is served: it is passed over, or it has its turn. -/
inductive Served (i : Nat) (request : Request) (t : Tick) : Except Fault Unit × Tick → Prop where
  | idle (notices : List Notice) :
      Served i request t (.ok ⟨⟩, { t with bulletin := { t.bulletin with notices := notices } })
  | turn (client : Client) (gear : Gear) (mode : GameMode) (decoded : Except Fault (Option Action)) (d : Decoder)
      (played : Played) (here : t.world.client? i = some client) (carries : client.gear = some gear)
      (called : (gear.player mode).Called t.world.setup i ((request.viewing client).bind (t.world.containers[·]?))
        decoded d played) :
      Served i request t (played.answer.map fun _ => ⟨⟩,
        { world := t.world.leave i client gear (request.viewing client) played,
          bulletin := t.bulletin.addReport gear.held (request.viewing client).isSome
            (Turn.settledReport played.answer played.report) })

theorem serve_served (i : Nat) (request : Request) (t : Tick) : Served i request t ((serve i request).outcome t) := by
  have idle : Served i request t (.ok ⟨⟩, t) := .idle t.bulletin.notices
  have reads : (get : TickM Tick).outcome t = (.ok t, t) := rfl
  cases request with
  | click packet =>
    unfold serve click
    rw [outcome_bind_ok reads]
    dsimp only
    split
    · next client mode gear viewing here =>
      split
      · exact .idle _
      · rw [outcome_settle]
        have called := (gear.player mode).click_called t.world.setup i (viewing.bind (t.world.containers[·]?)) packet
        exact @Served.turn i (.click packet) t _ gear mode _ _ _ here rfl called
    · exact idle
  | creative slot stack =>
    unfold serve creative
    rw [outcome_bind_ok reads]
    dsimp only
    split
    · next client mode gear viewing here =>
      rw [outcome_settle]
      have called := (gear.player mode).creative_called t.world.setup i slot stack
      exact @Served.turn i (.creative slot stack) t _ gear mode _ _ _ here rfl called
    · exact idle

section

variable {w : World} {i k : Nat} {client : Client} {gear : Gear} {viewing : Option Nat} {played : Played}

theorem client?_setClient_self (c : Client) (here : w.client? i = some client) :
    (w.setClient i c).client? i = some c := by
  have inside : i < w.clients.length := by
    by_contra out
    rw [client?, List.getElem?_eq_none (by omega)] at here
    cases here
  unfold client? setClient
  rw [List.getElem?_set_self inside]
  rfl

theorem client?_setClient_of_ne (c : Client) (other : i ≠ k) : (w.setClient k c).client? i = w.client? i := by
  unfold client? setClient
  rw [List.getElem?_set_ne (Ne.symm other)]

theorem length_containers_leave : (w.leave i client gear viewing played).containers.length = w.containers.length := by
  unfold leave
  split
  · exact List.length_set ..
  · rfl

/-- What a client shows depends on the client and on the containers only. -/
theorem Keeps.of_same {w' : World} (same : w'.client? i = w.client? i)
    (length : w'.containers.length = w.containers.length) : Keeps i w w' := by
  rintro _ _ ⟨client, gear, c, here, carries, viewing, opened⟩
  have opened' : (client.viewing.bind (w'.containers[·]?)).isSome = client.viewing.isSome := by
    rw [← opened, ← viewing]
    rcases client.viewing with _ | j
    · rfl
    · show w'.containers[j]?.isSome = w.containers[j]?.isSome
      rw [Bool.eq_iff_iff, isSome_getElem?, isSome_getElem?, length]
  exact ⟨_, .intro client gear _ (same.trans here) carries rfl opened', rfl⟩

end

section

variable {w : World} {i : Nat} {client : Client} {gear : Gear} {held : HeldSlot} {scene : Scene}

/-- The turn for a request begins in the part of the scene that the request sees. -/
theorem Shows.seen (shows : w.Shows i held scene) (here : w.client? i = some client) (carries : client.gear = some gear)
    (request : Request) (setup : Setup) (mode : GameMode) :
    gear.held = held ∧ (request.viewing client).isSome = (request.seen scene).container.isSome ∧
      ((gear.player mode).setting setup i ((request.viewing client).bind (w.containers[·]?))).scene =
        request.seen scene := by
  obtain ⟨client', gear', c, here', carries', viewing, opened⟩ := shows
  cases here.symm.trans here'
  cases carries.symm.trans carries'
  cases request with
  | click packet =>
    refine ⟨rfl, ?_, ?_⟩
    · exact (opened.symm.trans (Option.isSome_map ..).symm)
    · rw [← viewing]
      rfl
  | creative slot stack => exact ⟨rfl, rfl, rfl⟩

/-- It leaves the rest of the scene as it is. -/
theorem Shows.leave {request : Request} {setup : Setup} {mode : GameMode} {decoded : Except Fault (Option Action)}
    {d : Decoder} {played : Played} (shows : w.Shows i held scene) (here : w.client? i = some client)
    (carries : client.gear = some gear)
    (called : (gear.player mode).Called setup i ((request.viewing client).bind (w.containers[·]?)) decoded d played) :
    (w.leave i client gear (request.viewing client) played).Shows i held (request.left scene played.scene) := by
  have left : (w.leave i client gear (request.viewing client) played).client? i =
      some { client with gear := some (gear.leave played.player) } := client?_setClient_self _ here
  obtain ⟨client', gear', c, here', carries', viewing, opened⟩ := shows
  cases here.symm.trans here'
  cases carries.symm.trans carries'
  cases request with
  | click packet =>
    have shared : ((Request.click packet).viewing client).bind (w.containers[·]?) = c := viewing
    rw [shared] at called
    have kept : played.container.isSome = c.isSome := by
      obtain ⟨answer, after, report, course⟩ := called
      exact Option.isSome_map ..
    refine .intro _ (gear.leave played.player) played.container left rfl ?_ (kept.trans opened)
    show client.viewing.bind _ = _
    rcases open_ : client.viewing with _ | j
    · rw [opened, open_] at kept
      exact (Option.isNone_iff_eq_none.1 (Option.isSome_eq_false_iff.1 kept)).symm
    · have some_ : played.container.isSome := by rw [kept, opened, open_, Option.isSome_some]
      obtain ⟨c', after⟩ := Option.isSome_iff_exists.1 some_
      have inside : j < w.containers.length := by
        rw [open_] at viewing opened
        rw [← isSome_getElem? w.containers j]
        exact (congrArg Option.isSome viewing).trans opened
      -- it is put back under the number from which it was taken
      have put : (w.leave i client gear ((Request.click packet).viewing client) played).containers =
          w.containers.set j c' := by
        show (match client.viewing, played.container with
          | some j, some c => w.containers.set j c
          | _, _ => w.containers) = _
        rw [open_, after]
      rw [put, after]
      exact List.getElem?_set_self inside
  | creative slot stack =>
    obtain ⟨answer, after, report, course⟩ := called
    exact .intro _ (gear.leave _) c left rfl viewing opened

end

end World

namespace World.Tick

/-- A request of client `k` is served to its end: no hook stops it at a fault once its outcome has been applied. One that is
stopped then takes its update with it, and there is no other update after that. -/
def Serves (t : Tick) (k : Nat) (request : Request) (t' : Tick) : Prop :=
  ∃ r, (serve k request).outcome t = (r, t') ∧ t.world.setup.hooks.Through r

theorem Serves.cases {t t' : Tick} {k : Nat} {request : Request} (serves : t.Serves k request t') :
    ∃ r, Served k request t (r, t') ∧ t.world.setup.hooks.Through r := by
  obtain ⟨r, run, through⟩ := serves
  refine ⟨r, ?_, through⟩
  rw [← run]
  exact serve_served k request t

/-- **One request.** Either nothing is written and nothing announced, or one outcome is applied, and the events are
those of its writes. -/
theorem Serves.writes {t t' : Tick} {k : Nat} {request : Request} {held : HeldSlot} {scene : Scene}
    (serves : t.Serves k request t') (shows : t.world.Shows k held scene) :
    ∃ writes cursor, t'.world.Shows k held { scene.writeAll writes with cursor } ∧
      t'.bulletin.equipment = t.bulletin.equipment ++ (writes.filterMap held.event?).map (k, ·) ∧
      (writes = [] ∧ t'.bulletin.applied = t.bulletin.applied ∨
        ∃ action o, writes = o.writes (request.seen scene).container.isSome ∧
          t'.bulletin.applied = t.bulletin.applied ++ [(k, action, o)]) := by
  obtain ⟨r, served, through⟩ := serves.cases
  cases served with
  | idle notices => exact ⟨[], scene.cursor, shows, (List.append_nil _).symm, .inl ⟨rfl, rfl⟩⟩
  | turn client gear mode decoded d played here carries called =>
    obtain ⟨rfl, viewing, begins⟩ := shows.seen here carries request t.world.setup mode
    have left := shows.leave here carries called
    rcases called.course.announced through.of_map gear.held (request.viewing client).isSome t.bulletin with
      ⟨after, applied, equipment⟩ | ⟨action, o, after, applied, equipment⟩
    · rw [after, begins, Request.left_seen] at left
      exact ⟨[], scene.cursor, left, equipment.trans (List.append_nil _).symm, .inl ⟨rfl, applied⟩⟩
    · rw [after, begins, Request.left_overwrite] at left
      refine ⟨_, _, left, ?_, .inr ⟨action, o, rfl, applied⟩⟩
      rw [← viewing]
      exact equipment

/-- Requests of other clients keep what a client has. -/
theorem Serves.keeps {t t' : Tick} {i k : Nat} {request : Request} (serves : t.Serves k request t') (other : i ≠ k) :
    Keeps i t.world t'.world := by
  obtain ⟨r, served, through⟩ := serves.cases
  cases served with
  | idle notices => exact .of_same rfl rfl
  | turn client gear mode decoded d played here carries called =>
    exact .of_same (client?_setClient_of_ne _ other) length_containers_leave

/-- The events of a request are those of the client who sent it. -/
theorem Serves.announces {t t' : Tick} {k : Nat} {request : Request} (serves : t.Serves k request t') :
    ∃ news : List (Equipment × Stack), t'.bulletin.equipment = t.bulletin.equipment ++ news.map (k, ·) := by
  obtain ⟨r, served, through⟩ := serves.cases
  cases served with
  | idle notices => exact ⟨[], (List.append_nil _).symm⟩
  | turn client gear mode decoded d played here carries called =>
    rcases called.course.announced through.of_map gear.held (request.viewing client).isSome t.bulletin with
      ⟨-, -, equipment⟩ | ⟨action, o, -, -, equipment⟩
    · exact ⟨[], equipment.trans (List.append_nil _).symm⟩
    · exact ⟨_, equipment⟩

end World.Tick

end InventoryClicks
