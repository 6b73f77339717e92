import InventoryClicks.Proofs.Serving

/-!
# Mirrors of equipment

What others see a client wear is a mirror that is told of changes only, so one event too few or too many leaves it wrong
for good. A mirror that follows the events of a client shows what the client wears after every request of a run, whatever
else goes on in the world (`Tick.Run.mirrored`), and an update is such a run (`World.update_run`).
-/

namespace InventoryClicks

open StepM

namespace World.Tick

/-- A run of an update, or of several, with the events that it announces. Between the requests anything may happen that
keeps the inventory of client `i` and the slot it holds. -/
inductive Run (i : Nat) (t : Tick) : List (Nat × Equipment × Stack) → Tick → Prop where
  | refl : Run i t [] t
  | request {events news : List (Nat × Equipment × Stack)} {u v : Tick} {k : Nat} {request : Request}
      (before : Run i t events u) (serves : u.Serves k request v)
      (announced : v.bulletin.equipment = u.bulletin.equipment ++ news) : Run i t (events ++ news) v
  | between {events : List (Nat × Equipment × Stack)} {u v : Tick} (before : Run i t events u)
      (keeps : Keeps i u.world v.world) : Run i t events v

end World.Tick

/-- The events of one client. -/
def Mirror.eventsOf (i : Nat) (events : List (Nat × Equipment × Stack)) : List (Equipment × Stack) :=
  events.filterMap fun e => if e.1 = i then some e.2 else none

theorem Mirror.eventsOf_append (i : Nat) (a b : List (Nat × Equipment × Stack)) :
    eventsOf i (a ++ b) = eventsOf i a ++ eventsOf i b := List.filterMap_append

theorem Mirror.eventsOf_self (i : Nat) (news : List (Equipment × Stack)) : eventsOf i (news.map (i, ·)) = news := by
  unfold eventsOf
  rw [List.filterMap_map]
  exact (List.filterMap_congr fun _ _ => if_pos rfl).trans List.filterMap_some

theorem Mirror.eventsOf_of_ne {i k : Nat} (other : i ≠ k) (news : List (Equipment × Stack)) :
    eventsOf i (news.map (k, ·)) = [] := by
  unfold eventsOf
  rw [List.filterMap_map, List.filterMap_eq_nil_iff]
  exact fun _ _ => if_neg other.symm

namespace World.Tick

/-- **Mirrors.** A mirror that follows the events of a client through a run shows what the client wears. -/
theorem Run.mirrored {i : Nat} {t t' : Tick} {events : List (Nat × Equipment × Stack)} {held : HeldSlot} {scene : Scene}
    (run : Run i t events t') (shows : t.world.Shows i held scene) (own : scene.player.kind = .player) :
    ∃ scene', t'.world.Shows i held scene' ∧ scene'.player.kind = .player ∧
      scene'.player.worn held = (scene.player.worn held).follow (Mirror.eventsOf i events) := by
  induction run with
  | refl => exact ⟨scene, shows, own, rfl⟩
  | @request events news u v k request before serves announced ih =>
    obtain ⟨seen, shows', own', mirrored⟩ := ih
    rw [Mirror.eventsOf_append, Mirror.follow_append, ← mirrored]
    by_cases self : i = k
    · -- the writes of the request change what is worn as their events change the mirror
      subst self
      obtain ⟨writes, cursor, after, equipment, -⟩ := serves.writes shows'
      refine ⟨_, after, (seen.kind_writeAll writes).trans own', ?_⟩
      rw [List.append_cancel_left (announced.symm.trans equipment), Mirror.eventsOf_self]
      exact Scene.worn_writeAll own' writes
    · -- the mirror ignores these events, and they are not about this client
      obtain ⟨others, equipment⟩ := serves.announces
      obtain ⟨seen', after, same⟩ := serves.keeps self held seen shows'
      refine ⟨seen', after, same ▸ own', ?_⟩
      rw [List.append_cancel_left (announced.symm.trans equipment), Mirror.eventsOf_of_ne self, same]
      rfl
  | between before keeps ih =>
    obtain ⟨seen, shows', own', mirrored⟩ := ih
    obtain ⟨seen', after, same⟩ := keeps held seen shows'
    exact ⟨seen', after, same ▸ own', same ▸ mirrored⟩

theorem Run.trans {i : Nat} {t u v : Tick} {events news : List (Nat × Equipment × Stack)} (before : Run i t events u)
    (after : Run i u news v) : Run i t (events ++ news) v := by
  induction after with
  | refl => rwa [List.append_nil]
  | request _ serves announced ih =>
    rw [← List.append_assoc]
    exact .request ih serves announced
  | between _ keeps ih => exact .between ih keeps

/-- A stage that comes to its end has served one request after the other. -/
theorem run_of_forM {α : Type} {f : α → TickM Unit} (serves : ∀ a, ∃ k request, f a = serve k request) {l : List α}
    {t t' : Tick} (ended : (l.forM f).run t = .ok ⟨⟩ t') (i : Nat) :
    ∃ news, t'.bulletin.equipment = t.bulletin.equipment ++ news ∧ Run i t news t' := by
  induction l generalizing t with
  | nil =>
    cases ended
    exact ⟨[], (List.append_nil _).symm, .refl⟩
  | cons a l ih =>
    rw [List.forM, run_bind_eq_ok] at ended
    obtain ⟨⟨⟩, u, first, rest⟩ := ended
    obtain ⟨k, request, same⟩ := serves a
    rw [same] at first
    have served : t.Serves k request u := ⟨.ok ⟨⟩, outcome_eq_ok.2 first, .inl ⟨⟨⟩, rfl⟩⟩
    obtain ⟨events, announced⟩ := served.announces
    obtain ⟨news, later, run⟩ := ih rest
    refine ⟨events.map (k, ·) ++ news, ?_, ?_⟩
    · rw [later, announced, List.append_assoc]
    · exact (Run.refl.request served announced).trans run

end World.Tick

namespace World

theorem Keeps.refl (i : Nat) (w : World) : Keeps i w w := fun _ scene shows => ⟨scene, shows, rfl⟩

theorem Keeps.trans {i : Nat} {u v w : World} (before : Keeps i u v) (after : Keeps i v w) : Keeps i u w := by
  intro held scene shows
  obtain ⟨scene', shows', same⟩ := before held scene shows
  obtain ⟨scene'', shows'', same'⟩ := after held scene' shows'
  exact ⟨scene'', shows'', same'.trans same⟩

/-- Clients that have been served before stay as they are. -/
theorem keeps_served (i : Nat) (w : World) :
    Keeps i w { w with clients := w.clients.map (·.map Client.served), clicks := [], creatives := [], closes := [] } := by
  rintro _ _ ⟨client, gear, c, here, carries, viewing, opened⟩
  have served : client.served = client := by
    unfold Client.served
    rw [carries]
  have here' : (((w.clients.map (·.map Client.served))[i]?).join : Option Client) = some client := by
    have there : w.clients[i]? = some (some client) := Option.join_eq_some_iff.1 here
    rw [List.getElem?_map, there]
    exact congrArg some served
  exact ⟨_, .intro client gear c here' carries viewing opened, rfl⟩

/-- Whoever closes a container carries what it carried before. -/
theorem keeps_close (i k : Nat) (w : World) : Keeps i w (w.close k) := by
  unfold close
  split
  · next client mode gear viewing here =>
    by_cases self : i = k
    · subst self
      rintro _ _ ⟨client, gear', c, here', carries, viewing', opened⟩
      cases here.symm.trans here'
      cases carries
      let left : Gear := { gear with decoder := gear.decoder.forgetPlayer i }
      have closed := client?_setClient_self { mode, gear := some left } here
      exact ⟨_, .intro _ left none closed rfl rfl rfl, rfl⟩
    · refine .of_same (client?_setClient_of_ne _ self) ?_
      cases viewing with
      | none => rfl
      | some j => exact List.length_modify ..
  · exact .refl i w

theorem keeps_open {w : World} {k j : Nat} {client : Client} (here : w.client? k = some client)
    (there : j < w.containers.length) (i : Nat) : Keeps i w (w.setClient k { client with viewing := some j }) := by
  by_cases self : i = k
  · subst self
    rintro _ _ ⟨client', gear, c, here', carries, viewing, opened⟩
    cases here.symm.trans here'
    have seen := client?_setClient_self { client with viewing := some j } here
    have opened' : ((some j).bind (w.containers[·]?)).isSome = true := by
      show w.containers[j]?.isSome = true
      rwa [isSome_getElem?]
    exact ⟨_, .intro _ gear _ seen carries rfl opened', rfl⟩
  · exact .of_same (client?_setClient_of_ne _ self) rfl

/-- An update is a run of every client, from the world before it. -/
theorem update_run {w w' : World} {b : Bulletin} (updated : w.update = (.ok b, w')) (i : Nat) :
    Tick.Run i { world := w } b.equipment { world := w', bulletin := b } := by
  have clicks (a : Nat × Packet) : ∃ k request, click a.1 a.2 = serve k request :=
    ⟨a.1, .click a.2, rfl⟩
  have creatives (a : Nat × Int × Stack) : ∃ k request, creative a.1 a.2.1 a.2.2 = serve k request :=
    ⟨a.1, .creative a.2.1 a.2.2, rfl⟩
  have closes (l : List Nat) (w : World) : Keeps i w (l.foldl close w) := by
    induction l generalizing w with
    | nil => exact .refl i w
    | cons k l ih => exact (keeps_close i k w).trans (ih (w.close k))
  unfold update at updated
  split at updated
  · cases updated
  split at updated
  · next t ended =>
    cases updated
    rw [outcome_eq_ok] at ended
    unfold tick at ended
    simp only [run_bind_eq_ok, run_get_eq_ok, run_modify_eq_ok, run_attempt_eq_ok, run_ofExcept_eq_ok] at ended
    obtain ⟨_, _, ⟨rfl, rfl⟩, _, _, rfl, _, u, clicked, _, v, created, _, _, rfl, _, _, ⟨rfl, rfl⟩, rfl, rfl⟩ := ended
    obtain ⟨news, announced, run⟩ := Tick.run_of_forM clicks (outcome_eq_ok.1 clicked) i
    obtain ⟨news', announced', run'⟩ := Tick.run_of_forM creatives (outcome_eq_ok.1 created) i
    have start : Tick.Run i { world := w } [] { world := { w with
        clients := w.clients.map (·.map Client.served), clicks := [], creatives := [], closes := [] } } :=
      .between .refl (keeps_served i w)
    have all : v.bulletin.equipment = [] ++ news ++ news' := by
      rw [announced', announced]
    show Tick.Run i _ v.bulletin.equipment _
    rw [all]
    exact .between ((start.trans run).trans run') (closes w.closes v.world)
  · cases updated

/-- **Equipment events.** Let a client's own inventory be written by its requests only, and let it hold the same slot
all the time. A mirror of the client's equipment that follows its events then shows what the client wears after every
request. The events of a request are those of the writes of the one outcome that it applies, and a write to a container
has none. An update is such a run, of the events that it tells, and containers may be opened and closed in between. -/
theorem equipment_mirrored (i : Nat) :
    (∀ (t : Tick) events (t' : Tick) held scene, Tick.Run i t events t' → t.world.Shows i held scene →
      scene.player.kind = .player → ∃ scene', t'.world.Shows i held scene' ∧ scene'.player.kind = .player ∧
        scene'.player.worn held = (scene.player.worn held).follow (Mirror.eventsOf i events)) ∧
    (∀ (t : Tick) request (t' : Tick) held scene, t.Serves i request t' → t.world.Shows i held scene →
      ∃ writes cursor, t'.world.Shows i held { scene.writeAll writes with cursor } ∧
        t'.bulletin.equipment = t.bulletin.equipment ++ (writes.filterMap held.event?).map (i, ·) ∧
        (writes = [] ∧ t'.bulletin.applied = t.bulletin.applied ∨
          ∃ action, ∃ o : Outcome, writes = o.writes (request.seen scene).container.isSome ∧
            t'.bulletin.applied = t.bulletin.applied ++ [(i, action, o)])) ∧
    (∀ w b w', w.update = (.ok b, w') → Tick.Run i { world := w } b.equipment { world := w', bulletin := b }) ∧
    ∀ (w : World) k, Keeps i w (w.close k) ∧ ∀ client j, w.client? k = some client → j < w.containers.length →
      Keeps i w (w.setClient k { client with viewing := some j }) := by
  refine ⟨?_, ?_, ?_, ?_⟩
  · intro t events t' held scene run shows own
    exact run.mirrored shows own
  · intro t request t' held scene serves shows
    exact serves.writes shows
  · intro w b w' updated
    exact update_run updated i
  · intro w k
    constructor
    · exact keeps_close i k w
    · intro client j here there
      exact keeps_open here there i

/-- A client opens a chest, swaps a shield from its slot 5 to the offhand, and puts a helmet on while the chest is still
open. Slot 5 is where the head is in the client's own inventory. -/
theorem equipment_mirrored_chest :
    let chest := (Inventory.empty .generic9x1).set 5 (.single .shield)
    let swap : Packet := { mode := .hotbarKey, slot := 5, button := 40 }
    let client : Client := { mode := some .creative, gear := some .initial }
    let w : World :=
      { clients := [some client], containers := [.ofInventory chest], clicks := [(0, swap)]
        creatives := [(0, 5, .single .ironHelmet)], closes := [0] }
    let opened := w.setClient 0 { client with viewing := some 0 }
    let events := [(Equipment.offHand, Stack.single .shield), (.head, .single .ironHelmet)]
    (∃ b w' scene, opened.update = (.ok b, w') ∧ b.equipment = events.map (0, ·) ∧ w'.Shows 0 default scene ∧
      scene.player.worn default = ((Inventory.empty .player).worn default).follow events) ∧
    ∃ (t' : Tick) (writes : List (Cell × Stack)) (cursor : Stack), t'.world.Shows 0 default
        { Scene.writeAll { player := .empty .player, container := some chest } writes with cursor } ∧
      t'.bulletin.equipment = (writes.filterMap (HeldSlot.event? default)).map (0, ·) ∧
      t'.bulletin.equipment = [(0, .offHand, .single .shield)] := by
  intro chest swap client w opened events
  obtain ⟨mirrored, told, updates, between⟩ := equipment_mirrored 0
  constructor
  · have shows : w.Shows 0 default { player := .empty .player } := .intro client .initial none rfl rfl rfl rfl
    have opens : Keeps 0 w opened := (between w 0).2 client 0 rfl (by decide)
    have tells : opened.update.1.map (·.equipment) = .ok (events.map (0, ·)) := by decide
    rcases updated : opened.update with ⟨_ | b, w'⟩
    · rw [updated] at tells
      cases tells
    · rw [updated] at tells
      have equipment : b.equipment = events.map (0, ·) := Except.ok.inj tells
      have run : Tick.Run 0 { world := w } ([] ++ b.equipment) { world := w', bulletin := b } :=
        (Tick.Run.between .refl opens).trans (updates opened b w' updated)
      obtain ⟨scene, shows', -, same⟩ := mirrored _ _ _ _ _ run shows rfl
      rw [List.nil_append, equipment, Mirror.eventsOf_self] at same
      exact ⟨b, w', scene, rfl, equipment, shows', same⟩
  · have shows : opened.Shows 0 default { player := .empty .player, container := some chest } :=
      .intro { client with viewing := some 0 } .initial (some (.ofInventory chest)) rfl rfl rfl rfl
    have served : ((serve 0 (.click swap)).outcome { world := opened }).1 = .ok ⟨⟩ := by decide
    have event : ((serve 0 (.click swap)).outcome { world := opened }).2.bulletin.equipment =
        [(0, .offHand, .single .shield)] := by
      decide
    obtain ⟨writes, cursor, shows', equipment, -⟩ := told { world := opened } (.click swap) _ _ _
      ⟨.ok ⟨⟩, Prod.ext served rfl, .inl ⟨⟨⟩, rfl⟩⟩ shows
    exact ⟨_, writes, cursor, shows', equipment, event⟩

end World

end InventoryClicks
