import InventoryClicks.Proofs.Accounts
import InventoryClicks.Proofs.Standard

/-!
# Sessions conserve items

However the calls of a session interleave, it holds as many items of every type as it began with, counting those that
its calls have thrown into the world (`Session.run_conserves`). The check on outcomes is not needed for it.
-/

namespace InventoryClicks

namespace Turn.Setting

variable {g : Setting} {w : Weight} {decoded : Except Fault (Option Action)}

/-- Outside of creative mode, processed outcomes gain what they throw. -/
theorem Standard.balances (standard : g.Standard) (keep : g.setup.hooks.KeepOutcomes) (mode : g.who.mode ≠ .creative)
    (allowed : ∀ sent, decoded = .ok (some sent) → sent.Allowed g.scene.slotCount g.who.mode) :
    g.Balances w decoded := by
  intro sent action processed outcome meant applies
  have allowed' := applies.admits.allowed (allowed sent meant)
  obtain ⟨o, process, -, gains⟩ := standard.process w allowed'
  rw [applies.process] at process
  cases process
  have same : outcome = processed := Hooks.eq_of_clickVerdict_proceed keep applies.click
  rw [same]
  apply gains
  rw [← Bool.not_eq_true]
  exact fun creative => mode (allowed'.creative creative)

end Turn.Setting

namespace Session

variable {setup : Setup} {w : Weight}

/-- A standard player who is not in creative mode. -/
structure Plays (p : Player) : Prop where
  standard : p.Standard
  mode : p.mode ≠ .creative

theorem Plays.keeps {p : Player} (plays : Plays p) {c : Option Container} {d : Decoder} {q : Played} (keeps : p.Keeps c d q)
    (reads : c = none → d.Reads (Decoder.sizeFor .player)) : Plays q.player where
  standard := by
    refine ⟨by rw [keeps.kind, plays.standard.kind], ?_⟩
    rw [keeps.decoder]
    cases c with
    | none => exact reads rfl
    | some k => exact plays.standard.decoder
  mode := by
    rw [keeps.mode]
    exact plays.mode

theorem balanced_standard (keep : setup.hooks.KeepOutcomes) : Balanced setup w Plays Container.Standard where
  click id p c packet plays opened := by
    apply (plays.standard.setting opened setup id).balances keep plays.mode
    obtain ⟨action?, answer, allowed⟩ := Player.decoded_allowed plays.standard.kind (plays.standard.reads opened) id packet
    intro sent meant
    rw [answer] at meant
    cases meant
    exact allowed sent rfl
  creative id p slot stack plays := by
    apply (plays.standard.setting (c := none) nofun setup id).balances keep plays.mode
    intro sent meant
    injection meant with meant
    exact Player.decodeCreative_allowed plays.standard.kind meant
  clicked id p c packet plays opened := by
    have keeps := (p.click_called setup id c packet).keeps
    refine ⟨plays.keeps keeps ?_, ?_⟩
    · rintro rfl
      exact plays.standard.decoder.after id p.mode packet
    · intro k' left
      cases c with
      | none => cases left
      | some k =>
        obtain ⟨k'', left', menu, kind, decoder⟩ := keeps.container k rfl
        rw [left] at left'
        cases left'
        refine ⟨by rw [menu, kind]; exact (opened k rfl).menu, ?_⟩
        rw [decoder, kind]
        exact (opened k rfl).decoder.after id p.mode packet
  created id p slot stack plays := plays.keeps (p.creative_called setup id slot stack).keeps fun _ => plays.standard.decoder
  forgot id p plays := ⟨plays.standard.forgetDrags id, plays.mode⟩
  closed id c standard := standard.close id

/-- Players outside of creative mode with player inventories, and containers with the menus for their kinds. Inventories and
cursors hold anything, and whatever was clicked before has been read by the decoders. -/
structure Underway (s : Session) : Prop where
  players : ∀ p ∈ s.players, p.mode ≠ .creative ∧ p.inventory.kind = .player ∧
    (Decoder.ofInventory p.inventory).Reachable p.decoder
  containers : ∀ c ∈ s.containers, c.menu = .ofKind c.inventory.kind ∧
    (Decoder.ofInventory c.inventory).Reachable c.decoder

theorem Underway.every {s : Session} (underway : s.Underway) : s.Every Plays Container.Standard where
  players p mem := by
    obtain ⟨mode, kind, reached⟩ := underway.players p mem
    refine ⟨⟨kind, ?_⟩, mode⟩
    rw [← kind]
    exact reached.reads (Decoder.reads_ofInventory p.inventory)
  containers c mem := by
    obtain ⟨menu, reached⟩ := underway.containers c mem
    exact ⟨menu, reached.reads (Decoder.reads_ofInventory c.inventory)⟩

/-- **Conservation.** Whatever calls are made in whatever order, each under hooks of its own that keep outcomes, of every type
of item the session and the world together hold as many as the session did when it began. -/
theorem run_conserves (s : Session) (underway : s.Underway) (calls : List (Setup × Call))
    (keep : ∀ x ∈ calls, x.1.hooks.KeepOutcomes) (material : Material) (data : Option (List UInt8)) :
    let replies := (s.runEach calls).1
    let s' := (s.runEach calls).2
    s'.weight (.ofType material data) + (replies.map (·.report.weight (.ofType material data))).sum =
      s.weight (.ofType material data) :=
  (runEach_weight underway.every calls fun x mem => balanced_standard (keep x mem)).1

/-- One item of the cursor is put into a container. Then all others would be thrown, but a hook has only one of them thrown. -/
theorem run_conserves_thrown :
    let player := Player.ofInventory (.empty .player) (.of .dirt 4 none) .survival
    let s : Session := { players := [player], containers := [.ofInventory (.empty .hopper)] }
    let put : Call := .click 0 (some 0) { mode := .click, slot := 0, button := 1 }
    let throw : Call := .click 0 none { mode := .click, slot := Packet.outside, button := 0 }
    let sparing : Setup := { hooks := { pre := [fun _ _ => .ok (.proceed (.dropCursor .right))] } }
    let replies := (s.runEach [({}, put), (sparing, throw)]).1
    let s' := (s.runEach [({}, put), (sparing, throw)]).2
    replies.map (·.report.weight (.ofType .dirt none)) = [0, 1] ∧
      s'.weight (.ofType .dirt none) + 1 = s.weight (.ofType .dirt none) := by
  intro player s put throw sparing replies s'
  have keep : ∀ x ∈ [(({} : Setup), put), (sparing, throw)], x.1.hooks.KeepOutcomes := by
    simp [sparing, Hooks.KeepOutcomes]
  have underway : s.Underway := by
    constructor
    · intro p mem
      rw [List.mem_singleton.1 mem]
      exact ⟨by decide, rfl, .start⟩
    · intro c mem
      rw [List.mem_singleton.1 mem]
      exact ⟨rfl, .start⟩
  have thrown : replies.map (·.report.weight (.ofType .dirt none)) = [0, 1] := by decide
  have conserved : s'.weight (.ofType .dirt none) + (replies.map (·.report.weight (.ofType .dirt none))).sum =
      s.weight (.ofType .dirt none) := run_conserves s underway [({}, put), (sparing, throw)] keep .dirt none
  rw [thrown] at conserved
  exact ⟨thrown, conserved⟩

end Session

end InventoryClicks
