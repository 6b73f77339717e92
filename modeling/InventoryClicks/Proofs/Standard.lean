import InventoryClicks.Proofs.Admission
import InventoryClicks.Proofs.Process

/-!
# Standard players and containers

A player or a container is standard if it has the menu and a decoder for its kind of inventory. Calls keep them so. Such a
decoder reads slots of the window only (`Player.Standard.reads`), so that what a packet means is allowed there, and
processing an allowed action stops at no fault (`Turn.Setting.Standard.process`).
-/

namespace InventoryClicks

namespace Turn

variable {g : Setting} {action : Action}

/-- A player's inventory, and a menu that suits the window. -/
structure Setting.Standard (g : Setting) : Prop where
  own : g.scene.player.kind = .player
  rule : g.menu.rule = .standard
  routes : g.menu.Routes g.scene

theorem Setting.Standard.process (standard : g.Standard) (w : Weight)
    (allowed : action.Allowed g.scene.slotCount g.who.mode) :
    ∃ o, g.menu.process g.scene action = .ok o ∧ o.Settles g.scene ∧
      (action.isCreative = false → o.gained w g.scene = -o.thrownWeight w) := by
  have honest : g.menu.rule.Honest := by
    rw [standard.rule]
    exact StackingRule.honest_standard
  have respects : g.menu.rule.Respects w := by
    rw [standard.rule]
    exact StackingRule.respects_standard w
  exact Menu.process_settles honest respects standard.routes standard.own allowed

end Turn

/-- With a decoder for the player's own inventory. -/
structure Player.Standard (p : Player) : Prop where
  kind : p.inventory.kind = .player
  decoder : p.decoder.Reads (Decoder.sizeFor .player)

/-- With the menu and a decoder for its inventory. -/
structure Container.Standard (c : Container) : Prop where
  menu : c.menu = .ofKind c.inventory.kind
  decoder : c.decoder.Reads (Decoder.sizeFor c.inventory.kind)

theorem Player.standard_ofInventory {inv : Inventory} (kind : inv.kind = .player) (cursor : Stack) (mode : GameMode) :
    (Player.ofInventory inv cursor mode).Standard where
  kind := kind
  decoder := by
    rw [← kind]
    exact Decoder.reads_ofInventory inv

theorem Container.standard_ofInventory (inv : Inventory) : (Container.ofInventory inv).Standard where
  menu := rfl
  decoder := Decoder.reads_ofInventory inv

theorem Container.Standard.close {c : Container} (standard : c.Standard) (player : Nat) : (c.close player).Standard where
  menu := standard.menu
  decoder := standard.decoder.forgetPlayer player

namespace Player.Standard

variable {p : Player} (standard : p.Standard) {c : Option Container} (opened : ∀ k, c = some k → k.Standard)

include standard

theorem forgetDrags (id : Nat) : (p.forgetDrags id).Standard where
  kind := standard.kind
  decoder := standard.decoder.forgetPlayer id

include opened

theorem setting (setup : Setup) (id : Nat) : (p.setting setup id c).Standard := by
  cases c with
  | none =>
    refine ⟨standard.kind, rfl, Menu.routes_player ?_⟩
    have size : (p.setting setup id none).scene.slotCount = p.inventory.kind.slotCount := rfl
    rw [size, standard.kind]
    exact Nat.le_refl _
  | some k =>
    have menu : (p.setting setup id (some k)).menu = .ofKind k.inventory.kind := (opened k rfl).menu
    refine ⟨standard.kind, ?_, ?_⟩
    · rw [menu]
      exact Menu.rule_ofKind _
    · rw [menu]
      exact Menu.routes_ofKind rfl

theorem reads : (p.decoderFor c).Reads (Decoder.sizeFor (p.window c).clicked.kind) := by
  cases c with
  | none =>
    have clicked : (p.window none).clicked = p.inventory := rfl
    rw [clicked, standard.kind]
    exact standard.decoder
  | some k => exact (opened k rfl).decoder

end Player.Standard

end InventoryClicks
