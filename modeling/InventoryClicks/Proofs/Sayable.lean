import Mathlib.Tactic.TFAE
import InventoryClicks.Proofs.Admission
import InventoryClicks.Proofs.DragHistory

/-!
# What packets can say

Every allowed action has packets that convey it, whatever drags the decoder has seen (`Decoder.Reads.conveys`), and no
packets convey another one (`Decoder.Reads.allowed_of_mem_replies`). What is allowed depends on the number of slots. A
decoder takes it from the kind of its inventory, as if a player inventory were always clicked alone. Where one is opened
as a container, the window has more slots than that, and `Player.sayable_tfae` tells which actions are lost.
-/

namespace InventoryClicks

namespace Packet

/-- The numbers of the packet fit their fields, which are signed and 16 and 8 bits wide. -/
structure Fits (q : Packet) : Prop where
  slot : -32768 ≤ q.slot ∧ q.slot < 32768
  button : -128 ≤ q.button ∧ q.button < 128

/-- Button number of a part of a drag. -/
def dragButton : Button → DragPart → Int
  | .left, .start => 0
  | .left, .slot => 1
  | .left, .finish => 2
  | .right, .start => 4
  | .right, .slot => 5
  | .right, .finish => 6
  | .middle, .start => 8
  | .middle, .slot => 9
  | .middle, .finish => 10

theorem dragPart?_dragButton (button : Button) (part : DragPart) :
    dragPart? (dragButton button part) = some (button, part) := by
  cases button <;> cases part <;> rfl

/-- A part of a drag with the button. -/
def stroke (button : Button) (part : DragPart) (slot : Int) : Packet :=
  { mode := .drag, slot, button := dragButton button part }

theorem button_stroke (button : Button) (part : DragPart) (slot : Int) :
    0 ≤ (stroke button part slot).button ∧ (stroke button part slot).button ≤ 40 := by
  cases button <;> cases part <;> simp [stroke, dragButton]

end Packet

namespace Action

/-- Packets that convey the action. A drag is started anew by the first of its packets. There are none for the creative
inventory, which sends packets of its own. -/
def packets : Action → List Packet
  | click .left slot => [{ mode := .click, slot, button := 0 }]
  | click .right slot => [{ mode := .click, slot, button := 1 }]
  | click .middle slot => [{ mode := .middleClick, slot, button := 2 }]
  | shift secondary slot => [{ mode := .shiftClick, slot, button := if secondary then 1 else 0 }]
  | collect slot => [{ mode := .doubleClick, slot, button := 0 }]
  | drag button slots =>
    .stroke button .start Packet.outside :: slots.map (.stroke button .slot ·) ++
      [.stroke button .finish Packet.outside]
  | dropCursor .left => [{ mode := .click, slot := Packet.outside, button := 0 }]
  | dropCursor .right => [{ mode := .click, slot := Packet.outside, button := 1 }]
  | dropCursor .middle => [{ mode := .click, slot := Packet.outside, button := 2 }]
  | dropSlot slot all => [{ mode := .dropKey, slot, button := if all then 1 else 0 }]
  | hotbarSwap hotbar slot => [{ mode := .hotbarKey, slot, button := hotbar }]
  | offhandSwap slot => [{ mode := .hotbarKey, slot, button := 40 }]
  | creativeSet .. | creativeDrop _ => []

/-- Done in the creative inventory, not in a window. -/
def ofCreativeInventory : Action → Bool
  | creativeSet .. | creativeDrop _ => true
  | _ => false

theorem mem_packets_drag {button : Button} {slots : List Nat} {q : Packet} :
    q ∈ (drag button slots).packets ↔ q = .stroke button .start Packet.outside ∨
      (∃ slot ∈ slots, q = .stroke button .slot slot) ∨ q = .stroke button .finish Packet.outside := by
  simp [packets, eq_comm]

variable {a : Action} {q : Packet}

theorem slot_of_mem_packets (mem : q ∈ a.packets) : q.slot = Packet.outside ∨ ∃ slot ∈ a.slots, q.slot = slot := by
  cases a with
  | drag button slots =>
    rcases mem_packets_drag.1 mem with rfl | ⟨slot, named, rfl⟩ | rfl
    · exact .inl rfl
    · exact .inr ⟨slot, named, rfl⟩
    · exact .inl rfl
  | click button slot =>
    refine .inr ⟨slot, .head _, ?_⟩
    cases button <;> cases List.mem_singleton.1 mem <;> rfl
  | dropCursor button =>
    refine .inl ?_
    cases button <;> cases List.mem_singleton.1 mem <;> rfl
  | creativeSet => cases mem
  | creativeDrop => cases mem
  | shift _ slot | collect slot | dropSlot slot _ | hotbarSwap _ slot | offhandSwap slot =>
    cases List.mem_singleton.1 mem
    exact .inr ⟨slot, .head _, rfl⟩

theorem button_of_mem_packets (key : a.badHotbar? = none) (mem : q ∈ a.packets) : 0 ≤ q.button ∧ q.button ≤ 40 := by
  cases a with
  | drag button slots =>
    rcases mem_packets_drag.1 mem with rfl | ⟨slot, -, rfl⟩ | rfl
    · exact Packet.button_stroke button .start _
    · exact Packet.button_stroke button .slot slot
    · exact Packet.button_stroke button .finish _
  | hotbarSwap hotbar slot =>
    have := lt_of_badHotbar?_eq_none key
    cases List.mem_singleton.1 mem
    simp only
    omega
  | click button _ | dropCursor button => cases button <;> cases List.mem_singleton.1 mem <;> simp
  | creativeSet => cases mem
  | creativeDrop => cases mem
  | shift secondary slot =>
    cases List.mem_singleton.1 mem
    cases secondary <;> simp
  | dropSlot slot all =>
    cases List.mem_singleton.1 mem
    cases all <;> simp
  | collect slot | offhandSwap slot =>
    cases List.mem_singleton.1 mem
    simp

theorem Allowed.packets_fit {size : Nat} {mode : GameMode} (allowed : a.Allowed size mode) (small : size ≤ 32768)
    (mem : q ∈ a.packets) : q.Fits where
  slot := by
    rcases slot_of_mem_packets mem with out | ⟨slot, named, here⟩
    · rw [out]
      decide
    · have inside := allowed.slots slot named
      omega
  button := by
    have bounds := button_of_mem_packets allowed.hotbar mem
    omega

end Action

namespace Decoder

open StepM

theorem sizeFor_le (kind : Inventory.Kind) : sizeFor kind ≤ 32768 := by
  have small := kind.slotCount_le
  unfold sizeFor
  split
  · omega
  · simp only [PlayerLayout.mainSize]
    omega

/-- The answers to requests, oldest first. -/
def replies (d : Decoder) : List Request → List (Except Fault (Option Action))
  | [] => []
  | r :: history => (d.serve r).1 :: (d.serve r).2.replies history

/-- Packets of the player mean nothing until the last one, which means the action. -/
def Conveys (d : Decoder) (player : Nat) (mode : GameMode) (packets : List Packet) (a : Action) : Prop :=
  ∃ n, d.replies (packets.map (.click player mode)) = List.replicate n (.ok none) ++ [.ok (some a)]

section

variable {d : Decoder} {player size : Nat} {mode : GameMode} {a : Action} {button : Button}

theorem Conveys.mem_replies {packets : List Packet} (conveys : d.Conveys player mode packets a) :
    .ok (some a) ∈ d.replies (packets.map (.click player mode)) := by
  obtain ⟨n, said⟩ := conveys
  simp [said]

theorem replies_append (history later : List Request) :
    d.replies (history ++ later) = d.replies history ++ (d.after history).replies later := by
  induction history generalizing d with
  | nil => rfl
  | cons r history ih => simp [replies, after, ih]

theorem Reads.covers (reads : d.Reads size) {slot : Nat} (inside : slot < size) : d.covers slot = true := by
  simp [Decoder.covers, reads.window, inside]

/-- A packet about a slot of the window, other than a part of a drag. -/
theorem conveys_of_slotAction {done : Packet.Mode} {slot : Nat} {key : Int} (whole : done ≠ .drag)
    (covered : d.covers slot = true)
    (means : slotAction mode ⟨done, slot, key⟩ slot = some a) : d.Conveys player mode [⟨done, slot, key⟩] a := by
  have within : ¬ (done = .click ∧ (slot : Int) = Packet.outside) := by
    rintro ⟨-, out⟩
    simp only [Packet.outside] at out
    omega
  have answer : d.serve (.click player mode ⟨done, slot, key⟩) = (.ok (some a), d) := by
    rw [serve, outcome_decode_slot d player mode whole within, slot?_of_covers covered]
    exact congrArg (fun action? => (Except.ok action?, d)) means
  exact ⟨0, by simp [replies, answer]⟩

theorem stroke?_stroke (player : Nat) (may : button = .middle → mode = .creative) (part : Packet.DragPart) (slot : Int) :
    (Request.click player mode (.stroke button part slot)).stroke? = some ⟨player, button, part, slot⟩ := by
  have allowed : ¬ (button = .middle ∧ mode ≠ .creative) := fun barred => barred.2 (may barred.1)
  simp [Request.stroke?, Packet.stroke, Packet.dragPart?_dragButton, allowed]

/-- Slots dragged over one by one, after others. -/
theorem replies_strokes (may : button = .middle → mode = .creative) (slots seen : List Nat)
    (kept : d.drags.slots button player = seen) (covered : ∀ slot ∈ slots, d.covers slot = true)
    (fresh : (seen ++ slots).Nodup) :
    let adds := slots.map fun slot : Nat => Request.click player mode (.stroke button .slot slot)
    d.replies adds = List.replicate slots.length (.ok none) ∧
      (d.after adds).drags.slots button player = seen ++ slots := by
  -- Each slot is new to the ones before it, so the decoder keeps it at their end.
  induction slots generalizing d seen with
  | nil => exact ⟨rfl, by simp [after, kept]⟩
  | cons slot slots ih =>
    have told := stroke?_stroke player may .slot slot
    have here := covered slot (.head _)
    have new : slot ∉ seen := by
      simp only [List.nodup_append, List.mem_cons] at fresh
      exact fun old => fresh.2.2 slot old slot (.inl rfl) rfl
    have added : d.serve (.click player mode (.stroke button .slot slot)) =
        (.ok none, { d with drags := d.drags.record button player (seen ++ [slot]) }) := by
      rw [serve_of_stroke? told]
      simp [kept, slot?_of_covers here, extend, here, new, Functor.map, Except.map]
    obtain ⟨nothing, all⟩ := ih (d := { d with drags := d.drags.record button player (seen ++ [slot]) }) (seen ++ [slot])
      (by simp [DragTable.slots_record]) (fun s mem => covered s (.tail _ mem)) (by simpa using fresh)
    simp only [List.map_cons, replies, after, List.foldl_cons, added]
    refine ⟨?_, ?_⟩
    · rw [nothing]
      rfl
    · simpa [after] using all

/-- A drag is conveyed by packets that start it anew, so no slot from before is in it. -/
theorem Reads.conveys_drag (reads : d.Reads size) {slots : List Nat} (may : button = .middle → mode = .creative)
    (inside : ∀ slot ∈ slots, slot < size) (once : slots.Nodup) :
    d.Conveys player mode (Action.drag button slots).packets (.drag button slots) := by
  have started := stroke?_stroke player may .start Packet.outside
  have finished := stroke?_stroke player may .finish Packet.outside
  have reads' := reads.forget button player
  have empty : ({ d with drags := d.drags.forget button player }).drags.slots button player = [] := by
    simp [DragTable.slots_forget]
  obtain ⟨nothing, all⟩ := replies_strokes may slots [] empty (fun slot mem => reads'.covers (inside slot mem)) once
  refine ⟨slots.length + 1, ?_⟩
  simp only [Action.packets, List.map_cons, List.map_append, List.map_map, List.cons_append, List.map_nil]
  rw [replies, replies_append, serve_of_stroke? started]
  simp only [Function.comp_def, nothing, replies, serve_of_stroke? finished, all]
  rfl

/-- **Expressiveness.** Every allowed action has packets that convey it, whatever the decoder was sent before. -/
theorem Reads.conveys (reads : d.Reads size) (allowed : a.Allowed size mode) (windowed : a.ofCreativeInventory = false)
    (once : ∀ button slots, a = .drag button slots → slots.Nodup) (player : Nat) :
    d.Conveys player mode a.packets a := by
  have covered (slot : Nat) (mem : slot ∈ a.slots) : d.covers slot = true := reads.covers (allowed.slots slot mem)
  cases a with
  | drag button slots =>
    refine reads.conveys_drag (fun middle => allowed.creative ?_) allowed.slots (once button slots rfl)
    rw [middle]
    rfl
  | click button slot =>
    have here := covered slot (.head _)
    cases button with
    | left => exact conveys_of_slotAction nofun here rfl
    | right => exact conveys_of_slotAction nofun here rfl
    | middle =>
      have creative := allowed.creative rfl
      exact conveys_of_slotAction nofun here (by rw [slotAction, if_pos creative])
  | shift secondary slot =>
    have here := covered slot (.head _)
    cases secondary <;> exact conveys_of_slotAction nofun here rfl
  | dropSlot slot all =>
    have here := covered slot (.head _)
    cases all <;> exact conveys_of_slotAction nofun here rfl
  | collect slot => exact conveys_of_slotAction nofun (covered slot (.head _)) rfl
  | offhandSwap slot => exact conveys_of_slotAction nofun (covered slot (.head _)) rfl
  | hotbarSwap hotbar slot =>
    have key := Action.lt_of_badHotbar?_eq_none allowed.hotbar
    refine conveys_of_slotAction nofun (covered slot (.head _)) ?_
    simp only [slotAction]
    rw [if_pos (by omega), Int.toNat_natCast]
  | dropCursor button => cases button <;> exact ⟨0, rfl⟩
  | creativeSet => cases windowed
  | creativeDrop => cases windowed

/-- Packets mean allowed actions only. -/
theorem Reads.allowed_of_mem_replies (reads : d.Reads size) {packets : List Packet}
    (mem : .ok (some a) ∈ d.replies (packets.map (.click player mode))) : a.Allowed size mode := by
  induction packets generalizing d with
  | nil => cases mem
  | cons q packets ih =>
    simp only [List.map_cons, replies, List.mem_cons] at mem
    rcases mem with first | later
    · obtain ⟨action?, d', run, -, allowed⟩ := decode_reads reads player mode q
      rw [serve, outcome_of_run run] at first
      cases first
      exact allowed a rfl
    · exact ih (reads.after player mode q) later

end

end Decoder

/-- A decoder for the clicked inventory reads the whole window, unless this is a player inventory that is clicked as a
container. -/
theorem Window.sizeFor_eq_iff {w : Window} (own : w.player.kind = .player) :
    Decoder.sizeFor w.clicked.kind = w.slotCount ↔ ∀ c, w.container = some c → c.kind ≠ .player := by
  unfold slotCount clicked Decoder.sizeFor Inventory.slotCount
  rcases w.container with _ | c
  · simp [own]
  · by_cases same : c.kind = .player
    · simp [same, PlayerLayout.mainSize]
    · simp [same, Nat.add_comm]

namespace Player

variable {p : Player} {c : Option Container}

/-- The slots of the window that packets can name. -/
theorem lt_sizeFor_iff {slots : List Nat} (own : p.inventory.kind = .player)
    (inside : ∀ slot ∈ slots, slot < (p.window c).slotCount) :
    (∀ slot ∈ slots, slot < Decoder.sizeFor (p.window c).clicked.kind) ↔
      ∀ k, c = some k → k.inventory.kind = .player → ∀ slot ∈ slots, slot < Inventory.Kind.player.slotCount := by
  by_cases apart : ∀ k, (p.window c).container = some k → k.kind ≠ .player
  · rw [(Window.sizeFor_eq_iff own).2 apart]
    refine ⟨fun _ k open_ same => absurd same (apart k.inventory ?_), fun _ => inside⟩
    rw [open_]
    rfl
  · push Not at apart
    obtain ⟨inv, open_, same⟩ := apart
    obtain ⟨k, rfl, rfl⟩ := Option.map_eq_some_iff.1 open_
    have size : Decoder.sizeFor (p.window (some k)).clicked.kind = Inventory.Kind.player.slotCount := by
      have clicked : (p.window (some k)).clicked = k.inventory := rfl
      rw [clicked, same]
      rfl
    rw [size]
    exact ⟨fun low k' h _ => low, fun low => low k rfl same⟩

/-- **Sayable actions.** An admitted action is conveyed by packets, from wherever its decoder has got to, unless it names
a main slot of the player while a player inventory is opened as a container. Then no packets mean it. Nowhere else do
decoder and window disagree about the number of slots. -/
theorem sayable_tfae (id : Nat) (p : Player) (own : p.inventory.kind = .player) (c : Option Container)
    (reached : (Decoder.ofInventory (p.window c).clicked).Reachable (p.decoderFor c)) (a : Action)
    (admitted : a.flaw? (p.window c) p.mode = none) (windowed : a.ofCreativeInventory = false)
    (once : ∀ button slots, a = .drag button slots → slots.Nodup) :
    [∃ packets, (∀ q ∈ packets, q.Fits) ∧ (p.decoderFor c).Conveys id p.mode packets a,
      ∃ packets : List Packet, .ok (some a) ∈ (p.decoderFor c).replies (packets.map (.click id p.mode)),
      ∀ k, c = some k → k.inventory.kind = .player →
        ∀ slot ∈ a.slots, slot < Inventory.Kind.player.slotCount].TFAE ∧
    ((p.decoderFor c).windowSize = .ok (p.window c).slotCount ↔ ∀ k, c = some k → k.inventory.kind ≠ .player) := by
  have reads := reached.reads (Decoder.reads_ofInventory _)
  have inWindow := Action.flaw?_eq_none_iff.1 admitted
  have nameable := lt_sizeFor_iff own inWindow.slots
  constructor
  · tfae_have 1 → 2 := fun ⟨packets, _, conveys⟩ => ⟨packets, conveys.mem_replies⟩
    tfae_have 2 → 3 := fun ⟨packets, mem⟩ => nameable.1 (reads.allowed_of_mem_replies mem).slots
    tfae_have 3 → 1 := by
      intro named
      have allowed : a.Allowed (Decoder.sizeFor (p.window c).clicked.kind) p.mode :=
        { inWindow with slots := nameable.2 named }
      exact ⟨a.packets, fun q mem => allowed.packets_fit (Decoder.sizeFor_le _) mem,
        reads.conveys allowed windowed once id⟩
    tfae_finish
  · rw [reads.window, Except.ok.injEq, Window.sizeFor_eq_iff own]
    cases c <;> simp [window, scene]

/-- A drag over the first and the last slot of a hopper's window is conveyed while another drag is pending. -/
theorem sayable_tfae_pending :
    let fresh := Container.ofInventory (.empty .hopper)
    let begun := (Decoder.decode 0 .survival (.stroke .left .slot 7)).outcome fresh.decoder
    let hopper : Container := { fresh with decoder := begun.2 }
    let p := Player.ofInventory (.empty .player) (.single .stone) .survival
    hopper.decoder.drags.slots .left 0 = [7] ∧
      (Action.drag .left [0, 40]).flaw? (p.window (some hopper)) .survival = none ∧
      (∃ packets, (∀ q ∈ packets, q.Fits) ∧ hopper.decoder.Conveys 0 .survival packets (.drag .left [0, 40])) ∧
      hopper.decoder.windowSize = .ok 41 := by
  intro fresh begun hopper p
  have reached : (Decoder.ofInventory (p.window (some hopper)).clicked).Reachable (p.decoderFor (some hopper)) :=
    .decode 0 .survival _ .start
  have admitted : (Action.drag .left [0, 40]).flaw? (p.window (some hopper)) .survival = none := by decide
  obtain ⟨equivalent, agree⟩ := sayable_tfae 0 p rfl (some hopper) reached (.drag .left [0, 40]) admitted rfl
    (by rintro button slots ⟨⟩; decide)
  have apart (k : Container) (same : some hopper = some k) : k.inventory.kind ≠ .player := by
    cases same
    decide
  refine ⟨by decide, admitted, (equivalent.out 0 2).2 fun k same kind => absurd kind (apart k same), agree.2 apart⟩

/-- Window slot 50 is a main slot of a player who has a player inventory open. The admission check passes a click on it,
but no packets mean this click. -/
theorem unsayable_past_player_slots :
    let opened := Container.ofInventory (.empty .player)
    let p := Player.ofInventory (.empty .player) .empty .survival
    (Action.click .left 50).flaw? (p.window (some opened)) .survival = none ∧
      ∀ packets : List Packet, .ok (some (.click .left 50)) ∉ opened.decoder.replies (packets.map (.click 0 .survival)) := by
  intro opened p
  refine ⟨by decide, fun packets mem => ?_⟩
  have reads : opened.decoder.Reads 46 := Decoder.reads_ofInventory (.empty .player)
  have inside := (reads.allowed_of_mem_replies mem).slots 50 (.head _)
  omega

end Player

end InventoryClicks
