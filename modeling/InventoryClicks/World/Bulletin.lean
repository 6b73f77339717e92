import InventoryClicks.Inventory.HeldSlot
import InventoryClicks.Click.Turn

/-!
# Bulletins

What an update tells the application: the effects of all its turns, sorted by what they are about, and which
pieces of equipment the turns changed.
-/

namespace InventoryClicks

/-- What an update tells the application, in order. Clients go by their number. -/
structure Bulletin where
  drops : List (Nat × Stack) := []
  resyncs : List Nat := []
  applied : List (Nat × Action × Outcome) := []
  equipment : List (Nat × Equipment × Stack) := []
  notices : List Notice := []
  calls : List HookCall := []
  deriving DecidableEq

namespace Bulletin

/-- Equipment put on, taken off or changed by an outcome. Without a container open, the clicked inventory is the
client's own. -/
def equipmentOf (held : HeldSlot) (viewing : Bool) (outcome : Outcome) : List (Equipment × Stack) :=
  ((if viewing then [] else outcome.changes.entries) ++ outcome.playerChanges.entries).filterMap fun e =>
    (PlayerLayout.equipmentAt? e.1 held.slot).map (·, e.2)

def addEffect (held : HeldSlot) (viewing : Bool) (b : Bulletin) : Effect → Bulletin
  | .drop client stack => { b with drops := b.drops ++ [(client, stack)] }
  | .resync client => { b with resyncs := b.resyncs ++ [client] }
  | .applied client action outcome =>
    { b with
      applied := b.applied ++ [(client, action, outcome)]
      equipment := b.equipment ++ (equipmentOf held viewing outcome).map (client, ·) }

/-- The report of a turn that came to its end. -/
def addReport (held : HeldSlot) (viewing : Bool) (b : Bulletin) (r : Report) : Bulletin :=
  r.effects.foldl (addEffect held viewing)
    { b with notices := b.notices ++ r.notices, calls := b.calls ++ r.calls }

end Bulletin

end InventoryClicks
