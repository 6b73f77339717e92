import InventoryClicks.Click.Action
import InventoryClicks.Click.Admission
import InventoryClicks.Click.Decoder
import InventoryClicks.Click.Draft
import InventoryClicks.Click.DragTable
import InventoryClicks.Click.Hooks
import InventoryClicks.Click.Menu
import InventoryClicks.Click.Notice
import InventoryClicks.Click.Outcome
import InventoryClicks.Click.Packet
import InventoryClicks.Click.Routing
import InventoryClicks.Click.Turn
import InventoryClicks.Fault
import InventoryClicks.Inventory.Basic
import InventoryClicks.Inventory.HeldSlot
import InventoryClicks.Inventory.Kind
import InventoryClicks.Inventory.PlayerLayout
import InventoryClicks.Inventory.Region
import InventoryClicks.Inventory.ThroughView
import InventoryClicks.Item.Equipment
import InventoryClicks.Item.Material
import InventoryClicks.Item.Stack
import InventoryClicks.Item.StackingRule
import InventoryClicks.NatMap
import InventoryClicks.Proofs.Acceptance
import InventoryClicks.Proofs.Accounts
import InventoryClicks.Proofs.Admission
import InventoryClicks.Proofs.Agree
import InventoryClicks.Proofs.Atomicity
import InventoryClicks.Proofs.Balance
import InventoryClicks.Proofs.Conservation
import InventoryClicks.Proofs.Decoder
import InventoryClicks.Proofs.Draft
import InventoryClicks.Proofs.DragHistory
import InventoryClicks.Proofs.Ends
import InventoryClicks.Proofs.Equipment
import InventoryClicks.Proofs.Footprint
import InventoryClicks.Proofs.Hooks
import InventoryClicks.Proofs.Independence
import InventoryClicks.Proofs.Legal
import InventoryClicks.Proofs.LegalSessions
import InventoryClicks.Proofs.Link
import InventoryClicks.Proofs.Menu
import InventoryClicks.Proofs.Mirror
import InventoryClicks.Proofs.Overlay
import InventoryClicks.Proofs.Overwrite
import InventoryClicks.Proofs.Process
import InventoryClicks.Proofs.Safety
import InventoryClicks.Proofs.Sayable
import InventoryClicks.Proofs.Scene
import InventoryClicks.Proofs.Serving
import InventoryClicks.Proofs.Staging
import InventoryClicks.Proofs.Standard
import InventoryClicks.Proofs.Transfer
import InventoryClicks.Proofs.Turn
import InventoryClicks.Proofs.Unhooked
import InventoryClicks.Proofs.ViewLists
import InventoryClicks.Proofs.Weight
import InventoryClicks.Session.Basic
import InventoryClicks.Session.Player
import InventoryClicks.SlotView.Basic
import InventoryClicks.SlotView.Expr
import InventoryClicks.SlotView.Meaning
import InventoryClicks.StepM
import InventoryClicks.Transfer.Basic
import InventoryClicks.Transfer.OnInventory
import InventoryClicks.Transfer.Operator
import InventoryClicks.Transfer.SlotStore
import InventoryClicks.Window.Basic
import InventoryClicks.World.Basic
import InventoryClicks.World.Bulletin
import InventoryClicks.World.Client
import InventoryClicks.Proofs.InPlace
import InventoryClicks.Proofs.TransferTotals
import InventoryClicks.Proofs.Dealing
import InventoryClicks.Proofs.Adding
import InventoryClicks.Proofs.Filling
import InventoryClicks.Proofs.Draining
import InventoryClicks.Proofs.Taking
import InventoryClicks.Proofs.WindowSlots
import InventoryClicks.Proofs.Shifting
import InventoryClicks.Proofs.Wearing
import InventoryClicks.Proofs.Collecting
import InventoryClicks.Proofs.Dragging
import InventoryClicks.Proofs.Settling
import InventoryClicks.Proofs.Edits
import InventoryClicks.Proofs.Minimal
import InventoryClicks.Proofs.Writes
import InventoryClicks.Proofs.Exchanging
import InventoryClicks.Proofs.Contention
import InventoryClicks.Proofs.Applying
import InventoryClicks.Proofs.Malformed
import InventoryClicks.Proofs.BuiltViews
import InventoryClicks.Proofs.JoinedViews
import InventoryClicks.Proofs.ThroughViews
import InventoryClicks.Proofs.ViewArithmetic
import InventoryClicks.Proofs.OverfullViews
import InventoryClicks.Proofs.RawStacks
import InventoryClicks.Proofs.Contents
import InventoryClicks.Proofs.KeptStacks
import InventoryClicks.Proofs.InventoryOps
import InventoryClicks.Proofs.NormalRuns
