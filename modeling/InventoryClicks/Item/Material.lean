import InventoryClicks.Item.Equipment

/-!
# Materials

What a stack is made of. A material fixes how many items share a slot and where the item is worn.
-/

namespace InventoryClicks

inductive Material where
  | air | stone | cobblestone | dirt | sand | oakLog | oakPlanks | stick | coal | ironIngot | goldIngot
  | diamond | apple | bread | arrow | egg | snowball | enderPearl | bucket | waterBucket | glassBottle
  | potion | blazePowder | netherWart | bow | ironSword | diamondPickaxe | shield | carvedPumpkin
  | leatherHelmet | leatherChestplate | leatherLeggings | leatherBoots | ironHelmet | ironChestplate
  | ironLeggings | ironBoots | diamondHelmet | diamondChestplate | diamondLeggings | diamondBoots | elytra
  deriving DecidableEq, Repr

namespace Material

/-- Every material, in the order of declaration. -/
def all : List Material := [
  .air, .stone, .cobblestone, .dirt, .sand, .oakLog, .oakPlanks, .stick, .coal, .ironIngot, .goldIngot,
  .diamond, .apple, .bread, .arrow, .egg, .snowball, .enderPearl, .bucket, .waterBucket, .glassBottle,
  .potion, .blazePowder, .netherWart, .bow, .ironSword, .diamondPickaxe, .shield, .carvedPumpkin,
  .leatherHelmet, .leatherChestplate, .leatherLeggings, .leatherBoots, .ironHelmet, .ironChestplate,
  .ironLeggings, .ironBoots, .diamondHelmet, .diamondChestplate, .diamondLeggings, .diamondBoots, .elytra]

def name : Material → String
  | .air => "Air"
  | .stone => "Stone"
  | .cobblestone => "Cobblestone"
  | .dirt => "Dirt"
  | .sand => "Sand"
  | .oakLog => "OakLog"
  | .oakPlanks => "OakPlanks"
  | .stick => "Stick"
  | .coal => "Coal"
  | .ironIngot => "IronIngot"
  | .goldIngot => "GoldIngot"
  | .diamond => "Diamond"
  | .apple => "Apple"
  | .bread => "Bread"
  | .arrow => "Arrow"
  | .egg => "Egg"
  | .snowball => "Snowball"
  | .enderPearl => "EnderPearl"
  | .bucket => "Bucket"
  | .waterBucket => "WaterBucket"
  | .glassBottle => "GlassBottle"
  | .potion => "Potion"
  | .blazePowder => "BlazePowder"
  | .netherWart => "NetherWart"
  | .bow => "Bow"
  | .ironSword => "IronSword"
  | .diamondPickaxe => "DiamondPickaxe"
  | .shield => "Shield"
  | .carvedPumpkin => "CarvedPumpkin"
  | .leatherHelmet => "LeatherHelmet"
  | .leatherChestplate => "LeatherChestplate"
  | .leatherLeggings => "LeatherLeggings"
  | .leatherBoots => "LeatherBoots"
  | .ironHelmet => "IronHelmet"
  | .ironChestplate => "IronChestplate"
  | .ironLeggings => "IronLeggings"
  | .ironBoots => "IronBoots"
  | .diamondHelmet => "DiamondHelmet"
  | .diamondChestplate => "DiamondChestplate"
  | .diamondLeggings => "DiamondLeggings"
  | .diamondBoots => "DiamondBoots"
  | .elytra => "Elytra"

/-- Most items of this material that one slot holds. -/
def maxStack : Material → Nat
  | .egg | .snowball | .enderPearl | .bucket => 16
  | .waterBucket | .potion | .bow | .ironSword | .diamondPickaxe | .shield | .leatherHelmet
  | .leatherChestplate | .leatherLeggings | .leatherBoots | .ironHelmet | .ironChestplate | .ironLeggings
  | .ironBoots | .diamondHelmet | .diamondChestplate | .diamondLeggings | .diamondBoots | .elytra => 1
  | _ => 64

/-- Place this material is worn or held in, when it has one. -/
def equipment? : Material → Option Equipment
  | .carvedPumpkin | .leatherHelmet | .ironHelmet | .diamondHelmet => some .head
  | .leatherChestplate | .ironChestplate | .diamondChestplate | .elytra => some .chest
  | .leatherLeggings | .ironLeggings | .diamondLeggings => some .legs
  | .leatherBoots | .ironBoots | .diamondBoots => some .feet
  | .shield => some .offHand
  | _ => none

theorem maxStack_pos (m : Material) : 0 < m.maxStack := by cases m <;> decide

theorem maxStack_le (m : Material) : m.maxStack ≤ 64 := by cases m <;> decide

end Material

end InventoryClicks
