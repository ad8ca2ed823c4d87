import Syrup.Client.Equip

/-!
# Logging in

The part of `client_resume` that makes a character of what the database has saved of it
(`SavedCharacter`). The bonuses of what is worn are summed up, the first projectile is
looked for, and the monsters and the items that are still to be found are gathered
from the quests.

A slot is written field by field: the fields that are not written keep what was in the memory
of the client before.
-/

namespace Syrup

/-! ## What is saved -/

/-- `struct DatabaseCharacterEquipment`. -/
structure SavedEquipment where
  id : UInt64
  equipId : UInt64
  itemNumber : UInt64
  itemId : UInt32
  flags : UInt8
  level : Int8
  slots : Int8
  str : Int16
  dex : Int16
  int_ : Int16
  luk : Int16
  hp : Int16
  mp : Int16
  atk : Int16
  matk : Int16
  def_ : Int16
  mdef : Int16
  acc : Int16
  avoid : Int16
  hands : Int16
  speed : Int16
  jump : Int16
  expiration : Int64
  owner : List UInt8
  giver : List UInt8
  deriving DecidableEq, Inhabited

/-- A saved stack. -/
structure SavedItem where
  slot : UInt8
  count : Int16
  itemNumber : UInt64
  itemId : UInt32
  flags : UInt8
  expiration : Int64
  owner : List UInt8
  giver : List UInt8
  deriving DecidableEq, Inhabited

/-- `struct DatabaseProgress`. -/
structure SavedProgress where
  questId : UInt16
  progressId : UInt32
  progress : Int16
  deriving DecidableEq

/-- `MYSQL_TIME`, as far as it is read. -/
structure SavedTime where
  year : ℤ
  month : ℤ
  day : ℤ
  hour : ℤ
  minute : ℤ
  second : ℤ
  deriving DecidableEq

/-- `struct DatabaseCompletedQuest`. -/
structure SavedCompletedQuest where
  id : UInt16
  time : SavedTime
  deriving DecidableEq

/-- `struct DatabaseKeyMapEntry`. -/
structure SavedKey where
  key : UInt32
  type : UInt8
  action : UInt32
  deriving DecidableEq

/-- `res->getCharacter`. -/
structure SavedCharacter where
  map : UInt32
  spawnPoint : UInt8
  fame : Int16
  skin : UInt8
  face : UInt32
  hair : UInt32
  level : UInt8
  job : UInt16
  str : Int16
  dex : Int16
  int_ : Int16
  luk : Int16
  maxHp : Int16
  hp : Int16
  maxMp : Int16
  mp : Int16
  ap : Int16
  sp : Int16
  exp : Int32
  mesos : Int32
  equipSlots : UInt8
  useSlots : UInt8
  setupSlots : UInt8
  etcSlots : UInt8
  equippedEquipment : List SavedEquipment
  equipmentInventory : List (UInt8 × SavedEquipment)
  inventoryItems : List SavedItem
  quests : List UInt16
  progresses : List SavedProgress
  questInfos : List QuestInfoProgress
  completedQuests : List SavedCompletedQuest
  skills : List Skill
  monsterBook : List MonsterBookEntry
  keyMap : List SavedKey
  deriving DecidableEq, Inhabited

/-! ## Equipment and stacks -/

/-- The fields that are written to a slot with equipment. -/
def SavedEquipment.load (e : SavedEquipment) (cash : Bool) (old : Equipment) : Equipment where
  id := e.id
  equipId := e.equipId
  item :=
    { old.item with id := e.itemNumber, itemId := e.itemId, ownerLength := 0,
                    flags := e.flags.toUInt32, expiration := -1, giftFromLength := 0 }
  level := e.level
  slots := e.slots
  str := e.str
  dex := e.dex
  int_ := e.int_
  luk := e.luk
  hp := e.hp
  mp := e.mp
  atk := e.atk
  matk := e.matk
  def_ := e.def_
  mdef := e.mdef
  acc := e.acc
  avoid := e.avoid
  hands := 0
  speed := e.speed
  jump := e.jump
  cash := cash

/-- The fields that are written to a slot with a stack. -/
def SavedItem.load (it : SavedItem) (old : InventoryItem) : InventoryItem where
  item :=
    { old.item with id := it.itemNumber, itemId := it.itemId, flags := it.flags.toUInt32,
                    ownerLength := 0, giftFromLength := 0 }
  quantity := it.count

/-- An inventory of so many slots, all of them emptied. -/
def Inventory.reset {α : Type*} (inv : Inventory α) (slotCount : UInt8) : Exec (Inventory α) :=
  if h : slotCount.toNat ≤ maxItemCount then
    .ok { slotCount := slotCount.toNat, slotCount_le := h,
          items := fun i => if i.val < slotCount.toNat then (inv.items i).emptied else inv.items i }
  else .error .outOfBounds

/-- One round of the loop loading what is worn. -/
def loadWorn (env : Env) (chr : Character) (e : SavedEquipment) : Exec Character := do
  let i ← equipIndex (equipSlotFromId e.itemId)
  let info ← Exec.deref (env.equipInfo e.itemId)
  let equip := e.load info.cash (chr.equippedEquipment i).val
  return (chr.setWorn i (.full equip)).addBonuses equip

/-- One round of the loop loading what is carried. -/
def loadCarried (env : Env) (chr : Character) (e : UInt8 × SavedEquipment) : Exec Character := do
  let i ← itemIndex e.1
  let info ← Exec.deref (env.equipInfo e.2.itemId)
  return chr.setEquip i (.full (e.2.load info.cash (chr.equipmentInventory.items i).val))

/-- One round of the loop loading stacks. -/
def loadStack (chr : Character) (it : SavedItem) : Exec Character := do
  let k ← inventoryOfId it.itemId
  let i ← itemIndex it.slot
  return chr.setItem k i (.full (it.load ((chr.inventory k).items i).val))

/-- The stats of a character that are saved; no bonuses, and nothing worn. -/
def loadStats (s : SavedCharacter) (chr : Character) : Character :=
  { chr with
    level := s.level, job := s.job, exp := s.exp, maxHp := s.maxHp, eMaxHp := 0, hp := s.hp,
    maxMp := s.maxMp, eMaxMp := 0, mp := s.mp, str := s.str, estr := 0, dex := s.dex, edex := 0,
    int_ := s.int_, eint := 0, luk := s.luk, eluk := 0, ap := s.ap, sp := s.sp, mesos := s.mesos
    equippedEquipment := fun i => (chr.equippedEquipment i).emptied }

/-- Looking for the first projectile. -/
def loadProjectile (chr : Character) : Character :=
  let chr := chr.setActiveProjectile noProjectile
  if (chr.equippedEquipment weaponIndex).isEmpty then chr
  else chr.setActiveProjectile (rescan chr chr.weaponId 0)

/-- The part of the login that is about equipment and stacks. -/
def loadHoldings (env : Env) (s : SavedCharacter) (chr : Character) : Exec Character := do
  let equipInv ← chr.equipmentInventory.reset s.equipSlots
  let use ← (chr.inventory 0).reset s.useSlots
  let setup ← (chr.inventory 1).reset s.setupSlots
  let etc ← (chr.inventory 2).reset s.etcSlots
  let cash ← (chr.inventory 3).reset 252
  let chr := (loadStats s chr).setEquipmentInventory equipInv
  let chr := (((chr.setInventory 0 use).setInventory 1 setup).setInventory 2 etc).setInventory 3 cash
  let chr ← s.equippedEquipment.foldlM (loadWorn env) chr
  let chr ← s.equipmentInventory.foldlM (loadCarried env) chr
  let chr ← s.inventoryItems.foldlM loadStack chr
  return loadProjectile chr

end Syrup
