import Syrup.HashMap
import Syrup.Inventory
import Syrup.Wz

/-!
# Characters and clients

A character (`character.h`) holds worn equipment, one inventory of equipment, and
four inventories of stacks: use, set-up, etc. and cash. Next to them it keeps
values derived from them: the sums `estr`, …, `eMaxMp` of the bonuses of what is
worn, and `activeProjectile`, the slot of the use inventory from which shots are
taken (`255` if there is none). Its quests, the monsters and items still to be
found for them, its completed quests and its skills are hash sets.

A client (`struct Client`) is a character with what the functions of `client.c`
need beside it: the shop it is in, the stats that have changed since they were last
sent, the quest and the non-player character of the running script, and the
packets that have been written to its session.
-/

namespace Syrup

/-- `struct Quest`. -/
structure Quest where
  id : UInt16
  progressCount : UInt8
  progress : Vector Int32 5
  deriving DecidableEq

/-- `struct MonsterRefCount`. -/
structure MonsterRefCount where
  id : UInt32
  refCount : Int8
  deriving DecidableEq

/-- `struct CompletedQuest`. -/
structure CompletedQuest where
  id : UInt16
  time : Int64
  deriving DecidableEq

/-- `struct QuestInfoProgress`. -/
structure QuestInfoProgress where
  id : UInt16
  value : String
  deriving DecidableEq

/-- `struct Skill`. -/
structure Skill where
  id : UInt32
  level : Int8
  masterLevel : Int8
  deriving DecidableEq

/-- `struct MonsterBookEntry`. -/
structure MonsterBookEntry where
  id : UInt32
  count : Int8
  deriving DecidableEq

/-- `struct KeyMapEntry`. -/
structure KeyMapEntry where
  type : UInt8
  action : UInt32
  deriving DecidableEq, Inhabited

/-- `KEYMAP_MAX_KEYS`. -/
abbrev keyMapMaxKeys : ℕ := 90

/-- The fields of `struct Character` by which it is told from others: who it is, where it is and
    what it looks like. -/
structure Persona where
  id : UInt32
  accountId : UInt32
  map : UInt32
  spawnPoint : UInt8
  fame : Int16
  skin : UInt8
  face : UInt32
  hair : UInt32
  deriving DecidableEq, Inhabited

namespace Env

variable (env : Env)

/-- The keys of `quests`. -/
def quests : Hashing Quest UInt16 := ⟨Quest.id, env.hash16⟩

/-- The keys of `monsterQuests`. -/
def monsterQuests : Hashing MonsterRefCount UInt32 := ⟨MonsterRefCount.id, env.hash32⟩

/-- The keys of `itemQuests`. -/
def itemQuests : Hashing UInt32 UInt32 := ⟨id, env.hash32⟩

/-- The keys of `questInfos`. -/
def questInfos : Hashing QuestInfoProgress UInt16 := ⟨QuestInfoProgress.id, env.hash16⟩

/-- The keys of `completedQuests`. -/
def completedQuests : Hashing CompletedQuest UInt16 := ⟨CompletedQuest.id, env.hash16⟩

/-- The keys of `skills`. -/
def skills : Hashing Skill UInt32 := ⟨Skill.id, env.hash32⟩

/-- The keys of `monsterBook`. -/
def monsterBook : Hashing MonsterBookEntry UInt32 := ⟨MonsterBookEntry.id, env.hash32⟩

end Env

/-- The number of inventories of stacks. -/
abbrev inventoryCount : ℕ := 4

/-- The use inventory. -/
def useInventory : Fin inventoryCount := 0

/-- `struct Character`. -/
structure Character where
  persona : Persona
  level : UInt8
  job : UInt16
  str : Int16
  dex : Int16
  int_ : Int16
  luk : Int16
  maxHp : Int16
  hp : Int16
  maxMp : Int16
  mp : Int16
  ap : Int16
  sp : Int16
  exp : Int32
  estr : Int32
  edex : Int32
  eint : Int32
  eluk : Int32
  eMaxHp : Int32
  eMaxMp : Int32
  mesos : Int32
  equippedEquipment : Fin equipSlotCount → Cell Equipment
  equipmentInventory : Inventory Equipment
  inventory : Fin inventoryCount → Inventory InventoryItem
  activeProjectile : UInt8
  quests : HashSet Quest
  monsterQuests : HashSet MonsterRefCount
  itemQuests : HashSet UInt32
  questInfos : HashSet QuestInfoProgress
  completedQuests : HashSet CompletedQuest
  skills : HashSet Skill
  monsterBook : HashSet MonsterBookEntry
  keyMap : Fin keyMapMaxKeys → KeyMapEntry

/-- A character of level 1 that has nothing. -/
instance : Inhabited Character where
  default :=
    { persona := default, level := 1, job := 0, str := 4, dex := 4, int_ := 4, luk := 4, maxHp := 50, hp := 50,
      maxMp := 5, mp := 5, ap := 9, sp := 0, exp := 0, estr := 0, edex := 0, eint := 0, eluk := 0,
      eMaxHp := 0, eMaxMp := 0, mesos := 0, equippedEquipment := fun _ => ⟨true, default⟩,
      equipmentInventory := .empty, inventory := fun _ => .empty, activeProjectile := 255,
      quests := default, monsterQuests := default, itemQuests := default, questInfos := default,
      completedQuests := default, skills := default, monsterBook := default,
      keyMap := fun _ => default }

/-- `struct InventoryModify`: a change of the inventories that the client is told
    of. -/
inductive InventoryModify
  | addItem (inventory : UInt8) (slot : Int16) (item : InventoryItem)
  | addEquip (inventory : UInt8) (slot : Int16) (equip : Equipment)
  | modify (inventory : UInt8) (slot quantity : Int16)
  | move (inventory : UInt8) (slot dst : Int16)
  | remove (inventory : UInt8) (slot : Int16)
  deriving DecidableEq

/-- The packets that are written to the session, or broadcast to the room. -/
inductive Packet
  | modifyItems (mods : List InventoryModify)
  | itemGainInChat (id : UInt32) (count : Int16)
  | inventoryFullNotification
  | statChange (stats : UInt32) (values : List ℤ)
  | updateCharLook
  | shopActionResponse (code : UInt8)
  | expGain (exp : Int32)
  | expGainInChat (exp : Int32)
  | mesoGain (mesos : Int32)
  | mesoGainInChat (mesos : Int32)
  | showEffect (effect : UInt8)
  | showForeignEffect (effect : UInt8)
  | addCard (full : Bool) (id : UInt32) (count : Int8)
  | updateSkill (id : UInt32) (level masterLevel : Int8)
  | updateQuest (qid : UInt16) (progress : List Int32)
  | updateQuestCompletionTime (qid : UInt16) (time : Int64)
  | startQuest (qid : UInt16) (npc : UInt32)
  | endQuest (qid : UInt16) (npc : UInt32) (nextQuest : UInt16)
  | forfeitQuest (qid : UInt16)
  | popupMessage (message : String)
  deriving DecidableEq

/-- `struct Client`. -/
structure Client where
  character : Character
  shop : UInt32
  stats : UInt32
  npc : UInt32
  qid : UInt16
  sent : List Packet

/-- The `shop` of a client that is in none, `-1`. -/
def noShop : UInt32 := 0xFFFFFFFF

/-- The `activeProjectile` of a character without one, `-1`. -/
def noProjectile : UInt8 := 255

/-- A client that has a character, is in no shop, and has been sent nothing. -/
def Client.new (chr : Character) : Client where
  character := chr
  shop := noShop
  stats := 0
  npc := 0
  qid := 0
  sent := []

/-- `session_write`, and its like for a room. -/
def Client.send (c : Client) (p : Packet) : Client := { c with sent := c.sent ++ [p] }

/-- Rewrites the character of a client. -/
def Client.setCharacter (c : Client) (chr : Character) : Client := { c with character := chr }

@[simp] theorem Client.character_setCharacter (c : Client) (chr : Character) :
    (c.setCharacter chr).character = chr := rfl

@[simp] theorem Client.character_send (c : Client) (p : Packet) :
    (c.send p).character = c.character := rfl

@[simp] theorem Client.shop_send (c : Client) (p : Packet) : (c.send p).shop = c.shop := rfl

/-! ## Effective stats -/

/-- A stat with its bonus, at most `max`. -/
def effective (base : Int16) (extra : Int32) (max : ℤ) : Int16 :=
  if base.toInt > max - extra.toInt then Int16.ofInt max
  else Int16.ofInt (base.toInt + extra.toInt)

/-- `HP_MAX`. -/
def hpMax : ℤ := 30000

/-- `MP_MAX`. -/
def mpMax : ℤ := 30000

/-- `character_get_effective_int`. -/
def characterGetEffectiveInt (chr : Character) : Int16 := effective chr.int_ chr.eint 32767

/-- `character_get_effective_hp`. -/
def characterGetEffectiveHp (chr : Character) : Int16 := effective chr.maxHp chr.eMaxHp hpMax

/-- `character_get_effective_mp`. -/
def characterGetEffectiveMp (chr : Character) : Int16 := effective chr.maxMp chr.eMaxMp mpMax

/-! ## Writing to a character -/

namespace Character

variable (chr : Character)

/-- Rewrites an inventory of stacks. -/
def setInventory (k : Fin inventoryCount) (inv : Inventory InventoryItem) : Character :=
  { chr with inventory := Function.update chr.inventory k inv }

/-- Rewrites a slot of an inventory of stacks. -/
def setItem (k : Fin inventoryCount) (i : Fin maxItemCount) (c : Cell InventoryItem) : Character :=
  chr.setInventory k ((chr.inventory k).set i c)

/-- Rewrites the inventory of equipment. -/
def setEquipmentInventory (inv : Inventory Equipment) : Character :=
  { chr with equipmentInventory := inv }

/-- Rewrites a slot of the inventory of equipment. -/
def setEquip (i : Fin maxItemCount) (c : Cell Equipment) : Character :=
  chr.setEquipmentInventory (chr.equipmentInventory.set i c)

/-- Rewrites `activeProjectile`. -/
def setActiveProjectile (a : UInt8) : Character := { chr with activeProjectile := a }

/-- Rewrites a slot of the worn equipment. -/
def setWorn (i : Fin equipSlotCount) (c : Cell Equipment) : Character :=
  { chr with equippedEquipment := Function.update chr.equippedEquipment i c }

/-- What is worn. -/
def worn (i : Fin equipSlotCount) : Option Equipment := (chr.equippedEquipment i).get?

/-- The item id read from the weapon slot, whether or not it is empty. -/
def weaponId : UInt32 := (chr.equippedEquipment weaponIndex).val.item.itemId

variable {chr}

@[simp] theorem inventory_setInventory_self (k : Fin inventoryCount)
    (inv : Inventory InventoryItem) : (chr.setInventory k inv).inventory k = inv :=
  Function.update_self ..

theorem inventory_setInventory_of_ne {k k' : Fin inventoryCount} (h : k' ≠ k)
    (inv : Inventory InventoryItem) : (chr.setInventory k inv).inventory k' = chr.inventory k' :=
  Function.update_of_ne h ..

@[simp] theorem inventory_setItem_self (k : Fin inventoryCount) (i : Fin maxItemCount)
    (c : Cell InventoryItem) : (chr.setItem k i c).inventory k = (chr.inventory k).set i c :=
  Function.update_self ..

theorem inventory_setItem_of_ne {k k' : Fin inventoryCount} (h : k' ≠ k) (i : Fin maxItemCount)
    (c : Cell InventoryItem) : (chr.setItem k i c).inventory k' = chr.inventory k' :=
  Function.update_of_ne h ..

@[simp] theorem equipmentInventory_setInventory (k : Fin inventoryCount)
    (inv : Inventory InventoryItem) :
    (chr.setInventory k inv).equipmentInventory = chr.equipmentInventory := rfl

@[simp] theorem equippedEquipment_setInventory (k : Fin inventoryCount)
    (inv : Inventory InventoryItem) :
    (chr.setInventory k inv).equippedEquipment = chr.equippedEquipment := rfl

@[simp] theorem inventory_setActiveProjectile (a : UInt8) :
    (chr.setActiveProjectile a).inventory = chr.inventory := rfl

@[simp] theorem equipmentInventory_setActiveProjectile (a : UInt8) :
    (chr.setActiveProjectile a).equipmentInventory = chr.equipmentInventory := rfl

@[simp] theorem equippedEquipment_setActiveProjectile (a : UInt8) :
    (chr.setActiveProjectile a).equippedEquipment = chr.equippedEquipment := rfl

@[simp] theorem activeProjectile_setActiveProjectile (a : UInt8) :
    (chr.setActiveProjectile a).activeProjectile = a := rfl

theorem worn_congr {chr' : Character} (h : chr'.equippedEquipment = chr.equippedEquipment) :
    chr'.worn = chr.worn := by
  funext i
  rw [worn, worn, h]

/-- Rewriting a slot rewrites what is worn there. -/
theorem worn_of_update {chr' : Character} {i : Fin equipSlotCount} {c : Cell Equipment}
    (h : chr'.equippedEquipment = Function.update chr.equippedEquipment i c) :
    chr'.worn = Function.update chr.worn i c.get? := by
  funext j
  rw [worn, h]
  exact Function.apply_update (fun _ => Cell.get?) chr.equippedEquipment i c j

end Character

/-! ## Numbers that are sent or received -/

/-- The inventory a number from `2` to `5` stands for. -/
def inventoryOfNumber (n : UInt8) : Option (Fin inventoryCount) :=
  if h : 2 ≤ n.toNat ∧ n.toNat < 2 + inventoryCount then some ⟨n.toNat - 2, by omega⟩ else none

/-- The number of an inventory. -/
def inventoryNumber (k : Fin inventoryCount) : UInt8 := UInt8.ofNat (k.val + 2)

/-- The number of a slot. -/
def slotNumber (i : Fin maxItemCount) : Int16 := Int16.ofNat (i.val + 1)

/-- A slot number in the memory of an inventory. -/
def itemIndex (slot : UInt8) : Exec (Fin maxItemCount) :=
  if h : slot.toNat < maxItemCount then .ok ⟨slot.toNat, h⟩ else .error .outOfBounds

/-- The inventory of the stacks of an item, `inventory[(uint8_t)(id / 1000000) - 2]`. -/
def inventoryOfId (id : UInt32) : Exec (Fin inventoryCount) :=
  if h : ((id / 1000000).toUInt8 - 2).toNat < inventoryCount then .ok ⟨_, h⟩
  else .error .outOfBounds

/-- Whether an item is an equipment, by the millions of its id. -/
def isEquipId (id : UInt32) : Bool := (id / 1000000).toUInt8 == 1

end Syrup
