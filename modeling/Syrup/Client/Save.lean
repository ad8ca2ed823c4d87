import Syrup.Client.Login
import Syrup.HashMap
import Syrup.Lib.Calendar
import Syrup.Lib.Numbering

/-!
# Saving

A character is saved while it is played, from time to time, and once more when it logs out. Both
ways it takes two requests to the database: one for the ids of the items that have none
(`AllocateIds`), and, after these have been assigned (`assignIds`), one with all that there is to be
saved of the character (`UpdateCharacter`).

The two ways have their own code. The request of the first one is made by
`on_id_allocate_database_unlocked` and the second one by `start_save`; when logging out they are
made by `client_resume`, in its states 1 and 3. Here there is memory for the lists in a request.
-/

namespace Syrup

open Numbering

/-! ## The ids of items -/

/-- The entry of a piece of equipment in a request for ids. -/
structure IdEntry where
  id : UInt64
  equipId : UInt64
  itemId : UInt32
  deriving DecidableEq

/-- An entry in memory that has been set to zero. -/
def IdEntry.zero : IdEntry := ⟨0, 0, 0⟩

/-- The entry of a piece of equipment. -/
def IdEntry.ofEquipment (e : Equipment) : IdEntry := ⟨e.item.id, e.equipId, e.item.itemId⟩

/-- `params.allocateIds`, but for the storage, of which there is nothing. The list `items` is as
    long as `itemCount`; the arrays of equipment have as many entries as are counted. -/
structure AllocateIds where
  id : UInt32
  accountId : UInt32
  equippedCount : ℕ
  equippedEquipment : ℕ → IdEntry
  equipCount : ℕ
  equipmentInventory : ℕ → IdEntry
  items : List UInt32

/-- `res->allocateIds`. -/
structure AllocatedIds where
  items : ℕ → UInt64
  equippedEquipment : ℕ → UInt64
  equipmentInventory : ℕ → UInt64

/-- A stack that has no id. -/
def lacksItemId (c : Cell InventoryItem) : Bool := !c.isEmpty && c.val.item.id == 0

/-- A piece of equipment that has no id. -/
def lacksEquipId (c : Cell Equipment) : Bool := !c.isEmpty && c.val.id == 0

namespace Character

variable (chr : Character)

/-- The slots of stacks, in the order of the loops. -/
def itemPlaces : List (Fin inventoryCount × Fin maxItemCount) :=
  (List.finRange inventoryCount).flatMap fun k => (chr.inventory k).slots.map fun i => (k, i)

/-- The slot of a stack. -/
def itemAt (p : Fin inventoryCount × Fin maxItemCount) : Cell InventoryItem :=
  (chr.inventory p.1).items p.2

/-- The slots of stacks that have no id. -/
def unnumberedItems : List (Fin inventoryCount × Fin maxItemCount) :=
  wanting lacksItemId chr.itemPlaces chr.itemAt

/-- The slots of worn equipment that has no id. -/
def unnumberedWorn : List (Fin equipSlotCount) :=
  wanting lacksEquipId (List.finRange equipSlotCount) chr.equippedEquipment

/-- The slots of carried equipment that has no id. -/
def unnumberedCarried : List (Fin maxItemCount) :=
  wanting lacksEquipId chr.equipmentInventory.slots chr.equipmentInventory.items

/-- The entries of the worn equipment that has no id. -/
def wornEntries : List IdEntry :=
  chr.unnumberedWorn.map fun i => .ofEquipment (chr.equippedEquipment i).val

/-- The entries of the carried equipment that has no id. -/
def carriedEntries : List IdEntry :=
  chr.unnumberedCarried.map fun i => .ofEquipment (chr.equipmentInventory.items i).val

end Character

/-- The loop `array[count] = entry; count++;`. -/
def addEntries (entries : List IdEntry) (array : ℕ → IdEntry) : ℕ × (ℕ → IdEntry) :=
  entries.foldl (fun a e => (a.1 + 1, Function.update a.2 a.1 e)) (0, array)

/-- The request of `on_id_allocate_database_unlocked`. -/
def onIdAllocateDatabaseUnlocked (chr : Character) : AllocateIds :=
  let equipped := addEntries chr.wornEntries fun _ => .zero
  let equip := addEntries chr.carriedEntries fun _ => .zero
  { id := chr.persona.id
    accountId := chr.persona.accountId
    equippedCount := equipped.1
    equippedEquipment := equipped.2
    equipCount := equip.1
    equipmentInventory := equip.2
    items := chr.unnumberedItems.map fun p => (chr.itemAt p).val.item.itemId }

/-- A stack that gets its id. -/
def giveItemId (ids : ℕ → UInt64) (n : ℕ) (c : Cell InventoryItem) : Cell InventoryItem :=
  c.write { c.val with item := { c.val.item with id := ids n } }

/-- A piece of equipment that gets its id, and the ids of its entry in the request. -/
def giveEquipId (entries : ℕ → IdEntry) (ids : ℕ → UInt64) (n : ℕ) (c : Cell Equipment) :
    Cell Equipment :=
  c.write { c.val with item := { c.val.item with id := (entries n).id },
                       equipId := (entries n).equipId, id := ids n }

/-- The loops in which the ids are assigned, with which both `start_save` and state 3 of a logout
    begin. -/
def assignIds (params : AllocateIds) (res : AllocatedIds) (chr : Character) : Character :=
  let items := number lacksItemId (giveItemId res.items) chr.itemPlaces 0 chr.itemAt
  let worn := number lacksEquipId (giveEquipId params.equippedEquipment res.equippedEquipment)
    (List.finRange equipSlotCount) 0 chr.equippedEquipment
  let carried := number lacksEquipId (giveEquipId params.equipmentInventory res.equipmentInventory)
    chr.equipmentInventory.slots 0 chr.equipmentInventory.items
  { chr with
    inventory := fun k => (chr.inventory k).withItems fun i => items (k, i)
    equippedEquipment := worn
    equipmentInventory := chr.equipmentInventory.withItems carried }

/-! ## What is saved -/

/-- `params.updateCharacter`. Of the storage, only what is not a list is here. -/
structure UpdateCharacter extends SavedCharacter where
  id : UInt32
  accountId : UInt32
  storageId : UInt64
  storageSlots : UInt8
  storageMesos : Int32
  storageEquipCount : UInt64
  storageItemCount : UInt64
  deriving DecidableEq

/-- What is in the memory of a request before it is written to, as far as it is not written
    to: in the storage, and in the entries of the lists. -/
structure Memory where
  storageId : UInt64
  storageSlots : UInt8
  storageMesos : Int32
  storageEquipCount : UInt64
  storageItemCount : UInt64
  equippedEquipment : ℕ → SavedEquipment
  equipmentInventory : ℕ → SavedEquipment
  inventoryItems : ℕ → SavedItem

/-- Memory that has been set to zero. -/
def Memory.zero : Memory where
  storageId := 0
  storageSlots := 0
  storageMesos := 0
  storageEquipCount := 0
  storageItemCount := 0
  equippedEquipment _ := default
  equipmentInventory _ := default
  inventoryItems _ := default

/-- The first bytes of a name. -/
def bytes (length : UInt8) (name : Vector UInt8 12) : List UInt8 := name.toList.take length.toNat

/-- The fields of a piece of equipment that are written to an entry. -/
def SavedEquipment.save (e : Equipment) (old : SavedEquipment) : SavedEquipment :=
  { old with
    id := e.id, equipId := e.equipId, itemNumber := e.item.id, itemId := e.item.itemId,
    flags := e.item.flags.toUInt8, owner := bytes e.item.ownerLength e.item.owner,
    giver := bytes e.item.giftFromLength e.item.giftFrom, level := e.level, slots := e.slots,
    str := e.str, dex := e.dex, int_ := e.int_, luk := e.luk, hp := e.hp, mp := e.mp, atk := e.atk,
    matk := e.matk, def_ := e.def_, mdef := e.mdef, acc := e.acc, avoid := e.avoid,
    speed := e.speed, jump := e.jump }

/-- The fields of a stack that are written to an entry. -/
def SavedItem.save (slot : UInt8) (it : InventoryItem) (old : SavedItem) : SavedItem :=
  { old with
    slot := slot, count := it.quantity, itemNumber := it.item.id, itemId := it.item.itemId,
    flags := it.item.flags.toUInt8, owner := bytes it.item.ownerLength it.item.owner,
    giver := bytes it.item.giftFromLength it.item.giftFrom }

/-- The number of a slot, in the byte in which it is saved. -/
def slotByte (i : Fin maxItemCount) : UInt8 := UInt8.ofNat i.val

namespace Character

variable (chr : Character)

/-- The slots of worn equipment that are not empty. -/
def wornPlaces : List (Fin equipSlotCount) :=
  (List.finRange equipSlotCount).filter fun i => !(chr.equippedEquipment i).isEmpty

/-- The slots of carried equipment that are not empty. -/
def carriedPlaces : List (Fin maxItemCount) :=
  chr.equipmentInventory.slots.filter fun i => !(chr.equipmentInventory.items i).isEmpty

/-- The slots of stacks that are not empty. -/
def filledPlaces : List (Fin inventoryCount × Fin maxItemCount) :=
  chr.itemPlaces.filter fun p => !(chr.itemAt p).isEmpty

/-- The entries of what is worn. -/
def savedWorn (mem : ℕ → SavedEquipment) : List SavedEquipment :=
  chr.wornPlaces.mapIdx fun n i => .save (chr.equippedEquipment i).val (mem n)

/-- The entries of what is carried. -/
def savedCarried (mem : ℕ → SavedEquipment) : List (UInt8 × SavedEquipment) :=
  chr.carriedPlaces.mapIdx fun n i =>
    (slotByte i, .save (chr.equipmentInventory.items i).val (mem n))

/-- The entries of stacks. -/
def savedItems (mem : ℕ → SavedItem) : List SavedItem :=
  chr.filledPlaces.mapIdx fun n p => .save (slotByte p.2) (chr.itemAt p).val (mem n)

/-- The entries of the keys that have a type. -/
def savedKeys : List SavedKey :=
  (List.finRange keyMapMaxKeys).filterMap fun i =>
    if (chr.keyMap i).type ≠ 0 then
      some ⟨UInt32.ofNat i.val, (chr.keyMap i).type, (chr.keyMap i).action⟩
    else none

end Character

/-- `add_quest`. -/
def addQuest (quest : Quest) (l : List UInt16) : Exec (Quest × List UInt16) :=
  .ok (quest, l ++ [quest.id])

/-- The first requirement of monsters to be killed. -/
def mobRequirement (info : QuestInfo) : Option (List QuestMob) :=
  info.endRequirements.findSome? fun
    | .mob mobs => some mobs
    | _ => none

/-- The progress of a quest with one of its monsters, in 16 bits. -/
def progressEntry (quest : Quest) (mobs : List QuestMob) (i : ℕ) : Exec SavedProgress :=
  match mobs[i]?, quest.progress.toList[i]? with
  | some mob, some progress => .ok ⟨quest.id, mob.id, progress.toInt16⟩
  | _, _ => .error .outOfBounds

/-- `add_progress`. -/
def addProgress (env : Env) (quest : Quest) (l : List SavedProgress) :
    Exec (Quest × List SavedProgress) := do
  let info ← Exec.deref (env.questInfo quest.id)
  let entries ← (List.range quest.progressCount.toNat).mapM
    (progressEntry quest ((mobRequirement info).getD []))
  return (quest, l ++ entries)

/-- `add_quest_info`. -/
def addQuestInfo (info : QuestInfoProgress) (l : List QuestInfoProgress) :
    Exec (QuestInfoProgress × List QuestInfoProgress) :=
  .ok (info, l ++ [info])

/-- The time of a completed quest. There is no date for a time whose year is out of the bounds of an
    `int`. -/
def saveTime (time : Int64) : Exec SavedTime :=
  let tm := Calendar.gmtime time.toInt
  if -2147483648 ≤ tm.year ∧ tm.year ≤ 2147483647 then
    .ok { year := tm.year + 1900, month := tm.mon + 1, day := tm.mday, hour := tm.hour,
          minute := tm.min, second := tm.sec }
  else .error .outOfBounds

/-- `add_completed_quest`. -/
def addCompletedQuest (quest : CompletedQuest) (l : List SavedCompletedQuest) :
    Exec (CompletedQuest × List SavedCompletedQuest) := do
  let time ← saveTime quest.time
  return (quest, l ++ [⟨quest.id, time⟩])

/-- `add_skill`. -/
def addSkill (skill : Skill) (l : List Skill) : List UInt32 × List Skill := ([], l ++ [skill])

/-- `add_monster_book_entry`. -/
def addMonsterBookEntry (entry : MonsterBookEntry) (l : List MonsterBookEntry) :
    List UInt32 × List MonsterBookEntry :=
  ([], l ++ [entry])

/-- The request of `start_save`. Its memory comes from `malloc`. -/
def startSave (env : Env) (alloc : Bool) (mem : Memory) (chr : Character) : Exec UpdateCharacter := do
  let (_, quests) ← hashSetU16Foreach addQuest chr.quests []
  let (_, progresses) ← hashSetU16Foreach (addProgress env) chr.quests []
  let (_, questInfos) ← hashSetU16Foreach addQuestInfo chr.questInfos []
  let (_, completedQuests) ← hashSetU16Foreach addCompletedQuest chr.completedQuests []
  let (_, skills) ← hashSetU32Foreach env.skills alloc addSkill chr.skills []
  let (_, monsterBook) ← hashSetU32Foreach env.monsterBook alloc addMonsterBookEntry chr.monsterBook []
  return {
    id := chr.persona.id
    accountId := chr.persona.accountId
    map := env.mapForcedReturn chr.persona.map
    spawnPoint := chr.persona.spawnPoint
    job := chr.job
    level := chr.level
    exp := chr.exp
    maxHp := chr.maxHp
    hp := chr.hp
    maxMp := chr.maxMp
    mp := chr.mp
    str := chr.str
    dex := chr.dex
    int_ := chr.int_
    luk := chr.luk
    ap := chr.ap
    sp := chr.sp
    fame := chr.persona.fame
    skin := chr.persona.skin
    face := chr.persona.face
    hair := chr.persona.hair
    mesos := chr.mesos
    equipSlots := UInt8.ofNat chr.equipmentInventory.slotCount
    useSlots := UInt8.ofNat (chr.inventory 0).slotCount
    setupSlots := UInt8.ofNat (chr.inventory 1).slotCount
    etcSlots := UInt8.ofNat (chr.inventory 2).slotCount
    equippedEquipment := chr.savedWorn mem.equippedEquipment
    equipmentInventory := chr.savedCarried mem.equipmentInventory
    inventoryItems := chr.savedItems mem.inventoryItems
    storageId := mem.storageId
    storageSlots := mem.storageSlots
    storageMesos := mem.storageMesos
    storageEquipCount := mem.storageEquipCount
    storageItemCount := mem.storageItemCount
    quests, progresses, questInfos, completedQuests, skills, monsterBook
    keyMap := chr.savedKeys }

/-- The request of `client_resume`, in state 3 of a logout. What is not written in it is zero, and the
    number of the account is not written. -/
def clientResumeSave (env : Env) (alloc : Bool) (chr : Character) : Exec UpdateCharacter := do
  let (_, quests) ← hashSetU16Foreach addQuest chr.quests []
  let (_, progresses) ← hashSetU16Foreach (addProgress env) chr.quests []
  let (_, questInfos) ← hashSetU16Foreach addQuestInfo chr.questInfos []
  let (_, completedQuests) ← hashSetU16Foreach addCompletedQuest chr.completedQuests []
  let (_, skills) ← hashSetU32Foreach env.skills alloc addSkill chr.skills []
  let (_, monsterBook) ← hashSetU32Foreach env.monsterBook alloc addMonsterBookEntry chr.monsterBook []
  return {
    id := chr.persona.id
    accountId := 0
    map := env.mapForcedReturn chr.persona.map
    spawnPoint := chr.persona.spawnPoint
    job := chr.job
    level := chr.level
    exp := chr.exp
    maxHp := chr.maxHp
    hp := chr.hp
    maxMp := chr.maxMp
    mp := chr.mp
    str := chr.str
    dex := chr.dex
    int_ := chr.int_
    luk := chr.luk
    ap := chr.ap
    sp := chr.sp
    fame := chr.persona.fame
    skin := chr.persona.skin
    face := chr.persona.face
    hair := chr.persona.hair
    mesos := chr.mesos
    equipSlots := UInt8.ofNat chr.equipmentInventory.slotCount
    useSlots := UInt8.ofNat (chr.inventory 0).slotCount
    setupSlots := UInt8.ofNat (chr.inventory 1).slotCount
    etcSlots := UInt8.ofNat (chr.inventory 2).slotCount
    equippedEquipment := chr.savedWorn Memory.zero.equippedEquipment
    equipmentInventory := chr.savedCarried Memory.zero.equipmentInventory
    inventoryItems := chr.savedItems Memory.zero.inventoryItems
    storageId := 0
    storageSlots := 0
    storageMesos := 0
    storageEquipCount := 0
    storageItemCount := 0
    quests, progresses, questInfos, completedQuests, skills, monsterBook
    keyMap := chr.savedKeys }

end Syrup
