import Syrup.Lib.Tables
import Syrup.Client.Save

/-!
# The items in the database

The tables of `db.sql` from `Items` to `StorageEquipment`, and the statements of `do_update_character` on
them. Every item is a row of `Items`; a row of `InventoryItems` says which character has it as a stack, and
rows of `Equipment`, `CharacterEquipment` and `EquippedEquipment` or `InventoryEquipment`, each of which
refers to the one before, who wears or carries it as a piece of equipment. With an item go all rows that
refer to it.

A character is saved by marking all its items as deleted, inserting again what it has, which takes the mark
away, and then deleting whatever is marked.
-/

namespace Syrup

open Relational

/-! ## The tables -/

/-- A row of `Items`. -/
structure ItemRow where
  itemId : UInt32
  flags : UInt8
  owner : Option UInt32
  giver : Option UInt32
  deleted : Bool
  deriving DecidableEq

/-- A row of `InventoryItems`. -/
structure InventoryItemRow where
  characterId : UInt32
  slot : UInt8
  count : Int16
  deriving DecidableEq

/-- What a row of `Equipment` says of its bonuses. -/
structure EquipmentStats where
  level : Int8
  slots : Int8
  str : Int16
  dex : Int16
  int_ : Int16
  luk : Int16
  hp : Int16
  mp : Int16
  atk : Int16
  matk : Int16
  def_ : Int16
  mdef : Int16
  acc : Int16
  avoid : Int16
  speed : Int16
  jump : Int16
  deriving DecidableEq

/-- A row of `Equipment`. -/
structure EquipmentRow where
  item : UInt64
  stats : EquipmentStats
  deriving DecidableEq

/-- A row of `CharacterEquipment`. -/
structure CharacterEquipmentRow where
  equip : UInt64
  characterId : UInt32
  deriving DecidableEq

/-- A row of `Storages`. -/
structure StorageRow where
  accountId : UInt32
  world : UInt8
  slots : UInt8
  mesos : Int32
  deriving DecidableEq

/-- A row of `StorageSlots`. -/
structure StorageSlotRow where
  storage : UInt64
  slot : UInt8
  deriving DecidableEq

/-- A row of `StorageItems`. -/
structure StorageItemRow where
  item : UInt64
  count : Int16
  deriving DecidableEq

/-- The tables from `Items` to `StorageEquipment`. Rows of `EquippedEquipment` have nothing but their key,
    those of `InventoryEquipment` have a slot, and those of `StorageEquipment` refer to `Equipment`. -/
structure ItemTables where
  items : Table UInt64 ItemRow
  inventoryItems : Table UInt64 InventoryItemRow
  equipment : Table UInt64 EquipmentRow
  characterEquipment : Table UInt64 CharacterEquipmentRow
  equippedEquipment : Table UInt64 Unit
  inventoryEquipment : Table UInt64 UInt8
  storages : Table UInt64 StorageRow
  storageSlots : Table UInt64 StorageSlotRow
  storageItems : Table UInt64 StorageItemRow
  storageEquipment : Table UInt64 UInt64

/-! ## What is inserted -/

/-- An entry of the first temporary array of `do_update_character`, for a row of `Items`. -/
structure ItemEntry where
  id : UInt64
  itemId : UInt32
  flags : UInt8
  owner : List UInt8
  giver : List UInt8
  deriving DecidableEq

/-- An entry of its second temporary array, for a row of `Equipment`. -/
structure EquipmentEntry where
  id : UInt64
  item : UInt64
  stats : EquipmentStats
  deriving DecidableEq

/-- The entry of the item of a piece of equipment. -/
def SavedEquipment.itemEntry (e : SavedEquipment) : ItemEntry := ⟨e.itemNumber, e.itemId, e.flags, e.owner, e.giver⟩

/-- The entry of the item of a stack. -/
def SavedItem.itemEntry (s : SavedItem) : ItemEntry := ⟨s.itemNumber, s.itemId, s.flags, s.owner, s.giver⟩

/-- The bonuses of a piece of equipment. -/
def SavedEquipment.stats (e : SavedEquipment) : EquipmentStats where
  level := e.level
  slots := e.slots
  str := e.str
  dex := e.dex
  int_ := e.int_
  luk := e.luk
  hp := e.hp
  mp := e.mp
  atk := e.atk
  matk := e.matk
  def_ := e.def_
  mdef := e.mdef
  acc := e.acc
  avoid := e.avoid
  speed := e.speed
  jump := e.jump

/-- The entry of a piece of equipment. -/
def SavedEquipment.equipmentEntry (e : SavedEquipment) : EquipmentEntry := ⟨e.equipId, e.itemNumber, e.stats⟩

/-! ## Statements -/

/-- The four statements that mark items as deleted: `UPDATE Items JOIN InventoryItems`, by the character;
    `UPDATE Items JOIN StorageItems`, by the account; `UPDATE Items JOIN Equipment JOIN CharacterEquipment`;
    and `UPDATE Items JOIN Equipment JOIN StorageEquipment`. -/
inductive ItemMark
  | inventoryItems (characterId : UInt32)
  | storageItems (accountId : UInt32)
  | characterEquipment (characterId : UInt32)
  | storageEquipment (accountId : UInt32)
  deriving DecidableEq

/-- The statements on items, in their order: those that mark; `INSERT INTO Items`, with
    `ON DUPLICATE KEY UPDATE deleted = 0`; `INSERT INTO InventoryItems`, `INSERT INTO Equipment` and
    `INSERT INTO CharacterEquipment`, which all change the row that is there; `DELETE FROM EquippedEquipment`
    and `DELETE FROM InventoryEquipment`; `INSERT INTO EquippedEquipment` and
    `INSERT INTO InventoryEquipment`, which do not; and `DELETE FROM Items WHERE deleted = 1`. -/
inductive ItemStatement
  | mark (m : ItemMark)
  | insertItems (l : List ItemEntry)
  | insertInventoryItem (item : UInt64) (row : InventoryItemRow)
  | insertEquipment (l : List EquipmentEntry)
  | insertCharacterEquipment (id : UInt64) (row : CharacterEquipmentRow)
  | deleteEquipped (characterId : UInt32)
  | deleteInventoryEquipment (characterId : UInt32)
  | insertEquipped (l : List UInt64)
  | insertInventoryEquipment (l : List (UInt64 × UInt8))
  | purge
  deriving DecidableEq

namespace ItemTables

section

variable (t : ItemTables)

/-- Whether a piece of equipment belongs to an item. -/
def equipmentOf (x e : UInt64) : Bool := (t.equipment.get? e).any (·.item == x)

/-- Whether a slot of a storage belongs to an account. -/
def slotOf (accountId : UInt32) (slot : UInt64) : Bool :=
  (t.storageSlots.get? slot).any fun s => (t.storages.get? s.storage).any (·.accountId == accountId)

/-- Whether an item is marked by a statement. -/
def hits : ItemMark → UInt64 → Bool
  | .inventoryItems c, x => (t.inventoryItems.get? x).any (·.characterId == c)
  | .storageItems a, x => t.storageItems.any fun s row => row.item == x && t.slotOf a s
  | .characterEquipment c, x =>
    t.characterEquipment.any fun _ row => row.characterId == c && t.equipmentOf x row.equip
  | .storageEquipment a, x => t.storageEquipment.any fun s e => t.equipmentOf x e && t.slotOf a s

/-- Items are marked. -/
def mark (m : ItemMark) : ItemTables :=
  { t with items := t.items.change fun x row => if t.hits m x then { row with deleted := true } else row }

/-- Whether an item is marked. -/
def marked (x : UInt64) : Bool := (t.items.get? x).any (·.deleted)

/-- Whether the item of a row of `Equipment` is marked. -/
def markedEquipment (e : UInt64) : Bool := (t.equipment.get? e).any fun row => t.marked row.item

/-- Whether the item of a row of `CharacterEquipment` is marked. -/
def markedCharacterEquipment (c : UInt64) : Bool :=
  (t.characterEquipment.get? c).any fun row => t.markedEquipment row.equip

/-- `DELETE FROM Items WHERE deleted = 1`, and with the items goes whatever refers to them. -/
def purge : ItemTables where
  items := t.items.filter fun _ row => !row.deleted
  inventoryItems := t.inventoryItems.filter fun x _ => !t.marked x
  equipment := t.equipment.filter fun _ row => !t.marked row.item
  characterEquipment := t.characterEquipment.filter fun _ row => !t.markedEquipment row.equip
  equippedEquipment := t.equippedEquipment.filter fun c _ => !t.markedCharacterEquipment c
  inventoryEquipment := t.inventoryEquipment.filter fun c _ => !t.markedCharacterEquipment c
  storages := t.storages
  storageSlots := t.storageSlots
  storageItems := t.storageItems.filter fun _ row => !t.marked row.item
  storageEquipment := t.storageEquipment.filter fun _ e => !t.markedEquipment e

/-- Whether a row of `CharacterEquipment` is that of a character. -/
def equipmentBy (characterId : UInt32) (c : UInt64) : Bool :=
  (t.characterEquipment.get? c).any (·.characterId == characterId)

end

/-! ## Inserting

The server reads a name as the number that a column `INT UNSIGNED` takes (`toNumber`), if it is one, and
knows which characters there are. -/

section

variable (toNumber : List UInt8 → Option UInt32) (characters : UInt32 → Bool)

/-- A name for such a column. An empty one is `NULL`. -/
def nameColumn (name : List UInt8) : Option (Option UInt32) :=
  if name = [] then some none else (toNumber name).map some

/-- A row of `Items` is inserted, or is not deleted any more. The flags have to be those of a signed byte,
    and the owner and the giver characters. -/
def insertItem (t : Table UInt64 ItemRow) (e : ItemEntry) : Option (Table UInt64 ItemRow) :=
  match nameColumn toNumber e.owner, nameColumn toNumber e.giver with
  | some owner, some giver =>
    if e.flags < 128 then
      match t.get? e.id with
      | some row => some (t.put e.id { row with deleted := false })
      | none =>
        if owner.all characters ∧ giver.all characters then
          some (t.put e.id ⟨e.itemId, e.flags, owner, giver, false⟩)
        else none
    else none
  | _, _ => none

/-- A row of `Equipment` is inserted, if there is its item, or gets other bonuses. -/
def insertEquipmentRow (items : UInt64 → Bool) (t : Table UInt64 EquipmentRow) (e : EquipmentEntry) :
    Option (Table UInt64 EquipmentRow) :=
  match t.get? e.id with
  | some row => some (t.put e.id { row with stats := e.stats })
  | none => if items e.item then some (t.put e.id ⟨e.item, e.stats⟩) else none

/-- A row is inserted under a key for which there is none, and which refers to a row of another table. -/
def insertNew {ρ : Type} (parents : UInt64 → Bool) (t : Table UInt64 ρ) (k : UInt64) (r : ρ) :
    Option (Table UInt64 ρ) :=
  if parents k ∧ ¬t.has k then some (t.put k r) else none

end

end ItemTables

/-- What a statement does, or `none` if it fails. Then it does nothing. -/
def ItemStatement.exec (toNumber : List UInt8 → Option UInt32) (characters : UInt32 → Bool) (t : ItemTables) :
    ItemStatement → Option ItemTables
  | mark m => some (t.mark m)
  | insertItems l => do
    let items ← l.foldlM (ItemTables.insertItem toNumber characters) t.items
    return { t with items }
  | insertInventoryItem item row =>
    if (t.inventoryItems.has item ∨ t.items.has item) ∧ characters row.characterId then
      some { t with inventoryItems := t.inventoryItems.put item row }
    else none
  | insertEquipment l => do
    let equipment ← l.foldlM (ItemTables.insertEquipmentRow t.items.has) t.equipment
    return { t with equipment }
  | insertCharacterEquipment id row =>
    match t.characterEquipment.get? id with
    | some old =>
      some { t with characterEquipment := t.characterEquipment.put id { old with characterId := row.characterId } }
    | none =>
      if t.equipment.has row.equip then
        some { t with characterEquipment := t.characterEquipment.put id row }
      else none
  | deleteEquipped characterId =>
    some { t with equippedEquipment := t.equippedEquipment.filter fun c _ => !t.equipmentBy characterId c }
  | deleteInventoryEquipment characterId =>
    some { t with inventoryEquipment := t.inventoryEquipment.filter fun c _ => !t.equipmentBy characterId c }
  | insertEquipped l => do
    let equippedEquipment ← l.foldlM
      (fun u c => ItemTables.insertNew t.characterEquipment.has u c ()) t.equippedEquipment
    return { t with equippedEquipment }
  | insertInventoryEquipment l => do
    let inventoryEquipment ← l.foldlM
      (fun u e => ItemTables.insertNew t.characterEquipment.has u e.1 e.2) t.inventoryEquipment
    return { t with inventoryEquipment }
  | purge => some t.purge

end Syrup
