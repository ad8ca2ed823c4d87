import Syrup.Database
import Syrup.Lib.Run

/-!
# Saves at the same time

Characters are saved by any number of workers, each on a connection of its own. The statements of
`do_update_character` are not in a transaction: those of one character come between those of another one, in
any order. An item that has been dropped by one player and picked up by another one is, in the database,
still with the first one when the second one is saved.

Here are the statements of `do_update_character` on items. The others do not use their tables, and those that
can fail come after them.
-/

namespace Syrup

open Relational

/-! ## Requests -/

/-- A stack in a storage, in a request. -/
structure StoredItem where
  slotId : UInt64
  slot : UInt8
  count : Int16
  item : ItemEntry
  deriving DecidableEq

/-- A piece of equipment in a storage, in a request. -/
structure StoredEquipment where
  slotId : UInt64
  slot : UInt8
  equipId : UInt64
  item : ItemEntry
  stats : EquipmentStats
  deriving DecidableEq

/-- `params.updateCharacter`, with its lists of what is in the storage. -/
structure SaveRequest extends UpdateCharacter where
  storageEquipment : List StoredEquipment
  storageItems : List StoredItem

/-- An array is bound and sent, unless it has no entries. -/
def bulk {α : Type} (l : List α) (f : List α → ItemStatement) : List ItemStatement :=
  match l with
  | [] => []
  | a :: l => [f (a :: l)]

namespace UpdateCharacter

variable (r : UpdateCharacter)

/-- What is worn, and what is carried. -/
def equipment : List SavedEquipment := r.equippedEquipment ++ r.equipmentInventory.map (·.2)

/-- The first temporary array. -/
def itemEntries : List ItemEntry := r.equipment.map (·.itemEntry) ++ r.inventoryItems.map (·.itemEntry)

/-- The second temporary array. -/
def equipmentEntries : List EquipmentEntry := r.equipment.map (·.equipmentEntry)

/-- The statements that mark items. -/
def marks : List ItemMark :=
  [.inventoryItems r.id, .storageItems r.accountId, .characterEquipment r.id, .storageEquipment r.accountId]

/-- The row of a stack. -/
def stackRow (s : SavedItem) : InventoryItemRow := ⟨r.id, s.slot, s.count⟩

/-- The row of a piece of equipment. -/
def equipmentRow (e : SavedEquipment) : CharacterEquipmentRow := ⟨e.equipId, r.id⟩

/-- The statements of `do_update_character` on items. -/
def itemStatements : List ItemStatement :=
  r.marks.map .mark ++
  (bulk r.itemEntries .insertItems ++
  (r.inventoryItems.map (fun s => .insertInventoryItem s.itemNumber (r.stackRow s)) ++
  (bulk r.equipmentEntries .insertEquipment ++
  (r.equipment.map (fun e => .insertCharacterEquipment e.id (r.equipmentRow e)) ++
  ([.deleteEquipped r.id, .deleteInventoryEquipment r.id] ++
  (bulk (r.equippedEquipment.map (·.id)) .insertEquipped ++
  (bulk (r.equipmentInventory.map fun e => (e.2.id, e.1)) .insertInventoryEquipment ++
  [.purge])))))))

end UpdateCharacter

/-! ## Where items are -/

/-- A place for an item: a stack of a character, something that it wears or carries, by its id, or a slot of
    a storage. -/
inductive ItemPlace
  | stack (row : InventoryItemRow)
  | worn (characterId : UInt32) (id : UInt64)
  | carried (characterId : UInt32) (id : UInt64) (slot : UInt8)
  | storedItem (slotId : UInt64)
  | storedEquipment (slotId : UInt64)
  deriving DecidableEq

/-- An item is at a place. -/
def ItemTables.At (t : ItemTables) (x : UInt64) : ItemPlace → Prop
  | .stack row => t.inventoryItems.get? x = some row
  | .worn characterId id =>
    t.equippedEquipment.has id = true ∧ ∃ row, t.characterEquipment.get? id = some row ∧
      row.characterId = characterId ∧ t.equipmentOf x row.equip = true
  | .carried characterId id slot =>
    t.inventoryEquipment.get? id = some slot ∧ ∃ row, t.characterEquipment.get? id = some row ∧
      row.characterId = characterId ∧ t.equipmentOf x row.equip = true
  | .storedItem s => ∃ row, t.storageItems.get? s = some row ∧ row.item = x
  | .storedEquipment s => ∃ e, t.storageEquipment.get? s = some e ∧ t.equipmentOf x e = true

namespace SaveRequest

variable (r : SaveRequest)

/-- The items of a request, and where they should be. -/
def places : List (UInt64 × ItemPlace) :=
  r.equippedEquipment.map (fun e => (e.itemNumber, .worn r.id e.id)) ++
  (r.equipmentInventory.map (fun e => (e.2.itemNumber, .carried r.id e.2.id e.1)) ++
  (r.inventoryItems.map (fun s => (s.itemNumber, .stack (r.stackRow s))) ++
  (r.storageEquipment.map (fun e => (e.item.id, .storedEquipment e.slotId)) ++
  r.storageItems.map (fun s => (s.item.id, .storedItem s.slotId)))))

/-- The items of a request. -/
def itemIds : List UInt64 := r.places.map Prod.fst

end SaveRequest

/-- An item is in one of the requests. -/
def Requested (requests : List SaveRequest) (x : UInt64) : Prop := ∃ r ∈ requests, x ∈ r.itemIds

/-- Every item of every request is where it should be, and nowhere else, and there are no other items. -/
structure ItemTables.Keeps (t : ItemTables) (requests : List SaveRequest) : Prop where
  stored : ∀ r ∈ requests, ∀ x p, (x, p) ∈ r.places → t.items.has x = true ∧ t.At x p ∧ ∀ q, t.At x q → q = p
  purged : ∀ x, t.items.has x = true → Requested requests x

/-! ## What has been saved before -/

/-- What the tables say of equipment and stacks does not contradict the requests. -/
structure ItemTables.Fits (t : ItemTables) (requests : List SaveRequest) : Prop where
  /-- A piece of equipment with an id of a request is the same item. -/
  item : ∀ r ∈ requests, ∀ e ∈ r.equipment, ∀ row, t.equipment.get? e.equipId = some row →
    row.item = e.itemNumber
  /-- A piece of equipment of a character with an id of a request is the same piece of equipment. -/
  equip : ∀ r ∈ requests, ∀ e ∈ r.equipment, ∀ row, t.characterEquipment.get? e.id = some row →
    row.equip = e.equipId
  /-- An item of a request that is a piece of equipment in the tables is the same one in the request. -/
  equipment : ∀ k row, t.equipment.get? k = some row → Requested requests row.item →
    ∃ r ∈ requests, ∃ e ∈ r.equipment, e.equipId = k
  /-- An item of a request that is a stack in the tables is a stack in the request, or stored. -/
  stack : ∀ r ∈ requests, ∀ e ∈ r.equipment, t.inventoryItems.get? e.itemNumber = none
  /-- Equipment is that of characters that are saved. -/
  character : ∀ k row, t.characterEquipment.get? k = some row → ∃ r ∈ requests, r.id = row.characterId

/-- Before the saves: the requests are those of different characters, and every item is in one of them, which
    may differ from where it is in the tables; there are no other items but those of these characters. -/
structure ItemTables.Saved (t : ItemTables) (requests : List SaveRequest) : Prop where
  characters : (requests.map (·.id)).Nodup
  items : (requests.flatMap (·.itemIds)).Nodup
  equipment : (requests.flatMap fun r => r.equipment.map (·.equipId)).Nodup
  ids : (requests.flatMap fun r => r.equipment.map (·.id)).Nodup
  fits : t.Fits requests
  unmarked : ∀ x row, t.items.get? x = some row → row.deleted = false
  held : ∀ x, t.items.has x = true → Requested requests x ∨
    ∃ r ∈ requests, ∃ m ∈ r.marks, t.hits m x = true

/-! ## Interleavings -/

/-- A save, with the statements that have been executed and those that have not. When one has failed it
    does not go on. -/
structure SaveRun where
  done : List ItemStatement
  todo : List ItemStatement
  failed : Bool

/-- The tables, and the saves, by the place of their requests in the list. -/
structure SaveState where
  tables : ItemTables
  runs : ℕ → SaveRun

/-- All saves begin. -/
def SaveState.start (t : ItemTables) (requests : List SaveRequest) : SaveState where
  tables := t
  runs i := ⟨[], (requests[i]?.map (·.itemStatements)).getD [], false⟩

/-- A save is over. -/
def SaveRun.Finished (run : SaveRun) : Prop := run.failed = true ∨ run.todo = []

/-- A save executes its next statement. -/
def SaveState.step (toNumber : List UInt8 → Option UInt32) (characters : UInt32 → Bool) (i : ℕ)
    (w : SaveState) : Exec SaveState :=
  let run := w.runs i
  if run.failed then return w
  else
    match run.todo with
    | [] => return w
    | s :: todo =>
      match s.exec toNumber characters w.tables with
      | some t => return ⟨t, Function.update w.runs i ⟨run.done ++ [s], todo, false⟩⟩
      | none => return { w with runs := Function.update w.runs i { run with failed := true } }

/-! ## When it goes well -/

/-- An entry that `INSERT INTO Items` takes: its owner and giver are characters, and its flags those of a
    signed byte. -/
def ItemEntry.Insertable (toNumber : List UInt8 → Option UInt32) (characters : UInt32 → Bool)
    (e : ItemEntry) : Prop :=
  e.flags < 128 ∧ ∀ name ∈ [e.owner, e.giver], ∃ column,
    ItemTables.nameColumn toNumber name = some column ∧ column.all characters = true

/-- There is nothing in the storages, whatever is to be inserted can be, and the characters exist. -/
structure Plain (toNumber : List UInt8 → Option UInt32) (characters : UInt32 → Bool) (t : ItemTables)
    (requests : List SaveRequest) : Prop where
  equipment : ∀ r ∈ requests, r.storageEquipment = []
  items : ∀ r ∈ requests, r.storageItems = []
  storedItem : ∀ s row, t.storageItems.get? s = some row → ¬Requested requests row.item
  storedEquipment : ∀ s k, t.storageEquipment.get? s = some k → ∀ r ∈ requests, ∀ e ∈ r.equipment,
    e.equipId ≠ k
  insertable : ∀ r ∈ requests, ∀ e ∈ r.itemEntries, e.Insertable toNumber characters
  character : ∀ r ∈ requests, characters r.id = true

/-- No item is marked by a save after another save, of whose request it is, has inserted it. -/
def InTurn (requests : List SaveRequest) (i : ℕ) (w : SaveState) : Prop :=
  ∀ m, (w.runs i).todo.head? = some (.mark m) → ∀ j r, requests[j]? = some r → j ≠ i →
    .insertItems r.itemEntries ∈ (w.runs j).done → ∀ e ∈ r.itemEntries, w.tables.hits m e.id = false

end Syrup
