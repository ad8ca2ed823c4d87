import Syrup.Character
import Syrup.HashMap.FiniteMap
import Syrup.Writer

/-!
# Items in packets

Three functions of `packet.c` write out items, from the type of an item to its last field:
`modify_items_packet`, `set_field_packet` and `open_storage_packet`. Most of what they write is the same
(`equipBlock`, `stackBlock`), but of a piece of equipment only the first of them says whether it is a cash
item and how often a scroll has been applied to it, and of stacks `set_field_packet` says only in the use
inventory that they can be recharged.
-/

namespace Syrup

open Wire

/-- `DEFAULT_TIME`. -/
def defaultTime : ℤ := 150842304000000000

/-- `ZERO_TIME`. -/
def zeroTime : ℤ := 94354848000000000

/-- `writer_sized_string(writer, item->ownerLength, item->owner);`. -/
def writeOwner (item : Item) : Write := .sizedString item.ownerLength.toUInt16 item.owner.toList

/-! ## Equipment -/

/-- The bonuses of a piece of equipment, in the order in which they are written. -/
def Equipment.bonuses (e : Equipment) : List Int16 :=
  [e.str, e.dex, e.int_, e.luk, e.hp, e.mp, e.atk, e.matk, e.def_, e.mdef, e.acc, e.avoid, e.hands,
    e.speed, e.jump]

/-- What all functions write of a piece of equipment, given whether it is a cash item, the number of
    scrolls, and what comes after the flags. -/
def equipBlock (cash : Bool) (level : Int8) (rest : List Write) (e : Equipment) : List Write :=
  [.num u8 1, .num u32 e.item.itemId.toNat, .num u8 cash.toNat, .num u64 defaultTime,
    .num u8 e.slots.toInt, .num u8 level.toInt] ++
    (e.bonuses.map fun n => .num i16 n.toInt) ++
    [writeOwner e.item, .num u16 e.item.flags.toNat] ++ rest ++
    [.num u64 zeroTime, .num i32 (-1)]

/-- The level of a piece of equipment, and what it has learned. -/
def equipLevel : List Write := [.num u8 0, .num u8 1, .num i32 0, .num u32 0, .num u64 0]

/-- What stands there for a cash item. -/
def equipCash : List Write := [.array 10 (.replicate 10 0x40)]

/-- The loops of `set_field_packet` over the equipment. -/
def setFieldEquip : Equipment → List Write := equipBlock false 0 equipLevel

/-- The branch of `open_storage_packet` for a piece of equipment. -/
def openStorageEquip : Equipment → List Write := equipBlock false 0 equipLevel

/-- The branch of `modify_items_packet` for a piece of equipment that is added. -/
def modifyItemsEquip (e : Equipment) : List Write :=
  equipBlock e.cash e.level (if e.cash then equipCash else equipLevel) e

/-! ## Stacks -/

/-- What all functions write of a stack, given whether they look if it can be recharged. -/
def stackBlock (recharge : Bool) (it : InventoryItem) : List Write :=
  [.num u8 2, .num u32 it.item.itemId.toNat, .num u8 0, .num u64 defaultTime,
    .num i16 it.quantity.toInt, writeOwner it.item, .num u16 it.item.flags.toNat] ++
    if recharge && itemIsRechargeable it.item.itemId then
      [.num u32 2, .array 4 [0x54, 0x00, 0x00, 0x34]]
    else []

/-- The loops of `set_field_packet` over the inventories of stacks. There is none for the cash
    inventory. -/
def setFieldStack (k : Fin inventoryCount) (it : InventoryItem) : List Write :=
  if k = 3 then [] else stackBlock (k = useInventory) it

/-- The branch of `open_storage_packet` for a stack. -/
def openStorageStack : InventoryItem → List Write := stackBlock true

/-- The branch of `modify_items_packet` for a stack that is added. -/
def modifyItemsStack : InventoryItem → List Write := stackBlock true

/-! ## How long they are -/

/-- No more bytes of a name are said to be there than there are. -/
def Item.Sound (item : Item) : Prop := item.ownerLength.toNat ≤ 12

instance (item : Item) : Decidable item.Sound := by unfold Item.Sound; infer_instance

@[simp] theorem sound_writeOwner {item : Item} : (writeOwner item).Sound ↔ item.Sound := by
  rw [writeOwner, Write.sound_sizedString, Vector.length_toList, UInt8.toNat_toUInt16]
  rfl

@[simp] theorem size_writeOwner (item : Item) :
    (writeOwner item).size = 2 + item.ownerLength.toNat := by
  rw [writeOwner, Write.size_sizedString, UInt8.toNat_toUInt16]

/-- A piece of equipment is as long as the name of its owner makes it. -/
theorem lengthOf_equipBlock (cash : Bool) (level : Int8) (rest : List Write) (e : Equipment) :
    lengthOf (equipBlock cash level rest e) = 62 + e.item.ownerLength.toNat + lengthOf rest := by
  simp only [equipBlock, Equipment.bonuses, List.map_cons, List.map_nil, lengthOf_append,
    lengthOf_cons, lengthOf_nil, size_writeOwner, Write.size_num, width_u8, width_u16, width_u32,
    width_u64, width_i16, width_i32]
  omega

theorem sound_equipBlock {cash : Bool} {level : Int8} {rest : List Write} {e : Equipment} :
    (∀ w ∈ equipBlock cash level rest e, w.Sound) ↔ e.item.Sound ∧ ∀ w ∈ rest, w.Sound := by
  simp only [equipBlock, List.forall_mem_append, List.forall_mem_cons, List.forall_mem_map,
    sound_writeOwner, Write.sound_num, List.not_mem_nil, false_implies, implies_true, true_and,
    and_true]

/-- How long a stack is. -/
def stackLength (recharge : Bool) (it : InventoryItem) : ℕ :=
  20 + it.item.ownerLength.toNat +
    if recharge && itemIsRechargeable it.item.itemId then 8 else 0

theorem lengthOf_stackBlock (recharge : Bool) (it : InventoryItem) :
    lengthOf (stackBlock recharge it) = stackLength recharge it := by
  rw [stackBlock, stackLength]
  split <;>
    simp only [lengthOf_append, lengthOf_cons, lengthOf_nil, size_writeOwner, Write.size_num,
      Write.size_array, width_u8, width_u16, width_u32, width_u64, width_i16]
  · change _ + (4 + (4 + 0)) = _
    omega
  · omega

theorem sound_stackBlock {recharge : Bool} {it : InventoryItem} :
    (∀ w ∈ stackBlock recharge it, w.Sound) ↔ it.item.Sound := by
  have hrest : ∀ w ∈ (if recharge && itemIsRechargeable it.item.itemId then
      [Write.num u32 2, .array 4 [0x54, 0x00, 0x00, 0x34]] else []), w.Sound := by
    split <;> decide
  rw [stackBlock, List.forall_mem_append, and_iff_left hrest]
  simp only [List.forall_mem_cons, sound_writeOwner, Write.sound_num, List.not_mem_nil,
    false_implies, implies_true, true_and, and_true]

end Syrup

/-!
## Packets with lists

`modify_items_packet` tells a player of changes of its inventories, `open_storage_packet` of what is in its
storage, and `open_shop_packet` of what can be bought. A quest has its progress, or a quest info its
value, sent as a string by `update_quest_packet`.
-/

namespace Syrup

open Wire

/-! ## Changes of inventories -/

/-- What is written of a change. In inventory 1 there is equipment, everywhere else there are stacks:
    an addition is one of a piece of equipment, or of a stack. -/
def InventoryModify.writes : InventoryModify → List Write
  | .addItem inventory slot item => head 0 inventory slot ++ modifyItemsStack item
  | .addEquip inventory slot equip => head 0 inventory slot ++ modifyItemsEquip equip
  | .modify inventory slot quantity => head 1 inventory slot ++ [.num i16 quantity.toInt]
  | .move inventory slot dst =>
    head 2 inventory slot ++ .num i16 dst.toInt ::
      if slot < 0 ∨ dst < 0 then [.num u8 (if slot < 0 then 1 else 2)] else []
  | .remove inventory slot => head 3 inventory slot ++ if slot < 0 then [.num u8 2] else []
where
  /-- The mode, of `enum InventoryModifyType`, the inventory and the slot. -/
  head (mode : ℤ) (inventory : UInt8) (slot : Int16) : List Write :=
    [.num u8 mode, .num u8 inventory.toNat, .num i16 slot.toInt]

/-- `assert(mods[i].inventory != 1);`, for a change of a quantity. -/
def InventoryModify.Allowed : InventoryModify → Prop
  | .modify inventory _ _ => inventory ≠ 1
  | _ => True

instance (m : InventoryModify) : Decidable m.Allowed := by
  cases m <;> unfold InventoryModify.Allowed <;> infer_instance

/-- `MODIFY_ITEMS_PACKET_MAX_LENGTH`. -/
def modifyItemsPacketMaxLength : ℕ := 10204

/-- `modify_items_packet`. -/
def modifyItemsPacket (mods : List InventoryModify) : Exec (List UInt8) :=
  if ∀ m ∈ mods, m.Allowed then
    packetOf modifyItemsPacketMaxLength
      ([.num u16 0x001D, .num u8 1, .num u8 mods.length] ++ mods.flatMap InventoryModify.writes)
  else .error .assertion

/-! ## The storage -/

/-- What is in a slot of `struct Storage`. -/
inductive Stored
  | equip (e : Equipment)
  | item (it : InventoryItem)
  deriving DecidableEq

/-- `struct Storage`, with what is in the first `count` of its slots. -/
structure Storage where
  slots : UInt8
  mesos : Int32
  storage : List Stored
  count_le : storage.length ≤ maxItemCount

/-- What is written of what is in a slot. -/
def Stored.writes : Stored → List Write
  | .equip e => openStorageEquip e
  | .item it => openStorageStack it

/-- `OPEN_STORAGE_PACKET_MAX_LENGTH`. -/
def openStoragePacketMaxLength : ℕ := 23210

/-- `open_storage_packet`. -/
def openStoragePacket (storage : Storage) (npc : UInt32) : Exec (List UInt8) :=
  packetOf openStoragePacketMaxLength
    ([.num u16 0x0135, .num u8 0x16, .num u32 npc.toNat, .num u8 storage.slots.toNat, .num u32 0x7E,
      .num u32 0, .num i32 storage.mesos.toInt, .num u16 0, .num u8 storage.storage.length] ++
      storage.storage.flatMap Stored.writes ++ [.num u16 0, .num u8 0])

/-! ## Shops -/

/-- What is written of an item that is sold. Of one that can be recharged the price of a unit is
    written, as the upper bits of a `double`, of which all bits are given here. -/
def shopItemWrites (env : Env) (unitPriceBits : UInt32 → UInt64) (item : ShopItemInfo) :
    Exec (List Write) := do
  let head : List Write :=
    [.num u32 item.id.toNat, .num i32 item.price.toInt, .num u32 0, .num u32 0, .num u32 0]
  if !itemIsRechargeable item.id then return head ++ [.num u16 1, .num u16 1000]
  else
    let info ← Exec.deref (env.itemInfo item.id)
    return head ++ [.num u16 0, .num u32 0, .num u16 (unitPriceBits item.id >>> 48).toNat,
      .num u16 info.slotMax.toInt]

/-- `OPEN_SHOP_PACKET_MAX_LENGTH`. -/
def openShopPacketMaxLength : ℕ := 6128

/-- `open_shop_packet`, of as many items as `item_count` says, a `uint16_t`. -/
def openShopPacket (env : Env) (unitPriceBits : UInt32 → UInt64) (id : UInt32)
    (items : List ShopItemInfo) : Exec (List UInt8) := do
  let count := UInt16.ofNat items.length
  let ws ← (items.take count.toNat).mapM (shopItemWrites env unitPriceBits)
  packetOf openShopPacketMaxLength
    ([.num u16 0x0131, .num u32 id.toNat, .num u16 count.toNat] ++ ws.flatten)

/-! ## Quests -/

/-- `UPDATE_QUEST_PACKET_MAX_LENGTH`. -/
def updateQuestPacketMaxLength : ℕ := 28

/-- `update_quest_packet`, of a string whose length is a `uint16_t`. -/
def updateQuestPacket (id : UInt16) (progress : List UInt8) : Exec (List UInt8) :=
  packetOf updateQuestPacketMaxLength
    [.num u16 0x0027, .num u8 1, .num u16 id.toNat, .num u8 1,
      .sizedString (UInt16.ofNat progress.length) progress, .zero 5]

end Syrup
