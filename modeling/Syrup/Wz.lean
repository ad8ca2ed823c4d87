import Syrup.Item

/-!
# The game data

The tables of `wz.c` as far as they are read here: what is known of an item, an
equipment, a consumable and a quest; and the shops of `shop.c`. A lookup returns `NULL` (`none`) for an id
that is not in its table, and a record that is returned carries the id it was
looked up by, which the lookups check.

`Env` adds what else the program runs on: the hash functions of the hash sets, and
the product of a number of items with the unit price, a `double`, truncated to a
price.
-/

namespace Syrup

/-- `struct ItemInfo`. -/
structure ItemInfo where
  id : UInt32
  slotMax : Int16
  price : Int32
  untradable : Bool
  oneOfAKind : Bool
  monsterBook : Bool
  quest : Bool
  deriving DecidableEq

/-- An item with nothing particular about it. -/
def ItemInfo.plain (id : UInt32) (slotMax : Int16) : ItemInfo where
  id := id
  slotMax := slotMax
  price := 0
  untradable := false
  oneOfAKind := false
  monsterBook := false
  quest := false

/-- `struct EquipInfo`. -/
structure EquipInfo where
  id : UInt32
  str : Int16
  dex : Int16
  int_ : Int16
  luk : Int16
  hp : Int16
  mp : Int16
  atk : Int16
  matk : Int16
  def_ : Int16
  mdef : Int16
  acc : Int16
  avoid : Int16
  speed : Int16
  jump : Int16
  slots : Int8
  cash : Bool
  deriving DecidableEq

/-- A piece of equipment with nothing particular about it. -/
def EquipInfo.plain (id : UInt32) : EquipInfo where
  id := id
  str := 0
  dex := 0
  int_ := 0
  luk := 0
  hp := 0
  mp := 0
  atk := 0
  matk := 0
  def_ := 0
  mdef := 0
  acc := 0
  avoid := 0
  speed := 0
  jump := 0
  slots := 0
  cash := false

/-- `struct ConsumableInfo`. -/
structure ConsumableInfo where
  id : UInt32
  hp : Int16
  mp : Int16
  hpR : UInt8
  mpR : UInt8
  deriving DecidableEq

/-- `enum QuestState`. -/
inductive QuestState
  | notStarted
  | started
  | completed
  deriving DecidableEq

/-- A monster to be killed for a quest, and how often. -/
structure QuestMob where
  id : UInt32
  count : Int16
  deriving DecidableEq

/-- `struct QuestRequirement`. A requirement of a type that is not implemented has
    no contents. -/
inductive QuestRequirement
  | npc (id : UInt32)
  | quest (id : UInt16) (state : QuestState)
  | job (jobs : List UInt16)
  | minLevel (level : UInt8)
  | maxLevel (level : UInt8)
  | completedQuest (amount : Int32)
  | meso (amount : Int32)
  | mob (mobs : List QuestMob)
  | item (id : UInt32) (count : Int32)
  | info (number : UInt16) (infos : List String)
  | unimplemented
  deriving DecidableEq

/-- `struct QuestItemAction`. -/
structure QuestItemAction where
  id : UInt32
  count : Int16
  prop : Int32
  deriving DecidableEq

/-- `struct QuestSkillAction`. -/
structure QuestSkillAction where
  id : UInt32
  level : Int8
  masterLevel : Int8
  jobs : List UInt16
  deriving DecidableEq

/-- `struct QuestAct`. An act of a type that is not implemented has no contents. -/
inductive QuestAct
  | meso (amount : Int32)
  | exp (amount : Int32)
  | item (items : List QuestItemAction)
  | nextQuest (qid : UInt16)
  | skill (skills : List QuestSkillAction)
  | unimplemented
  deriving DecidableEq

/-- `struct QuestInfo`. -/
structure QuestInfo where
  id : UInt16
  startRequirements : List QuestRequirement
  endRequirements : List QuestRequirement
  startScript : Bool
  endScript : Bool
  startActs : List QuestAct
  endActs : List QuestAct
  deriving DecidableEq

/-- `struct ShopItemInfo`. -/
structure ShopItemInfo where
  id : UInt32
  price : Int32
  deriving DecidableEq

/-- The tables. -/
structure Wz where
  /-- `wz_get_item_info`. -/
  itemInfo : UInt32 → Option ItemInfo
  itemInfo_id : ∀ {id info}, itemInfo id = some info → info.id = id
  /-- `wz_get_equip_info`. -/
  equipInfo : UInt32 → Option EquipInfo
  equipInfo_id : ∀ {id info}, equipInfo id = some info → info.id = id
  /-- `wz_get_consumable_info`. -/
  consumableInfo : UInt32 → Option ConsumableInfo
  consumableInfo_id : ∀ {id info}, consumableInfo id = some info → info.id = id
  /-- `wz_get_quest_info`. -/
  questInfo : UInt16 → Option QuestInfo
  questInfo_id : ∀ {id info}, questInfo id = some info → info.id = id
  /-- `wz_get_map_forced_return`. -/
  mapForcedReturn : UInt32 → UInt32
  /-- `shop_info_find`: what is sold in a shop. -/
  shopInfo : UInt32 → Option (List ShopItemInfo)

/-- What the program runs on. -/
structure Env extends Wz where
  /-- The hash of a key of two bytes. -/
  hash16 : UInt16 → UInt64
  /-- The hash of a key of four bytes. -/
  hash32 : UInt32 → UInt64
  /-- `n * info->unitPrice`, as an `int32_t`. -/
  unitPriceTimes : ItemInfo → ℤ → Int32

/-- The tables with the given records. (The keys are their own hashes, and nothing has
    a unit price.) -/
def Env.ofLists (items : List ItemInfo) (equips : List EquipInfo)
    (consumables : List ConsumableInfo) (quests : List QuestInfo) : Env where
  itemInfo id := items.find? fun info => info.id == id
  itemInfo_id h := by simpa using List.find?_some h
  equipInfo id := equips.find? fun info => info.id == id
  equipInfo_id h := by simpa using List.find?_some h
  consumableInfo id := consumables.find? fun info => info.id == id
  consumableInfo_id h := by simpa using List.find?_some h
  questInfo id := quests.find? fun info => info.id == id
  questInfo_id h := by simpa using List.find?_some h
  mapForcedReturn id := id
  shopInfo _ := none
  hash16 := UInt16.toUInt64
  hash32 := UInt32.toUInt64
  unitPriceTimes _ _ := 0

/-- `equipment_from_info`. -/
def equipmentFromInfo (info : EquipInfo) : Equipment where
  id := 0
  equipId := 0
  item :=
    { id := 0, itemId := info.id, ownerLength := 0, owner := default, flags := 0,
      expiration := -1, giftFromLength := 0, giftFrom := default }
  level := 0
  slots := info.slots
  str := info.str
  dex := info.dex
  int_ := info.int_
  luk := info.luk
  hp := info.hp
  mp := info.mp
  atk := info.atk
  matk := info.matk
  def_ := info.def_
  mdef := info.mdef
  acc := info.acc
  avoid := info.avoid
  hands := 0
  speed := info.speed
  jump := info.jump
  cash := info.cash

end Syrup
