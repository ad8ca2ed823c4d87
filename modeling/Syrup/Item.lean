import Syrup.Exec

/-!
# Items

Items, equipment and equipment slots, from `item.h`. An *item* is what every thing
a character can hold has in common; a stack (`InventoryItem`) is an item with a
quantity, a piece of `Equipment` is an item with its own bonuses.

Ids tell what an item is: the millions give the inventory, the ten thousands the
kind (throwing stars are `207xxxx`, bullets `233xxxx`), and both are rechargeable.

A worn equipment has a slot number from a sparse range (`isValidEquipSlot`), which
`equipSlotToCompact` maps to an index into the array of worn equipment.
-/

namespace Syrup

/-! ## Slots of worn equipment -/

/-- `EQUIP_SLOT_COUNT`, the size of the array of worn equipment. -/
abbrev equipSlotCount : ℕ := 64

instance : NeZero equipSlotCount := ⟨Nat.succ_ne_zero 63⟩

/-- `EQUIP_SLOT_ERROR`. -/
def equipSlotError : UInt32 := 0

/-- `EQUIP_SLOT_WEAPON`. -/
def equipSlotWeapon : UInt32 := 11

/-- `is_valid_equip_slot`. -/
def isValidEquipSlot (slot : UInt32) : Bool :=
  (1 ≤ slot && slot ≤ 11) || (17 ≤ slot && slot ≤ 20) || slot == 49 || slot == 50 ||
    (101 ≤ slot && slot ≤ 148)

/-- `equip_slot_from_compact`. -/
def equipSlotFromCompact (compact : UInt8) : UInt32 :=
  let slot : UInt32 := compact.toUInt32 + 1
  let slot := if 11 ≤ compact then slot + 5 else slot
  let slot := if 15 ≤ compact then slot + 28 else slot
  if 17 ≤ compact then slot + 50 else slot

/-- `equip_slot_to_compact`. -/
def equipSlotToCompact (slot : UInt32) : UInt8 :=
  let compact : UInt8 := (slot - 1).toUInt8
  let compact := if 17 ≤ slot then compact - 5 else compact
  let compact := if 49 ≤ slot then compact - 28 else compact
  if 101 ≤ slot then compact - 50 else compact

/-- `equip_slot_from_id`. -/
def equipSlotFromId (id : UInt32) : UInt32 :=
  if id / 10000 = 100 then 1
  else if id / 10000 = 103 then 4
  else if id / 10000 = 104 ∨ id / 10000 = 105 then 5
  else if id / 10000 = 106 then 6
  else if id / 10000 = 107 then 7
  else if id / 10000 = 108 then 8
  else if id / 10000 = 109 then 10
  else if id / 10000 = 110 then 9
  else if id / 10000 = 112 then 17
  else if id / 10000 = 113 then 50
  else if id / 10000 = 114 then 49
  else if id / 100000 = 13 ∨ id / 100000 = 14 then equipSlotWeapon
  else equipSlotError

/-- The index of the weapon among the worn equipment. -/
def weaponIndex : Fin equipSlotCount := 10

/-- The index a slot has in the array of worn equipment; there is none for a slot
    whose compact number is not below the size of the array. -/
def equipIndex (slot : UInt32) : Exec (Fin equipSlotCount) :=
  if h : (equipSlotToCompact slot).toNat < equipSlotCount then .ok ⟨_, h⟩
  else .error .outOfBounds

/-! ## Items -/

/-- `ITEM_IS_THROWING_STAR`. -/
def itemIsThrowingStar (id : UInt32) : Bool := id / 10000 == 207

/-- `ITEM_IS_BULLET`. -/
def itemIsBullet (id : UInt32) : Bool := id / 10000 == 233

/-- `ITEM_IS_RECHARGEABLE`. -/
def itemIsRechargeable (id : UInt32) : Bool := itemIsThrowingStar id || itemIsBullet id

/-- `struct Item`. -/
structure Item where
  id : UInt64
  itemId : UInt32
  ownerLength : UInt8
  owner : Vector UInt8 12
  flags : UInt32
  expiration : Int64
  giftFromLength : UInt8
  giftFrom : Vector UInt8 12
  deriving DecidableEq, Inhabited

/-- `struct InventoryItem`: a stack. -/
structure InventoryItem where
  item : Item
  quantity : Int16
  deriving DecidableEq, Inhabited

/-- A stack with another quantity. -/
def InventoryItem.setQuantity (it : InventoryItem) (quantity : Int16) : InventoryItem :=
  { it with quantity := quantity }

@[simp] theorem InventoryItem.item_setQuantity (it : InventoryItem) (quantity : Int16) :
    (it.setQuantity quantity).item = it.item := rfl

@[simp] theorem InventoryItem.quantity_setQuantity (it : InventoryItem) (quantity : Int16) :
    (it.setQuantity quantity).quantity = quantity := rfl

/-- A stack with nothing particular about it. -/
def InventoryItem.plain (id : UInt32) (quantity : Int16) : InventoryItem where
  item := { (default : Item) with itemId := id }
  quantity := quantity

/-- `struct Equipment`. -/
structure Equipment where
  id : UInt64
  equipId : UInt64
  item : Item
  level : Int8
  slots : Int8
  str : Int16
  dex : Int16
  int_ : Int16
  luk : Int16
  hp : Int16
  mp : Int16
  atk : Int16
  matk : Int16
  def_ : Int16
  mdef : Int16
  acc : Int16
  avoid : Int16
  hands : Int16
  speed : Int16
  jump : Int16
  cash : Bool
  deriving DecidableEq, Inhabited

/-- A piece of equipment with nothing particular about it. -/
def Equipment.plain (id : UInt32) : Equipment :=
  { (default : Equipment) with item := { (default : Item) with itemId := id } }

end Syrup
