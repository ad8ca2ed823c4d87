import Syrup.Client.Action
import Syrup.Client.Equip.Conserve
import Syrup.Lib.Replica

/-!
# The copy of the player

The program of the player has a copy of the inventories, in which it shows of each slot the id of
what is in there, and its quantity. It learns of changes by `modify_items_packet`s: an addition, another
quantity, a move of what is in a slot to another one, with which it is exchanged, or a removal. The
slots are numbered from `1` on; what is worn is in inventory `1` as well, its slots having negative
numbers.
-/

namespace Syrup

open Replica

/-- A slot that is shown. -/
inductive Place
  | worn (i : Fin equipSlotCount)
  | carried (i : Fin maxItemCount)
  | stack (k : Fin inventoryCount) (i : Fin maxItemCount)
  deriving DecidableEq

/-- What is shown of a slot: an id, and a quantity. -/
abbrev Shown := UInt32 × Int16

/-- What is shown of a piece of equipment. -/
def Equipment.shown (e : Equipment) : Shown := (e.item.itemId, 1)

/-- What is shown of a stack. -/
def InventoryItem.shown (it : InventoryItem) : Shown := (it.item.itemId, it.quantity)

/-- What a character holds, as it is shown. -/
def Character.shown (chr : Character) : Place → Option Shown
  | .worn i => (chr.worn i).map Equipment.shown
  | .carried i => (chr.equipmentInventory.view i).map Equipment.shown
  | .stack k i => ((chr.inventory k).view i).map InventoryItem.shown

/-! ## The changes the player is told of -/

/-- The slot that a number greater than `0` stands for. -/
def slotOfNumber (slot : Int16) : Option (Fin maxItemCount) :=
  if h : 0 < slot.toInt ∧ (slot.toInt - 1).toNat < maxItemCount then some ⟨_, h.2⟩ else none

/-- The slot of what is worn that a number less than `0` stands for. -/
def wornOfNumber (slot : Int16) : Option (Fin equipSlotCount) :=
  let slot := (-slot).toUInt16.toUInt32
  if isValidEquipSlot slot then (equipIndex slot).toOption else none

/-- The slot that the numbers in a packet stand for. -/
def placeOf (inventory : UInt8) (slot : Int16) : Option Place :=
  if inventory = 1 then
    if slot < 0 then (wornOfNumber slot).map .worn else (slotOfNumber slot).map .carried
  else
    match inventoryOfNumber inventory, slotOfNumber slot with
    | some k, some i => some (.stack k i)
    | _, _ => none

/-- What the program of the player does with a change. -/
def InventoryModify.change : InventoryModify → Option (Change Place Shown)
  | .addItem inventory slot item => (placeOf inventory slot).map fun p => .put p item.shown
  | .addEquip inventory slot equip => (placeOf inventory slot).map fun p => .put p equip.shown
  | .modify inventory slot quantity =>
    (placeOf inventory slot).map fun p => .alter p fun v => (v.1, quantity)
  | .move inventory slot dst =>
    match placeOf inventory slot, placeOf inventory dst with
    | some p, some q => some (.exchange p q)
    | _, _ => none
  | .remove inventory slot => (placeOf inventory slot).map .clear

/-- The changes in a list. -/
def changes (mods : List InventoryModify) : List (Change Place Shown) :=
  mods.filterMap InventoryModify.change

/-- The changes in a packet. -/
def Packet.changes : Packet → List (Change Place Shown)
  | .modifyItems mods => Syrup.changes mods
  | _ => []

/-- The changes the player has been told of. -/
def Client.told (c : Client) : List (Change Place Shown) := c.sent.flatMap Packet.changes

/-- What is held by the character of a client, as it is shown. -/
def Client.shown (c : Client) : Place → Option Shown := c.character.shown

/-- The player has been told what has changed. -/
abbrev Told (c c' : Client) : Prop := Follows Client.told Client.shown c c'

theorem slotOfNumber_slotNumber (i : Fin maxItemCount) :
    slotOfNumber (slotNumber i) = some i := by
  have hi : i.val < 252 := i.isLt
  have hslot : (slotNumber i).toInt = i.val + 1 :=
    Int16.toInt_ofNat_of_lt (by omega)
  rw [slotOfNumber, dif_pos (by rw [hslot]; exact ⟨by omega, by omega⟩)]
  congr 1
  ext
  change ((slotNumber i).toInt - 1).toNat = i.val
  rw [hslot]
  omega

theorem inventoryOfNumber_inventoryNumber (k : Fin inventoryCount) :
    inventoryOfNumber (inventoryNumber k) = some k := by
  revert k
  decide

theorem placeOf_stack (k : Fin inventoryCount) (i : Fin maxItemCount) :
    placeOf (inventoryNumber k) (slotNumber i) = some (.stack k i) := by
  have hne : inventoryNumber k ≠ 1 := by
    revert k
    decide
  rw [placeOf, if_neg hne, inventoryOfNumber_inventoryNumber, slotOfNumber_slotNumber]

section Shown

variable {chr chr' : Character}

theorem shown_setItem {k : Fin inventoryCount} {i : Fin maxItemCount}
    (hi : i.val < (chr.inventory k).slotCount) (c : Cell InventoryItem) :
    (chr.setItem k i c).shown =
      Function.update chr.shown (.stack k i) (c.get?.map InventoryItem.shown) := by
  funext p
  cases p with
  | worn j =>
    rw [Function.update_of_ne (nofun : Place.worn j ≠ .stack k i)]
    rfl
  | carried j =>
    rw [Function.update_of_ne (nofun : Place.carried j ≠ .stack k i)]
    rfl
  | stack k' j =>
    change (((chr.setItem k i c).inventory k').view j).map InventoryItem.shown = _
    rcases eq_or_ne k' k with rfl | hk
    · rw [Character.inventory_setItem_self, Inventory.view_set hi]
      rcases eq_or_ne j i with rfl | hne
      · rw [Function.update_self, Function.update_self]
      · rw [Function.update_of_ne hne, Function.update_of_ne fun e => hne (Place.stack.inj e).2]
        rfl
    · rw [Character.inventory_setItem_of_ne hk, Function.update_of_ne fun e => hk (Place.stack.inj e).1]
      rfl

theorem shown_stack {k : Fin inventoryCount} {i : Fin maxItemCount}
    (hi : i.val < (chr.inventory k).slotCount) :
    chr.shown (.stack k i) = ((chr.inventory k).items i).get?.map InventoryItem.shown :=
  congrArg (Option.map InventoryItem.shown) (Inventory.view_of_lt hi)

end Shown

/-! ## Packets -/

section Packets

variable {c c' : Client}

theorem told_send (c : Client) (p : Packet) : (c.send p).told = c.told ++ p.changes := by
  rw [Client.told, Client.send, List.flatMap_append, List.flatMap_singleton]
  rfl

/-- A packet without changes. -/
theorem Told.send (c : Client) {p : Packet} (hp : p.changes = []) : Told c (c.send p) :=
  .of_eq (by rw [told_send, hp, List.append_nil]) rfl

/-- A character is rewritten, of which nothing is shown. -/
theorem Told.setCharacter {chr : Character} (h : chr.shown = c.character.shown) :
    Told c (c.setCharacter chr) :=
  .of_eq rfl h

/-- A packet with the changes of a character. -/
theorem Told.modify {chr : Character} {mods : List InventoryModify}
    (h : replay (changes mods) c.character.shown = chr.shown) :
    Told c ((c.setCharacter chr).send (.modifyItems mods)) :=
  ⟨changes mods, told_send .., h⟩

/-- A packet with one change. -/
theorem Told.modify_one {chr : Character} {mod : InventoryModify} {m : Change Place Shown}
    (hm : mod.change = some m) (h : m.apply c.character.shown = chr.shown) :
    Told c ((c.setCharacter chr).send (.modifyItems [mod])) := by
  refine Told.modify ?_
  rw [changes, List.filterMap_cons_some hm, List.filterMap_nil, replay_singleton, h]

end Packets

end Syrup
