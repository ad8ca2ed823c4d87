import Syrup.Client.MoveItem
import Syrup.Holdings

/-!
# What `client_move_item` conserves

Moving items should conserve them (`Conserved`): the amount of every item in the
inventory, and everything outside it. It does exactly when (`MoveSafe`)

* two pieces of equipment are not exchanged, unless the set-up inventory, in which the
  exchange takes place, has the same in its two slots;
* a stack that is not put on itself, or is at least half of what a slot takes;
* quantities that are added or subtracted stay in the range of 16 bits.
-/

namespace Syrup

open Slots Machine

/-! ## Putting stacks together -/

namespace Inventory

variable {inv : Inventory InventoryItem} {i j : Fin maxItemCount}

@[simp] theorem slotCount_setQuantity (q : Int16) :
    (inv.setQuantity i q).slotCount = inv.slotCount := rfl

@[simp] theorem items_setQuantity_self (q : Int16) :
    (inv.setQuantity i q).items i = (inv.items i).write ((inv.items i).val.setQuantity q) :=
  items_set_self ..

theorem items_setQuantity_of_ne (hne : i ≠ j) (q : Int16) :
    (inv.setQuantity j q).items i = inv.items i :=
  items_set_of_ne hne ..

@[simp] theorem quantity_setQuantity_self (q : Int16) : (inv.setQuantity i q).quantity i = q := by
  rw [quantity, items_setQuantity_self]
  rfl

theorem quantity_setQuantity_of_ne (hne : i ≠ j) (q : Int16) :
    (inv.setQuantity j q).quantity i = inv.quantity i := by
  rw [quantity, items_setQuantity_of_ne hne, quantity]

/-- Another quantity in a slot changes what is held by the difference. -/
theorem weigh_setQuantity (hi : i.val < inv.slotCount) (he : (inv.items i).isEmpty = false)
    (q : Int16) (x : UInt32) :
    (inv.setQuantity i q).weigh (stackCount x) = inv.weigh (stackCount x) +
      if (inv.items i).val.item.itemId = x then q.toInt - (inv.quantity i).toInt else 0 := by
  rw [setQuantity, weigh_set _ hi, Cell.get?_write he, Cell.get?_of_not_isEmpty he, one_some,
    one_some, stackCount, stackCount, InventoryItem.item_setQuantity,
    InventoryItem.quantity_setQuantity, quantity]
  split <;> omega

/-- A stack put on itself is lost. -/
theorem weigh_mergeAll_self (hi : i.val < inv.slotCount) (he : (inv.items i).isEmpty = false)
    (x : UInt32) :
    (inv.mergeAll i i).weigh (stackCount x) = inv.weigh (stackCount x) +
      if (inv.items i).val.item.itemId = x then -(inv.quantity i).toInt else 0 := by
  rw [mergeAll, weigh_set _ (by exact hi), weigh_setQuantity hi he, items_setQuantity_self,
    Cell.get?_write he, Cell.get?_emptied, one_some, one_none, stackCount,
    InventoryItem.item_setQuantity, InventoryItem.quantity_setQuantity]
  split <;> omega

/-- All of a stack put on another one is held there, if the sum is in range. -/
theorem weigh_mergeAll (hi : i.val < inv.slotCount) (hj : j.val < inv.slotCount)
    (hei : (inv.items i).isEmpty = false) (hej : (inv.items j).isEmpty = false) (hne : i ≠ j)
    (hid : (inv.items j).val.item.itemId = (inv.items i).val.item.itemId) (x : UInt32) :
    (inv.mergeAll i j).weigh (stackCount x) = inv.weigh (stackCount x) +
      if (inv.items i).val.item.itemId = x then
        (inv.quantity j + inv.quantity i).toInt - ((inv.quantity j).toInt + (inv.quantity i).toInt)
      else 0 := by
  rw [mergeAll, weigh_set _ (by exact hi), weigh_setQuantity hj hej,
    items_setQuantity_of_ne hne, Cell.get?_of_not_isEmpty hei, Cell.get?_emptied, one_some, one_none,
    stackCount, hid]
  simp only [quantity]
  split <;> omega

/-- A part of a stack put on the stack itself changes nothing. -/
theorem weigh_mergeSome_self (hi : i.val < inv.slotCount) (he : (inv.items i).isEmpty = false)
    (amount : Int16) (x : UInt32) :
    (inv.mergeSome i i amount).weigh (stackCount x) = inv.weigh (stackCount x) := by
  rw [mergeSome, weigh_setQuantity (by exact hi) (by rw [items_setQuantity_self]; exact he),
    weigh_setQuantity hi he, quantity_setQuantity_self, items_setQuantity_self,
    Int16.add_sub_cancel]
  have hid (q : Int16) : ((inv.items i).write ((inv.items i).val.setQuantity q)).val.item.itemId =
      (inv.items i).val.item.itemId := rfl
  rw [hid]
  split <;> omega

/-- A part of a stack put on another one is held there, as far as the sum and the
    difference are in range. -/
theorem weigh_mergeSome (hi : i.val < inv.slotCount) (hj : j.val < inv.slotCount)
    (hei : (inv.items i).isEmpty = false) (hej : (inv.items j).isEmpty = false) (hne : i ≠ j)
    (hid : (inv.items j).val.item.itemId = (inv.items i).val.item.itemId) (amount : Int16)
    (x : UInt32) :
    (inv.mergeSome i j amount).weigh (stackCount x) = inv.weigh (stackCount x) +
      if (inv.items i).val.item.itemId = x then
        (inv.quantity j + amount).toInt + (inv.quantity i - amount).toInt -
          ((inv.quantity j).toInt + (inv.quantity i).toInt)
      else 0 := by
  rw [mergeSome, weigh_setQuantity (by exact hi) (by rw [items_setQuantity_of_ne hne]; exact hei),
    weigh_setQuantity hj hej, quantity_setQuantity_of_ne hne, items_setQuantity_of_ne hne, hid]
  split <;> omega

end Inventory

/-! ## When the amounts are kept -/

/-- What 16 bits hold. -/
def InRange (n : ℤ) : Prop := -32768 ≤ n ∧ n ≤ 32767

instance (n : ℤ) : Decidable (InRange n) := inferInstanceAs (Decidable (_ ∧ _))

/-- Putting a stack on a stack of the same item, of which a slot takes `slotMax`,
    loses nothing. -/
def MergeSafe (slotMax : Int16) (inv : Inventory InventoryItem) (src dst : Fin maxItemCount) :
    Prop :=
  inv.quantity dst = slotMax ∨
    if inv.quantity src < slotMax - inv.quantity dst then
      if src = dst then inv.quantity src = 0
      else InRange ((inv.quantity dst).toInt + (inv.quantity src).toInt)
    else src = dst ∨
      InRange ((inv.quantity dst).toInt + (inv.quantity src).toInt - slotMax.toInt)

theorem forall_add_ite_eq {f : UInt32 → ℤ} {id : UInt32} {d : ℤ} :
    (∀ x, f x + (if id = x then d else 0) = f x) ↔ d = 0 := by
  constructor
  · intro h
    have := h id
    rw [if_pos rfl] at this
    omega
  · intro h x
    rw [h]
    split <;> omega

/-- Subtracting what is missing to a limit leaves the sum less the limit, if that is in
    range. -/
theorem add_sub_limit {a b limit : Int16} :
    (a + (limit - a)).toInt + (b - (limit - a)).toInt - (a.toInt + b.toInt) = 0 ↔
      InRange (a.toInt + b.toInt - limit.toInt) := by
  have ha : a + (limit - a) = limit := by grind
  have hb : b - (limit - a) = (a + b) - limit := by grind
  rw [ha, hb]
  constructor
  · intro h
    have := bounds16 (a + b - limit)
    rw [InRange]
    omega
  · intro h
    have : (a + b - limit).toInt = a.toInt + b.toInt - limit.toInt := by
      rw [Int16.toInt_sub, Int16.toInt_add, Int.bmod_sub_bmod]
      exact Int.bmod_eq_of_le h.1 (by have := h.2; omega)
    omega

section Onto

variable {info : ItemInfo} {chr : Character} {k : Fin inventoryCount} {src dst : Fin maxItemCount}

/-- Putting a stack on another one of the same item keeps the amounts exactly when it is
    safe. -/
theorem moveOnto_weigh_iff (hs : src.val < (chr.inventory k).slotCount)
    (hd : dst.val < (chr.inventory k).slotCount)
    (hes : ((chr.inventory k).items src).isEmpty = false)
    (hed : ((chr.inventory k).items dst).isEmpty = false)
    (hid : ((chr.inventory k).items dst).val.item.itemId =
      ((chr.inventory k).items src).val.item.itemId) :
    (∀ x, (((moveOnto info chr k src dst).1).inventory k).weigh (stackCount x) =
      (chr.inventory k).weigh (stackCount x)) ↔
      MergeSafe info.slotMax (chr.inventory k) src dst := by
  rw [inventory_moveOnto, MergeSafe]
  by_cases hfull : (chr.inventory k).quantity dst = info.slotMax
  · rw [if_pos hfull]
    exact iff_of_true (fun x => Inventory.weigh_swapVals _ hs hd hes hed) (.inl hfull)
  · rw [if_neg hfull, or_iff_right hfull]
    split
    · by_cases hself : src = dst
      · subst hself
        simp only [Inventory.weigh_mergeAll_self hs hes, forall_add_ite_eq, if_true, neg_eq_zero]
        rw [eq16, zero16]
      · simp only [Inventory.weigh_mergeAll hs hd hes hed hself hid, forall_add_ite_eq, sub_eq_zero,
          add16_iff, if_neg hself, InRange]
    · by_cases hself : src = dst
      · subst hself
        exact iff_of_true (fun x => Inventory.weigh_mergeSome_self hs hes _ x) (.inl rfl)
      · simp only [Inventory.weigh_mergeSome hs hd hes hed hself hid, forall_add_ite_eq,
          add_sub_limit, hself, false_or]

end Onto

/-! ## The function -/

/-- The slots of a move are not both in use. -/
def BadSlots {α : Type*} (inv : Inventory α) (src dst : UInt8) : Prop :=
  inv.index? (src - 1).toNat = none ∨ inv.index? (dst - 1).toNat = none

/-- The source of a move is empty. -/
def NoSource {α : Type*} (inv : Inventory α) (src : UInt8) : Prop :=
  ∃ i, inv.index? (src - 1).toNat = some i ∧ inv.view i = none

/-- What a move should keep. -/
structure Conserved (inventory src dst : UInt8) (c : Client) (r : Bool × Client) : Prop where
  /-- The amounts of all items in an inventory of stacks. -/
  amounts : ∀ k, inventoryOfNumber inventory = some k → ∀ x,
    (r.2.character.inventory k).weigh (stackCount x) =
      (c.character.inventory k).weigh (stackCount x)
  /-- The equipment that is carried. -/
  equipment : r.2.character.equipmentInventory.contents = c.character.equipmentInventory.contents
  /-- Every other inventory. -/
  inventories : ∀ k, inventoryOfNumber inventory ≠ some k →
    r.2.character.inventory k = c.character.inventory k
  equipmentInventory : inventory ≠ 1 →
    r.2.character.equipmentInventory = c.character.equipmentInventory
  equippedEquipment : r.2.character.equippedEquipment = c.character.equippedEquipment
  /-- Everything, if there is nothing to be moved. -/
  refused : r.1 = false → r.2 = c
  still : ∀ k, inventoryOfNumber inventory = some k →
    BadSlots (c.character.inventory k) src dst ∨ NoSource (c.character.inventory k) src → r.2 = c
  equipmentStill : inventory = 1 →
    BadSlots c.character.equipmentInventory src dst ∨ NoSource c.character.equipmentInventory src →
      r.2 = c

/-- The moves that keep what they should. -/
structure MoveSafe (env : Env) (c : Client) (inventory src dst : UInt8) : Prop where
  /-- The slots of the set-up inventory with the numbers of two slots with equipment have the
      same payload. -/
  equip : inventory = 1 → ∀ i j, c.character.equipmentInventory.index? (src - 1).toNat = some i →
    c.character.equipmentInventory.index? (dst - 1).toNat = some j →
    (c.character.equipmentInventory.items i).isEmpty = false →
    (c.character.equipmentInventory.items j).isEmpty = false →
    ((c.character.inventory 1).items i).val = ((c.character.inventory 1).items j).val
  /-- Two stacks of one item, if it is not rechargeable, are put together safely. -/
  stack : ∀ k, inventoryOfNumber inventory = some k → ∀ i j,
    (c.character.inventory k).index? (src - 1).toNat = some i →
    (c.character.inventory k).index? (dst - 1).toNat = some j →
    ((c.character.inventory k).items i).isEmpty = false →
    ((c.character.inventory k).items j).isEmpty = false →
    ((c.character.inventory k).items j).val.item.itemId =
      ((c.character.inventory k).items i).val.item.itemId →
    itemIsRechargeable ((c.character.inventory k).items j).val.item.itemId = false →
    ∃ info, env.itemInfo ((c.character.inventory k).items j).val.item.itemId = some info ∧
      MergeSafe info.slotMax (c.character.inventory k) i j

section Function

variable {env : Env} {c : Client} {inventory src dst : UInt8}

/-- A call that does nothing keeps everything. -/
theorem conserved_same (b : Bool) : Conserved inventory src dst c (b, c) where
  amounts _ _ _ := rfl
  equipment := rfl
  inventories _ _ := rfl
  equipmentInventory _ := rfl
  equippedEquipment := rfl
  refused _ := rfl
  still _ _ _ := rfl
  equipmentStill _ _ := rfl

theorem inventoryOfNumber_one : inventoryOfNumber 1 = none := by decide

/-- Exchanging payloads changes nothing only if they are the same. -/
theorem val_eq_of_swapVals {α : Type*} {inv : Inventory α} {i j : Fin maxItemCount}
    (h : inv.swapVals i j = inv) : (inv.items i).val = (inv.items j).val := by
  have hi := congrArg (fun inv => (inv.items i).val) h
  rw [Inventory.items_swapVals, Function.update_self, Cell.val_write] at hi
  exact hi.symm

/-- Moving equipment from a slot that is not empty. -/
theorem conserved_moveEquip_iff {i j : Fin maxItemCount}
    (hi : c.character.equipmentInventory.index? (src - 1).toNat = some i)
    (hj : c.character.equipmentInventory.index? (dst - 1).toNat = some j)
    (he : (c.character.equipmentInventory.items i).isEmpty = false) :
    Conserved 1 src dst c (true, (c.setCharacter (moveEquip c.character i j).1).send
        (.modifyItems (moveEquip c.character i j).2)) ↔
      ((c.character.equipmentInventory.items j).isEmpty = false →
        ((c.character.inventory 1).items i).val = ((c.character.inventory 1).items j).val) := by
  have hlti := Inventory.lt_of_index? hi
  have hltj := Inventory.lt_of_index? hj
  have hstill : ¬ (BadSlots c.character.equipmentInventory src dst ∨
      NoSource c.character.equipmentInventory src) := by
    rintro ((h | h) | ⟨i', hi', h⟩)
    · cases hi.symm.trans h
    · cases hj.symm.trans h
    · cases hi.symm.trans hi'
      rw [Inventory.view_of_lt hlti, Cell.get?_of_not_isEmpty he] at h
      cases h
  rw [moveEquip]
  split
  · rename_i hej
    refine iff_of_true ?_ fun h => absurd (hej.symm.trans h) (by decide)
    exact {
      amounts := fun k hk => by cases inventoryOfNumber_one.symm.trans hk
      equipment := Inventory.weigh_moveCell _ hlti hltj he hej
      inventories := fun _ _ => rfl
      equipmentInventory := fun h => absurd rfl h
      equippedEquipment := rfl
      refused := nofun
      still := fun k hk => by cases inventoryOfNumber_one.symm.trans hk
      equipmentStill := fun _ h => absurd h hstill }
  · rename_i hej
    rw [Bool.not_eq_true] at hej
    constructor
    · intro h _
      refine val_eq_of_swapVals ?_
      have := h.inventories 1 (by rw [inventoryOfNumber_one]; exact nofun)
      rwa [Client.character_send, Client.character_setCharacter,
        Character.inventory_setInventory_self] at this
    · intro h
      have hsame : c.character.setInventory 1 ((c.character.inventory 1).swapVals i j) =
          c.character := by
        rw [Inventory.swapVals_of_eq (h hej), Character.setInventory, Function.update_eq_self]
      rw [hsame]
      exact {
        amounts := fun _ _ _ => rfl
        equipment := rfl
        inventories := fun _ _ => rfl
        equipmentInventory := fun _ => rfl
        equippedEquipment := rfl
        refused := nofun
        still := fun k hk => by cases inventoryOfNumber_one.symm.trans hk
        equipmentStill := fun _ h => absurd h hstill }

/-- Moving a stack keeps what it should exactly when it keeps the amounts. -/
theorem conserved_stacks_iff {k : Fin inventoryCount} {i j : Fin maxItemCount}
    (hk : inventoryOfNumber inventory = some k)
    (hi : (c.character.inventory k).index? (src - 1).toNat = some i)
    (hj : (c.character.inventory k).index? (dst - 1).toNat = some j)
    (he : ((c.character.inventory k).items i).isEmpty = false) {chr : Character} {p : Packet}
    (hchr : OnlyStacks k c.character chr) :
    Conserved inventory src dst c (true, (c.setCharacter chr).send p) ↔
      ∀ x, (chr.inventory k).weigh (stackCount x) =
        (c.character.inventory k).weigh (stackCount x) := by
  refine ⟨fun h => h.amounts k hk, fun h => ?_⟩
  have hne : inventory ≠ 1 := by
    rintro rfl
    cases inventoryOfNumber_one.symm.trans hk
  exact {
    amounts := fun k' hk' => by
      cases hk.symm.trans hk'
      exact h
    equipment := by
      rw [Client.character_send, Client.character_setCharacter, hchr]
      rfl
    inventories := fun k' hk' => by
      rw [Client.character_send, Client.character_setCharacter, hchr,
        Character.inventory_setActiveProjectile, Character.inventory_setInventory_of_ne]
      rintro rfl
      exact hk' hk
    equipmentInventory := fun _ => by
      rw [Client.character_send, Client.character_setCharacter, hchr]
      rfl
    equippedEquipment := by
      rw [Client.character_send, Client.character_setCharacter, hchr]
      rfl
    refused := nofun
    still := fun k' hk' hstill => by
      cases hk.symm.trans hk'
      obtain (h | h) | ⟨i', hi', h⟩ := hstill
      · cases hi.symm.trans h
      · cases hj.symm.trans h
      · cases hi.symm.trans hi'
        rw [Inventory.view_of_lt (Inventory.lt_of_index? hi), Cell.get?_of_not_isEmpty he] at h
        cases h
    equipmentStill := fun h => absurd h hne }

/-- Moving a stack from a slot that is not empty. -/
theorem conserved_moveStack_iff {k : Fin inventoryCount} {i j : Fin maxItemCount}
    (hk : inventoryOfNumber inventory = some k)
    (hi : (c.character.inventory k).index? (src - 1).toNat = some i)
    (hj : (c.character.inventory k).index? (dst - 1).toNat = some j)
    (he : ((c.character.inventory k).items i).isEmpty = false) :
    (do
      let (chr, mods) ← moveStack env c.character k i j
      return (true, (c.setCharacter chr).send (.modifyItems mods)) : Exec (Bool × Client)).Returns
        (Conserved inventory src dst c) ↔
      (((c.character.inventory k).items j).isEmpty = false →
        ((c.character.inventory k).items j).val.item.itemId =
          ((c.character.inventory k).items i).val.item.itemId →
        itemIsRechargeable ((c.character.inventory k).items j).val.item.itemId = false →
        ∃ info, env.itemInfo ((c.character.inventory k).items j).val.item.itemId = some info ∧
          MergeSafe info.slotMax (c.character.inventory k) i j) := by
  have hlti := Inventory.lt_of_index? hi
  have hltj := Inventory.lt_of_index? hj
  rw [moveStack]
  simp only
  split
  · rename_i hej
    refine iff_of_true ?_ fun h => absurd (hej.symm.trans h) (by decide)
    refine (conserved_stacks_iff hk hi hj he onlyStacks_moveToEmpty).2 fun x => ?_
    rw [inventory_moveToEmpty, Inventory.weigh_moveCell _ hlti hltj he hej]
  · rename_i hej
    rw [Bool.not_eq_true] at hej
    split
    · rename_i hsame
      obtain ⟨hid, hr⟩ := hsame
      rw [Bool.not_eq_true'] at hr
      simp only [hej, hid, hid ▸ hr, true_implies]
      rw [hid] at hr
      cases hinfo : env.itemInfo ((c.character.inventory k).items i).val.item.itemId with
      | none => exact iff_of_false (fun h => h) (by simp)
      | some info =>
        rw [Exec.deref]
        refine (conserved_stacks_iff hk hi hj he onlyStacks_moveOnto).trans ?_
        rw [moveOnto_weigh_iff hlti hltj he hej hid]
        simp
    · rename_i hsame
      refine iff_of_true ?_ fun _ hid hr => absurd ⟨hid, by rw [hr]; rfl⟩ hsame
      refine (conserved_stacks_iff hk hi hj he onlyStacks_moveSwap).2 fun x => ?_
      rw [inventory_moveSwap, Inventory.weigh_swapVals _ hlti hltj he hej]

/-- `client_move_item` returns and keeps what it should exactly when the move is safe. -/
theorem clientMoveItem_conserves_iff (env : Env) (c : Client) (inventory src dst : UInt8) :
    (clientMoveItem env c inventory src dst).Returns (Conserved inventory src dst c) ↔
      (c.shop = noShop → MoveSafe env c inventory src dst) := by
  rw [clientMoveItem]
  simp only
  split
  · rename_i hshop
    exact iff_of_true (conserved_same true) fun h => absurd h hshop
  · rename_i hshop
    rw [not_not] at hshop
    rw [forall_prop_of_true hshop]
    split
    · rename_i hone
      subst hone
      split
      · rename_i i j hi hj
        split
        · rename_i he
          refine iff_of_true (conserved_same true) ⟨fun _ i' j' hi' _ he' => ?_, fun k hk => ?_⟩
          · cases hi.symm.trans hi'
            cases he.symm.trans he'
          · cases inventoryOfNumber_one.symm.trans hk
        · rename_i he
          rw [Bool.not_eq_true] at he
          refine (conserved_moveEquip_iff hi hj he).trans ⟨fun h => ⟨fun _ i' j' hi' hj' _ he' => ?_,
            fun k hk => ?_⟩, fun h he' => h.equip rfl i j hi hj he he'⟩
          · cases hi.symm.trans hi'
            cases hj.symm.trans hj'
            exact h he'
          · cases inventoryOfNumber_one.symm.trans hk
      · rename_i hbad
        refine iff_of_true (conserved_same false) ⟨fun _ i j hi hj => ?_, fun k hk => ?_⟩
        · exact absurd hj (hbad i j hi)
        · cases inventoryOfNumber_one.symm.trans hk
    · rename_i hone
      split
      · rename_i hk
        exact iff_of_true (conserved_same false) ⟨fun h => absurd h hone, fun k hk' => by
          cases hk.symm.trans hk'⟩
      · rename_i k hk
        split
        · rename_i i j hi hj
          split
          · rename_i he
            refine iff_of_true (conserved_same true) ⟨fun h => absurd h hone,
              fun k' hk' i' j' hi' _ he' => ?_⟩
            cases hk.symm.trans hk'
            cases hi.symm.trans hi'
            cases he.symm.trans he'
          · rename_i he
            rw [Bool.not_eq_true] at he
            refine (conserved_moveStack_iff hk hi hj he).trans ⟨fun h => ⟨fun h => absurd h hone,
              fun k' hk' i' j' hi' hj' _ => ?_⟩, fun h => h.stack k hk i j hi hj he⟩
            cases hk.symm.trans hk'
            cases hi.symm.trans hi'
            cases hj.symm.trans hj'
            exact h
        · rename_i hbad
          refine iff_of_true (conserved_same false) ⟨fun h => absurd h hone,
            fun k' hk' i j hi hj => ?_⟩
          cases hk.symm.trans hk'
          exact absurd hj (hbad i j hi)

end Function

/-- Three potions that are moved onto themselves are lost; and of two pieces of equipment
    that are to be exchanged, nothing is, but a stack in the set-up inventory is moved. -/
theorem clientMoveItem_not_conserved :
    held (potions 3) 2000000 = 3 ∧
      ((clientMoveItem potionEnv (.new (potions 3)) 2 1 1).Returns fun r =>
        r.1 = true ∧ held r.2.character 2000000 = 0) ∧
      let chr := (((default : Character).setEquip 0 (.full (.plain 1302000))).setEquip 1
        (.full (.plain 1402000))).setItem 1 0 (.full (.plain 3010000 1))
      (clientMoveItem potionEnv (.new (chr.setItem 1 1 (.full (.plain 3010001 1)))) 1 1 2).Returns
        fun r => r.1 = true ∧ (r.2.character.inventory 1).view 0 = some (.plain 3010001 1) := by
  decide +kernel

end Syrup
