import Syrup.Client.GainItems.Room
import Syrup.Client.Shop
import Syrup.Lib.Run

/-!
# Fair deals in a shop

A deal is fair if what has been paid is what the goods that have changed hands are worth, and if
nothing has changed where there has been no deal. Not every deal is fair. A client that has no room
pays; the price of many is the price of one; what is sold is taken before it is looked at; and a
rechargeable stack is sold as a whole, but paid for as if it had the quantity that the client says.

Deals are fair in every run that keeps clear of these (`shop_run`).
-/

namespace Syrup

open Slots Machine

/-! ## Deals -/

/-- The mesos and the inventories are the same. -/
structure Untouched (chr chr' : Character) : Prop where
  mesos : chr'.mesos = chr.mesos
  inventory : chr'.inventory = chr.inventory
  equipmentInventory : chr'.equipmentInventory = chr.equipmentInventory

theorem Untouched.refl (chr : Character) : Untouched chr chr := ⟨rfl, rfl, rfl⟩

/-- The call has reported success, and told the client of a deal by `code`. -/
def Delivered (code : UInt8) (r : ClientResult) (c' : Client) : Prop :=
  r.type = .success ∧ c'.sent.getLast? = some (.shopActionResponse code)

instance (code : UInt8) (r : ClientResult) (c' : Client) : Decidable (Delivered code r c') :=
  inferInstanceAs (Decidable (_ ∧ _))

/-- A call after which there has been a deal, or nothing has changed. -/
structure FairDeal (deal : Prop) (code : UInt8) (c : Client) (r : ClientResult) (c' : Client) :
    Prop where
  delivered : Delivered code r c' → deal
  refused : ¬ Delivered code r c' → Untouched c.character c'.character

/-- So many of what is at a position of the shop have been bought for their price. -/
def Bought (env : Env) (c c' : Client) (pos : UInt16) (id : UInt32) (quantity : Int16) : Prop :=
  ∃ shop item, env.shopInfo c.shop = some shop ∧ shop[pos.toNat]? = some item ∧
    c'.character.mesos.toInt = c.character.mesos.toInt - quantity.toInt * item.price.toInt ∧
    ∀ x, held c'.character x = held c.character x + if x = id then quantity.toInt else 0

/-- At most the price of what has left the inventories has been paid. -/
def Sold (env : Env) (c c' : Client) (id : UInt32) : Prop :=
  ∃ info, env.itemInfo id = some info ∧
    c'.character.mesos.toInt - c.character.mesos.toInt ≤
      info.price.toInt * (held c.character id - held c'.character id)

/-! ## Buying -/

/-- The client is offered what it wants to buy for what it has. -/
structure Offered (env : Env) (c : Client) (pos : UInt16) (id : UInt32) (quantity : Int16)
    (price : Int32) : Prop where
  shop : ∃ shop, env.shopInfo c.shop = some shop ∧ shop[pos.toNat]? = some ⟨id, price⟩
  quantity_pos : 0 < quantity
  affordable : price ≤ c.character.mesos

/-- What is offered costs what one costs, there is room for it, and the mesos that are left can be
    had. -/
structure BuySafe (env : Env) (c : Client) (id : UInt32) (quantity : Int16) (price : Int32) :
    Prop where
  unit : quantity.toInt * price.toInt = price.toInt
  room : quantity.toInt ≤ roomFor env c.character id
  fits : Requestable env c.character [(id, quantity)]
  price_gt : -2147483648 < price.toInt
  left : c.character.mesos.toInt - price.toInt ≤ 2147483647

/-- Mesos are not held. -/
theorem held_clientGainMeso (c : Client) (mesos : Int32) (pickup reward : Bool) (x : UInt32) :
    held (clientGainMeso c mesos pickup reward).character x = held c.character x := by
  obtain ⟨m, hm⟩ := character_clientGainMeso c mesos pickup reward
  rw [hm]
  rfl

/-- Items that are paid for are given, where there is room for them. -/
theorem buyItems_fair {env : Env} {alloc : Bool} {c c' : Client} {id : UInt32} {quantity : Int16}
    {price : Int32} {r : ClientResult} (hsafe : BuySafe env c id quantity price)
    (hpos : 0 < quantity) (hprice : price ≤ c.character.mesos)
    (h : buyItems env alloc c id quantity price = .ok (r, c')) :
    FairDeal (c'.character.mesos.toInt = c.character.mesos.toInt - quantity.toInt * price.toInt ∧
      ∀ x, held c'.character x = held c.character x + if x = id then quantity.toInt else 0)
      0 c r c' := by
  obtain ⟨⟨ret, c₁⟩, hgain, h⟩ := Exec.bind_eq_ok.1 h
  cases ret with
  | none =>
    cases h
    obtain ⟨_, rfl⟩ | ⟨hret, _⟩ := clientGainItems_cases hgain
    · exact ⟨fun hd => (nomatch hd.1), fun _ => .refl _⟩
    · cases hret
  | some success =>
    obtain ⟨rfl, hheld, hmesos⟩ := clientGainItems_gives hsafe.fits hpos hsafe.room hgain
    cases h
    rw [Int32.le_iff_toInt_le] at hprice
    have hneg := neg32 hsafe.price_gt
    have hm := @mesos_clientGainMeso c₁ (-price) false false (by rw [hmesos, hneg]; omega)
    rw [hmesos, hneg] at hm
    have hleft := hsafe.left
    have hunit := hsafe.unit
    refine ⟨fun _ => ⟨?_, fun x => ?_⟩, fun hd => absurd ⟨rfl, List.getLast?_concat ..⟩ hd⟩
    · change (clientGainMeso c₁ (-price) false false).character.mesos.toInt = _
      rw [hm, hunit]
      omega
    · change held (clientGainMeso c₁ (-price) false false).character x = _
      rw [held_clientGainMeso, hheld]

/-- What is bought in a shop is bought fairly. -/
theorem clientBuy_fair {env : Env} {alloc : Bool} {c c' : Client} {pos : UInt16} {id : UInt32}
    {quantity : Int16} {price : Int32} {r : ClientResult}
    (hsafe : Offered env c pos id quantity price → BuySafe env c id quantity price)
    (h : clientBuy env alloc c pos id quantity price = .ok (r, c')) :
    FairDeal (Bought env c c' pos id quantity) 0 c r c' := by
  have hban {reason : String} (h : (ClientResult.ban reason, c) = (r, c')) :
      FairDeal (Bought env c c' pos id quantity) 0 c r c' := by
    cases h
    exact ⟨fun hd => (nomatch hd.1), fun _ => .refl _⟩
  rw [clientBuy] at h
  split at h
  · exact hban (Except.ok.inj h)
  · obtain ⟨shop, hshop, h⟩ := Exec.bind_eq_ok.1 h
    rw [Exec.deref_eq_ok] at hshop
    split at h
    · exact hban (Except.ok.inj h)
    · rename_i item hitem
      obtain ⟨iid, iprice⟩ := item
      simp only at h
      split at h
      · exact hban (Except.ok.inj h)
      · rename_i hid
        rw [ne_eq, not_not] at hid
        split at h
        · exact hban (Except.ok.inj h)
        · rename_i hpos
          rw [Int16.not_le] at hpos
          split at h
          · exact hban (Except.ok.inj h)
          · split at h
            · exact hban (Except.ok.inj h)
            · rename_i hprice
              rw [ne_eq, not_not] at hprice
              subst hid hprice
              split at h
              · cases h
                refine ⟨fun hd => ?_, fun _ => .refl _⟩
                have hlast := hd.2
                rw [Client.send, List.getLast?_concat] at hlast
                cases hlast
              · rename_i hmesos
                rw [Int32.not_lt] at hmesos
                have hfair := buyItems_fair (hsafe ⟨⟨shop, hshop, hitem⟩, hpos, hmesos⟩) hpos hmesos h
                exact ⟨fun hd => ⟨shop, _, hshop, hitem, hfair.delivered hd⟩, hfair.refused⟩

/-! ## Selling -/

/-- What is paid for something is not more than it is worth: what the client says it is, in the
    32 bits of a price, is at most what it is. -/
structure PaysAtMost (c : Client) (info : ItemInfo) (quantity : Int16) (left : ℤ) : Prop where
  pays : (info.price * quantity.toInt32).toInt ≤ info.price.toInt * left
  owes : 0 ≤ c.character.mesos.toInt + (info.price * quantity.toInt32).toInt

/-- How many leave a stack of which a quantity is sold. -/
def soldAmount (it : InventoryItem) (quantity : Int16) : ℤ :=
  if itemIsRechargeable it.item.itemId then it.quantity.toInt else quantity.toInt

/-- Where a sale takes something, it takes what the client says, and pays no more than it is
    worth. -/
structure SellSafe (env : Env) (c : Client) (pos : UInt16) (id : UInt32) (quantity : Int16) :
    Prop where
  equip : ∀ info i, env.itemInfo id = some info → isEquipId id = true → quantity = 1 →
    c.character.equipmentInventory.index? (pos.toUInt8 - 1).toNat = some i →
    (c.character.equipmentInventory.items i).isEmpty = false →
    (c.character.equipmentInventory.items i).val.item.itemId = id ∧ PaysAtMost c info quantity 1
  stack : ∀ info k i, env.itemInfo id = some info → isEquipId id = false → 0 < quantity →
    inventoryOfId id = .ok k → (c.character.inventory k).index? (pos.toUInt8 - 1).toNat = some i →
    ((c.character.inventory k).items i).isEmpty = false →
    (itemIsRechargeable ((c.character.inventory k).items i).val.item.itemId = false →
      quantity ≤ ((c.character.inventory k).items i).val.quantity) →
    ((c.character.inventory k).items i).val.item.itemId = id ∧
      PaysAtMost c info quantity (soldAmount ((c.character.inventory k).items i).val quantity)

/-- A sale that is paid for is fair, if as much has left as is paid for. -/
theorem paySale_fair {env : Env} {c c₁ : Client} {id : UInt32} {quantity : Int16} {info : ItemInfo}
    {left : ℤ} (hinfo : env.itemInfo id = some info) (hpays : PaysAtMost c info quantity left)
    (hmesos : c₁.character.mesos = c.character.mesos)
    (hheld : held c₁.character id = held c.character id - left) :
    FairDeal (Sold env c (paySale c₁ info quantity).2 id) 8 c (paySale c₁ info quantity).1
      (paySale c₁ info quantity).2 := by
  obtain ⟨hpays, howes⟩ := hpays
  have hm := @mesos_clientGainMeso c₁ (info.price * quantity.toInt32) false false
    (by rw [hmesos]; exact howes)
  rw [hmesos] at hm
  refine ⟨fun _ => ⟨info, hinfo, ?_⟩, fun hd => absurd ⟨rfl, List.getLast?_concat ..⟩ hd⟩
  change (clientGainMeso c₁ (info.price * quantity.toInt32) false false).character.mesos.toInt - _ ≤
    info.price.toInt * (held c.character id -
      held (clientGainMeso c₁ (info.price * quantity.toInt32) false false).character id)
  rw [held_clientGainMeso, hheld, hm, sub_sub_cancel]
  omega

/-- A piece of equipment that is taken away is not held any more. -/
theorem held_setEquip_emptied {chr : Character} {i : Fin maxItemCount} {id : UInt32}
    (hid : isEquipId id = true) (hi : i.val < chr.equipmentInventory.slotCount)
    (he : (chr.equipmentInventory.items i).isEmpty = false)
    (hitem : (chr.equipmentInventory.items i).val.item.itemId = id) :
    held (chr.setEquip i (chr.equipmentInventory.items i).emptied) id = held chr id - 1 := by
  rw [held, held, heldIn_of_equip hid, heldIn_of_equip hid]
  change (chr.equipmentInventory.set i (chr.equipmentInventory.items i).emptied).weigh _ = _
  rw [Inventory.weigh_set _ hi, Cell.get?_emptied, Cell.get?_of_not_isEmpty he, one_none, one_some,
    equipCount, if_pos hitem, add_zero]

theorem inventory_removeStack (chr : Character) (k : Fin inventoryCount) (i : Fin maxItemCount)
    (amount : Int16) : (removeStack chr k i amount).inventory =
      Function.update chr.inventory k
        ((chr.inventory k).set i (removeFrom ((chr.inventory k).items i) amount)) := by
  rw [removeStack]
  split <;> rfl

/-- What is taken from a stack is not held any more. -/
theorem held_removeStack {chr : Character} {k : Fin inventoryCount} {i : Fin maxItemCount}
    {id : UInt32} {quantity : Int16} (hid : isEquipId id = false) (hk : inventoryOfId id = .ok k)
    (hi : i.val < (chr.inventory k).slotCount)
    (he : ((chr.inventory k).items i).isEmpty = false)
    (hitem : ((chr.inventory k).items i).val.item.itemId = id) (hpos : 0 < quantity)
    (hq : itemIsRechargeable id = false → quantity ≤ ((chr.inventory k).items i).val.quantity) :
    held (removeStack chr k i quantity) id =
      held chr id - soldAmount ((chr.inventory k).items i).val quantity := by
  have hone : one (stackCount id) (removeFrom ((chr.inventory k).items i) quantity).get? =
      ((chr.inventory k).items i).val.quantity.toInt -
        soldAmount ((chr.inventory k).items i).val quantity := by
    rw [removeFrom, soldAmount, hitem]
    cases hr : itemIsRechargeable id with
    | true => simp
    | false =>
      have hq := hq hr
      rw [lt16, zero16] at hpos
      rw [le16] at hq
      have hb := bounds16 ((chr.inventory k).items i).val.quantity
      rw [Bool.false_or, if_neg Bool.false_ne_true]
      split
      · rename_i heq
        rw [beq_iff_eq.1 heq, Cell.get?_emptied, one_none, sub_self]
      · rw [Cell.get?_write he, one_some, stackCount, InventoryItem.item_setQuantity, if_pos hitem,
          InventoryItem.quantity_setQuantity, sub16 (by omega) (by omega)]
  rw [held, held, heldIn_of_stack hid hk, heldIn_of_stack hid hk, inventory_removeStack,
    Function.update_self, Inventory.weigh_set _ hi, hone, Cell.get?_of_not_isEmpty he, one_some,
    stackCount, if_pos hitem]
  omega

/-- The number of the inventory of an item is the number of its inventory. -/
theorem inventoryOfId_of_number {id : UInt32} {k : Fin inventoryCount}
    (h : inventoryOfNumber (id / 1000000).toUInt8 = some k) : inventoryOfId id = .ok k := by
  rw [inventoryOfNumber] at h
  split at h
  · rename_i hn
    cases h
    have hsub : ((id / 1000000).toUInt8 - 2).toNat = (id / 1000000).toUInt8.toNat - 2 :=
      UInt8.toNat_sub_of_le _ _ (UInt8.le_iff_toNat_le.2 hn.1)
    have hlt : ((id / 1000000).toUInt8 - 2).toNat < inventoryCount := by omega
    rw [inventoryOfId, dif_pos hlt]
    exact congrArg Except.ok (Fin.ext hsub)
  · cases h

/-- What is sold is sold fairly. -/
theorem clientSell_fair {env : Env} {alloc : Bool} {c c' : Client} {pos : UInt16} {id : UInt32}
    {quantity : Int16} {r : ClientResult} (hsafe : SellSafe env c pos id quantity)
    (h : clientSell env alloc c pos id quantity = .ok (r, c')) :
    FairDeal (Sold env c c' id) 8 c r c' := by
  have hno {c₁ : Client} {type : ClientResultType}
      (h : (.ok (.of type, c₁) : Exec (ClientResult × Client)) = .ok (r, c'))
      (hc : c₁ = c) (ht : type ≠ .success) : FairDeal (Sold env c c' id) 8 c r c' := by
    cases h
    subst hc
    exact ⟨fun hd => absurd hd.1 ht, fun _ => .refl _⟩
  rw [clientSell] at h
  split at h
  · exact hno h rfl nofun
  · rename_i hpos
    rw [Int16.not_le] at hpos
    split at h
    · exact hno h rfl nofun
    · rename_i info hinfo
      split at h
      · rename_i hid
        split at h
        · exact hno h rfl nofun
        · rename_i hone
          have hquantity : quantity = 1 := by
            rw [lt16, zero16] at hpos
            rw [lt16, one16] at hone
            rw [eq16, one16]
            omega
          split at h
          · rename_i c₁ hremove
            obtain ⟨_, hc⟩ | ⟨i, _, _, hr, _⟩ := clientRemoveEquip_result hremove
            · exact hno h hc nofun
            · cases hr
          · rename_i success equip c₁ hremove
            obtain ⟨hr, hc⟩ | ⟨i, hi, he, hr, hc⟩ := clientRemoveEquip_result hremove
            · rw [if_pos (by cases success with
                | false => rfl
                | true => exact absurd rfl (hr equip))] at h
              exact hno h hc nofun
            · cases hr
              obtain ⟨hitem, hpays⟩ := hsafe.equip info i hinfo hid hquantity hi he
              rw [if_neg (by simp [hitem])] at h
              obtain ⟨rfl, rfl⟩ := Prod.mk.inj (Except.ok.inj h)
              have hheld := held_setEquip_emptied hid (Inventory.lt_of_index? hi) he hitem
              exact paySale_fair hinfo hpays (by rw [hc]; rfl) (by rw [hc, hheld])
      · rename_i hid
        rw [Bool.not_eq_true] at hid
        obtain ⟨⟨o, c₁⟩, hremove, h⟩ := Exec.bind_eq_ok.1 h
        obtain ⟨hr, hc⟩ | ⟨k, i, set, hk, hi, he, hq, hr, hc⟩ := clientRemoveItem_result hremove
        · cases o with
          | none => exact hno h hc nofun
          | some o =>
            obtain ⟨success, item⟩ := o
            simp only at h
            rw [if_pos (by cases success with
              | false => rfl
              | true => exact absurd rfl (hr item))] at h
            exact hno h hc nofun
        · subst hr
          have hk := inventoryOfId_of_number hk
          obtain ⟨hitem, hpays⟩ := hsafe.stack info k i hinfo hid hpos hk hi he hq
          have hremoved : (removedItem ((c.character.inventory k).items i).val quantity).item.itemId =
              id := by
            rw [removedItem]
            split
            · exact hitem
            · split <;> exact hitem
          simp only at h
          rw [if_neg (by simp [hremoved])] at h
          obtain ⟨rfl, rfl⟩ := Prod.mk.inj (Except.ok.inj h)
          have hheld := held_removeStack hid hk (Inventory.lt_of_index? hi) he hitem hpos
            (fun hr => hq (hitem ▸ hr))
          refine paySale_fair hinfo hpays ?_ (by rw [hc, ← hheld]; rfl)
          rw [hc, removeStack]
          split <;> rfl

/-! ## Recharging -/

/-- What is not recharged is not paid for. -/
theorem clientRecharge_fair {env : Env} {c c' : Client} {slot : UInt16} {type : ClientResultType}
    (h : clientRecharge env c slot = .ok (type, c')) : FairDeal True 8 c (.of type) c' := by
  refine ⟨fun _ => trivial, fun hd => ?_⟩
  rw [clientRecharge] at h
  simp only at h
  split at h
  · cases h
    exact .refl _
  · split at h
    · cases h
      exact .refl _
    · obtain ⟨info, hinfo, h⟩ := Exec.bind_eq_ok.1 h
      split at h
      · cases h
        exact .refl _
      · cases h
        rw [recharge] at hd ⊢
        simp only at hd ⊢
        split
        · exact .refl _
        · rename_i hprice
          rw [if_neg hprice] at hd
          exact absurd ⟨rfl, List.getLast?_concat ..⟩ hd

/-! ## Runs -/

/-- A packet of a client in a shop, with the outcome of the allocations. -/
inductive ShopAction
  | buy (alloc : Bool) (pos : UInt16) (id : UInt32) (quantity : Int16) (price : Int32)
  | sell (alloc : Bool) (pos : UInt16) (id : UInt32) (quantity : Int16)
  | recharge (slot : UInt16)

namespace ShopAction

variable (env : Env)

/-- The call for a packet. -/
def call : ShopAction → Client → Exec (ClientResult × Client)
  | buy alloc pos id quantity price, c => clientBuy env alloc c pos id quantity price
  | sell alloc pos id quantity, c => clientSell env alloc c pos id quantity
  | recharge slot, c => do
    let (type, c) ← clientRecharge env c slot
    return (.of type, c)

/-- The client after a packet. -/
def step (a : ShopAction) (c : Client) : Exec Client := do
  let (_, c) ← call env a c
  return c

/-- The call for a packet has been fair. -/
def Fair : ShopAction → Client → ClientResult → Client → Prop
  | buy _ pos id quantity _, c, r, c' => FairDeal (Bought env c c' pos id quantity) 0 c r c'
  | sell _ _ id _, c, r, c' => FairDeal (Sold env c c' id) 8 c r c'
  | recharge _, c, r, c' => FairDeal True 8 c r c'

/-- Where a packet takes something, or gives something, it takes and gives what is paid for. -/
def Safe : ShopAction → Client → Prop
  | buy _ pos id quantity price, c =>
    Offered env c pos id quantity price → BuySafe env c id quantity price
  | sell _ pos id quantity, c => SellSafe env c pos id quantity
  | recharge _, _ => True

variable {env}

/-- Calls are fair where there is no reason why they should not be. -/
theorem fair_of_safe {a : ShopAction} {c c' : Client} {r : ClientResult} (hsafe : a.Safe env c)
    (h : a.call env c = .ok (r, c')) : a.Fair env c r c' := by
  cases a with
  | buy alloc pos id quantity price => exact clientBuy_fair hsafe h
  | sell alloc pos id quantity => exact clientSell_fair hsafe h
  | recharge slot =>
    obtain ⟨⟨type, c₁⟩, hcall, h⟩ := Exec.bind_eq_ok.1 h
    cases h
    exact clientRecharge_fair hcall

end ShopAction

/-- A run of packets each of which is safe in the state in which it comes is a run of fair
    calls. -/
theorem shop_run {env : Env} {c c' : Client}
    (hrun : Machine.Run (ShopAction.step env) (ShopAction.Safe env) c c') :
    Machine.Run (ShopAction.step env)
      (fun a c => ∀ r c', a.call env c = .ok (r, c') → a.Fair env c r c') c c' := by
  induction hrun with
  | start => exact .start
  | step a _ hsafe h ih => exact .step a ih (fun r c' => ShopAction.fair_of_safe hsafe) h

/-! ### Runs with potions and stars -/

/-- A shop that sells potions for 50, and buys them for 25 and stars for 5. -/
def shopEnv : Env :=
  { Env.ofLists [{ ItemInfo.plain 2000000 100 with price := 25 },
      { ItemInfo.plain 2070000 500 with price := 5 }] [] [] [] with
    shopInfo := fun _ => some [⟨2000000, 50⟩] }

/-- A character in the shop, with 100 mesos. -/
def shopper (inv : Inventory InventoryItem) : Client :=
  { Client.new { (default : Character).setInventory useInventory inv with mesos := 100 } with
    shop := 1 }

/-- A star is sold as 100 stars, two potions are bought for the price of one, and a potion is paid for
    that there is no room for. -/
theorem shop_not_fair :
    (∃ r c', ShopAction.call shopEnv (.sell true 1 2070000 100)
        (shopper (.set .empty 0 (.full (.plain 2070000 1)))) = .ok (r, c') ∧
      ¬ ShopAction.Fair shopEnv (.sell true 1 2070000 100)
        (shopper (.set .empty 0 (.full (.plain 2070000 1)))) r c') ∧
    (∃ r c', ShopAction.call shopEnv (.buy true 0 2000000 2 50) (shopper .empty) = .ok (r, c') ∧
      ¬ ShopAction.Fair shopEnv (.buy true 0 2000000 2 50) (shopper .empty) r c') ∧
    (∃ r c', ShopAction.call shopEnv (.buy true 0 2000000 1 50)
        (shopper (.withItems .empty fun _ => .full (.plain 2000000 100))) = .ok (r, c') ∧
      ¬ ShopAction.Fair shopEnv (.buy true 0 2000000 1 50)
        (shopper (.withItems .empty fun _ => .full (.plain 2000000 100))) r c') := by
  refine ⟨?_, ?_, ?_⟩
  · have hret : (ShopAction.call shopEnv (.sell true 1 2070000 100)
        (shopper (.set .empty 0 (.full (.plain 2070000 1))))).Returns fun r => Delivered 8 r.1 r.2 ∧
          r.2.character.mesos = 600 ∧ held r.2.character 2070000 = 0 := by decide +kernel
    obtain ⟨⟨r, c'⟩, h, hd, hm, hheld⟩ := Exec.returns_iff.1 hret
    refine ⟨r, c', h, fun hfair => ?_⟩
    obtain ⟨info, hinfo, hle⟩ := hfair.delivered hd
    cases hinfo
    rw [hm, hheld] at hle
    revert hle
    decide +kernel
  · have hret : (ShopAction.call shopEnv (.buy true 0 2000000 2 50) (shopper .empty)).Returns
        fun r => Delivered 0 r.1 r.2 ∧ r.2.character.mesos = 50 := by decide +kernel
    obtain ⟨⟨r, c'⟩, h, hd, hm⟩ := Exec.returns_iff.1 hret
    refine ⟨r, c', h, fun hfair => ?_⟩
    obtain ⟨shop, item, hshop, hitem, hmesos, _⟩ := hfair.delivered hd
    cases hshop
    cases hitem
    rw [hm] at hmesos
    revert hmesos
    decide
  · have hret : (ShopAction.call shopEnv (.buy true 0 2000000 1 50)
        (shopper (.withItems .empty fun _ => .full (.plain 2000000 100)))).Returns fun r =>
          ¬ Delivered 0 r.1 r.2 ∧ r.2.character.mesos = 50 := by decide +kernel
    obtain ⟨⟨r, c'⟩, h, hd, hm⟩ := Exec.returns_iff.1 hret
    refine ⟨r, c', h, fun hfair => ?_⟩
    have hmesos := (hfair.refused hd).mesos
    rw [hm] at hmesos
    revert hmesos
    decide

/-- A potion is bought. -/
theorem shop_run_potion : ∃ c',
    ShopAction.step shopEnv (.buy true 0 2000000 1 50) (shopper .empty) = .ok c' ∧
      Machine.Run (ShopAction.step shopEnv)
        (fun a c => ∀ r c', a.call shopEnv c = .ok (r, c') → a.Fair shopEnv c r c')
        (shopper .empty) c' := by
  have hret : (ShopAction.step shopEnv (.buy true 0 2000000 1 50) (shopper .empty)).Returns
      fun _ => True := by decide +kernel
  obtain ⟨c', h, -⟩ := Exec.returns_iff.1 hret
  have hempty : ∀ k i, ((shopper .empty).character.inventory k).view i = none := by decide +kernel
  have hfits : Requestable shopEnv (shopper .empty).character [(2000000, 1)] := by
    refine ⟨fun k i it hit _ => ?_, fun id hid info hinfo => ?_⟩
    · rw [hempty] at hit
      cases hit
    · obtain rfl : id = 2000000 := by simpa using hid
      cases hinfo
      decide
  have hsafe : BuySafe shopEnv (shopper .empty) 2000000 1 50 :=
    ⟨by decide, by decide +kernel, hfits, by decide, by decide +kernel⟩
  exact ⟨c', h, shop_run (.step (.buy true 0 2000000 1 50) .start (fun _ => hsafe) h)⟩

end Syrup
