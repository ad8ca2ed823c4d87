import Syrup.Client.Equip.Conserve
import Syrup.Client.HitPoints.InRange
import Syrup.Client.Shop.Fair
import Syrup.Holdings
import Syrup.Map.Lying

/-!
# Weights of what a room has

Whatever can be counted of the things in a room, an amount of an item, the mesos, or the ids of the
database, is a sum of weights of stacks, of equipment and of mesos (`Weight`). None of it becomes more by
dropping and picking up if the weight is `Fair`: a stack that is divided, or put onto others, weighs no
more than before.
-/

namespace Syrup

open Slots Sweep

/-- A weight of everything there is. -/
structure Weight (M : Type*) where
  stack : InventoryItem → M
  equip : Equipment → M
  meso : Int32 → M

/-- There is not less than nothing of a stack, or of mesos. -/
def DropItem.Sound : DropItem → Prop
  | .meso amount => 0 ≤ amount.toInt
  | .item _ stack => 0 ≤ stack.quantity.toInt
  | .equip _ => True

namespace Weight

section Sums

variable {M : Type*} [AddCommMonoid M] (w : Weight M)

/-- The weight of a drop. -/
def drop : DropItem → M
  | .meso amount => w.meso amount
  | .item _ item => w.stack item
  | .equip equip => w.equip equip

/-- The weight of the stacks of a character. -/
def heldStacks (chr : Character) : M := ∑ k, (chr.inventory k).weigh w.stack

/-- The weight of the equipment of a character. -/
def heldEquipment (chr : Character) : M :=
  weigh w.equip chr.worn + chr.equipmentInventory.weigh w.equip

/-- The weight of what a character has. -/
def character (chr : Character) : M := w.heldStacks chr + w.heldEquipment chr + w.meso chr.mesos

/-- The weight of what there is in a room. -/
def room (s : ExchangeRoom) : M :=
  (s.clients.map fun c => w.character c.character).sum + (s.map.lying.map w.drop).sum

/-- An inventory of stacks is rewritten. -/
theorem heldStacks_setInventory (chr : Character) (k : Fin inventoryCount) (inv : Inventory InventoryItem) :
    w.heldStacks (chr.setInventory k inv) + (chr.inventory k).weigh w.stack =
      w.heldStacks chr + inv.weigh w.stack := by
  have hf : (fun j => ((chr.setInventory k inv).inventory j).weigh w.stack) =
      Function.update (fun j => (chr.inventory j).weigh w.stack) k (inv.weigh w.stack) := by
    funext j
    rcases eq_or_ne j k with rfl | hj
    · rw [Character.inventory_setInventory_self, Function.update_self]
    · rw [Character.inventory_setInventory_of_ne hj, Function.update_of_ne hj]
  rw [heldStacks, hf, Finset.sum_update_of_mem (Finset.mem_univ k), heldStacks,
    ← Finset.add_sum_erase _ _ (Finset.mem_univ k), Finset.sdiff_singleton_eq_erase]
  abel

/-- A slot in use is rewritten. -/
theorem weigh_set_add {α : Type*} (f : α → M) {inv : Inventory α} {i : Fin maxItemCount}
    (hi : i.val < inv.slotCount) (c : Cell α) :
    (inv.set i c).weigh f + one f (inv.items i).get? = inv.weigh f + one f c.get? := by
  rw [Inventory.weigh, Inventory.weigh, Inventory.view_set hi, ← Inventory.view_of_lt hi]
  exact weigh_update f inv.view i c.get?

end Sums

section Cancel

variable {M : Type*} [AddCancelCommMonoid M] (w : Weight M)

theorem heldStacks_setItem {chr : Character} {k : Fin inventoryCount} {i : Fin maxItemCount}
    (hi : i.val < (chr.inventory k).slotCount) (c : Cell InventoryItem) :
    w.heldStacks (chr.setItem k i c) + one w.stack ((chr.inventory k).items i).get? =
      w.heldStacks chr + one w.stack c.get? := by
  have hset : w.heldStacks (chr.setItem k i c) + (chr.inventory k).weigh w.stack =
      w.heldStacks chr + ((chr.inventory k).set i c).weigh w.stack :=
    heldStacks_setInventory w chr k ((chr.inventory k).set i c)
  have hslot := weigh_set_add w.stack hi c
  refine add_right_cancel (b := (chr.inventory k).weigh w.stack) ?_
  rw [add_right_comm, hset, add_assoc, hslot]
  abel

theorem heldEquipment_setEquip {chr : Character} {i : Fin maxItemCount}
    (hi : i.val < chr.equipmentInventory.slotCount) (c : Cell Equipment) :
    w.heldEquipment (chr.setEquip i c) + one w.equip (chr.equipmentInventory.items i).get? =
      w.heldEquipment chr + one w.equip c.get? := by
  have hslot := weigh_set_add w.equip hi c
  have hworn : (chr.setEquip i c).worn = chr.worn := rfl
  have hequip : (chr.setEquip i c).equipmentInventory = chr.equipmentInventory.set i c := rfl
  rw [heldEquipment, heldEquipment, hworn, hequip, add_assoc, hslot, add_assoc]

theorem heldEquipment_setWorn {chr : Character} (j : Fin equipSlotCount) (c : Cell Equipment) :
    w.heldEquipment (chr.setWorn j c) + one w.equip (chr.equippedEquipment j).get? =
      w.heldEquipment chr + one w.equip c.get? := by
  have hslot := weigh_update w.equip chr.worn j c.get?
  have hworn : (chr.setWorn j c).worn = Function.update chr.worn j c.get? := Character.worn_of_update rfl
  have hequip : (chr.setWorn j c).equipmentInventory = chr.equipmentInventory := rfl
  have hone : one w.equip (chr.equippedEquipment j).get? = one w.equip (chr.worn j) := rfl
  rw [heldEquipment, heldEquipment, hworn, hequip, hone, add_right_comm, hslot, add_right_comm]

end Cancel

/-! ## Weights that do not grow -/

/-- Dividing and combining stacks, and paying mesos, do not make the weight more. -/
structure Fair {M : Type*} [AddCommMonoid M] [PartialOrder M] (w : Weight M) : Prop where
  drop_nonneg : ∀ d : DropItem, d.Sound → 0 ≤ w.drop d
  part : ∀ (it : InventoryItem) (amount : Int16), 0 < amount.toInt → amount.toInt < it.quantity.toInt →
    w.stack { item := { it.item with id := 0 }, quantity := amount } +
      w.stack (it.setQuantity (it.quantity - amount)) ≤ w.stack it
  gained : ∀ {env : Env} {alloc : Bool} {room : ℕ} {chr chr' : Character} {item : InventoryItem},
    0 ≤ item.quantity.toInt → PickedUpStack env alloc room chr chr' item →
      w.heldStacks chr' ≤ w.heldStacks chr + w.stack item
  paid : ∀ mesos amount left : Int32, 0 ≤ amount.toInt → amount.toInt ≤ mesos.toInt →
    left.toInt = mesos.toInt - amount.toInt → w.meso left + w.meso amount ≤ w.meso mesos
  received : ∀ mesos amount sum : Int32, 0 ≤ mesos.toInt → 0 ≤ amount.toInt →
    sum.toInt = min (mesos.toInt + amount.toInt) 2147483647 → w.meso sum ≤ w.meso mesos + w.meso amount

end Weight

end Syrup

/-!
## What clients take and give

What a client puts down it does not have any more, and what it picks up it has if, and only if, the
outcome is a success (`takeToDrop_spec`, `takeMesos_spec`, `pickUpDrop_weigh`).
-/

namespace Syrup

open Slots Sweep Machine

/-- A client owes no mesos, and has no rechargeable stacks of less than nothing. -/
structure Client.Sound (c : Client) : Prop where
  mesos : 0 ≤ c.character.mesos.toInt
  rechargeable : ∀ k i it, (c.character.inventory k).view i = some it →
    itemIsRechargeable it.item.itemId = true → 0 ≤ it.quantity.toInt

theorem Client.Sound.congr {c c' : Client} (h : c.Sound) (hm : c'.character.mesos = c.character.mesos)
    (hi : c'.character.inventory = c.character.inventory) : c'.Sound :=
  ⟨hm ▸ h.mesos, hi ▸ h.rechargeable⟩

variable {env : Env} {alloc : Bool} {room : ℕ} {c c' : Client}

/-! ## Stacks -/

/-- Where nothing is a success, nothing is given. -/
theorem clientGainInventoryItem_given {item : InventoryItem} {r : Option InventoryGainResult}
    (h : clientGainInventoryItem env alloc room c item = .ok (r, c')) :
    r = some .success ∨ ∃ set, c'.character = c.character.setItemQuests set := by
  obtain ⟨info, -, h⟩ := Exec.bind_eq_ok.1 h
  split at h
  · cases h
    exact .inr ⟨_, rfl⟩
  · split at h
    · cases h
      exact .inr ⟨_, rfl⟩
    · obtain ⟨k, -, h⟩ := Exec.bind_eq_ok.1 h
      split at h
      · rw [Exec.pure_eq_ok, pickUpRechargeable] at h
        simp only at h
        split at h <;> cases h <;> exact .inl rfl
      · obtain ⟨⟨items, s⟩, -, h⟩ := Exec.bind_eq_ok.1 h
        simp only at h
        split at h
        · cases h
          exact .inr ⟨_, rfl⟩
        · split at h
          · rw [pickUpRest] at h
            simp only at h
            split at h
            · cases h
              exact .inr ⟨_, rfl⟩
            · obtain ⟨set, -, h⟩ := Exec.bind_eq_ok.1 h
              split at h
              · cases h
                exact .inr ⟨_, rfl⟩
              · cases h
                exact .inl rfl
          · cases h
            exact .inl rfl

/-- A slot of an inventory that has been rewritten, whose slots in use are the same. -/
theorem Client.Sound.setInventory (h : c.Sound) (k : Fin inventoryCount) (inv : Inventory InventoryItem)
    (hinv : c'.character.inventory = (c.character.setInventory k inv).inventory)
    (hmesos : c'.character.mesos = c.character.mesos)
    (hstacks : ∀ i it, inv.view i = some it → itemIsRechargeable it.item.itemId = true →
      0 ≤ it.quantity.toInt) : c'.Sound := by
  refine ⟨by rw [hmesos]; exact h.mesos, fun k' i it hi hr => ?_⟩
  rw [hinv] at hi
  rcases eq_or_ne k' k with rfl | hk
  · rw [Character.inventory_setInventory_self] at hi
    exact hstacks i it hi hr
  · rw [Character.inventory_setInventory_of_ne hk] at hi
    exact h.rechargeable k' i it hi hr

/-- A stack in the place of another one. -/
theorem view_set_cases {inv : Inventory InventoryItem} {i j : Fin maxItemCount} {cell : Cell InventoryItem}
    {it : InventoryItem} (h : (inv.set j cell).view i = some it) :
    cell.get? = some it ∨ inv.view i = some it := by
  rcases eq_or_ne i j with rfl | hne
  · rw [Inventory.view] at h
    split at h
    · rw [Inventory.items_set_self] at h
      exact .inl h
    · cases h
  · right
    rw [Inventory.view, Inventory.items_set_of_ne hne] at h
    exact h

/-- After stacks have been filled up there are the same stacks, or stacks of the item. -/
theorem view_filled {info : ItemInfo} {item : InventoryItem} {k : Fin inventoryCount}
    {items : Fin maxItemCount → Cell InventoryItem} {s s' : PickUp}
    (h : sweep (pickUpBody env alloc room c.character info item k) (c.character.inventory k).slots
      (c.character.inventory k).items s = .ok (items, s')) {i : Fin maxItemCount} {it : InventoryItem}
    (hi : ((c.character.inventory k).withItems items).view i = some it) :
    it.item.itemId = item.item.itemId ∨ (c.character.inventory k).view i = some it := by
  have hinv := sweep_inv (P := fun t _ => ∀ i it, ((c.character.inventory k).withItems t).view i = some it →
    it.item.itemId = item.item.itemId ∨ (c.character.inventory k).view i = some it) h
    (fun j _ t s out ht hout i it hit => ?_) (fun i it hit => .inr hit)
  · exact hinv i it hi
  · rw [pickUpBody] at hout
    split at hout
    · rename_i hm
      obtain ⟨he, hid⟩ : (t j).isEmpty = false ∧ (t j).val.item.itemId = item.item.itemId := by
        simpa using hm
      obtain ⟨set, _, hout⟩ := Exec.bind_eq_ok.1 hout
      split at hout
      rename_i heq
      cases hout
      have hset (cell : Cell InventoryItem) : (c.character.inventory k).withItems (Function.update t j cell) =
          ((c.character.inventory k).withItems t).set j cell := rfl
      rw [hset] at hit
      rcases view_set_cases hit with hcell | hold
      · refine .inl ?_
        rw [Cell.get?_write he] at hcell
        cases hcell
        split at heq <;> cases heq
        · exact hid
        · rw [stackOnto]
          dsimp only
          split <;> exact hid
      · exact ht i it hold
    · cases hout
      rw [Function.update_eq_self] at hit
      exact ht i it hit

/-- A client that has been given a stack. -/
theorem Client.Sound.gainInventoryItem (h : c.Sound) {item : InventoryItem} {r : Option InventoryGainResult}
    (hitem : 0 ≤ item.quantity.toInt) (hcall : clientGainInventoryItem env alloc room c item = .ok (r, c')) :
    c'.Sound := by
  obtain ⟨set, hc⟩ | ⟨hr, _, k, j, _, hj, hc⟩ | ⟨hr, info, k, items, s, set, _, _, hsweep, _, hend⟩ :=
    clientGainInventoryItem_cases hcall
  · exact h.congr (by rw [hc]; rfl) (by rw [hc]; rfl)
  · refine h.setInventory k _ (by rw [hc]; rfl) (by rw [hc]; rfl) fun i it hi hre => ?_
    rcases view_set_cases hi with hcell | hold
    · cases hcell
      exact hitem
    · exact h.rechargeable k i it hold hre
  · have hfilled (i : Fin maxItemCount) (it : InventoryItem)
        (hi : ((c.character.inventory k).withItems items).view i = some it)
        (hre : itemIsRechargeable it.item.itemId = true) : 0 ≤ it.quantity.toInt := by
      rcases view_filled hsweep hi with hid | hold
      · rw [hid, hr] at hre
        cases hre
      · exact h.rechargeable k i it hold hre
    obtain ⟨_, hc⟩ | ⟨_, j, _, hc⟩ := hend
    · exact h.setInventory k _ (by rw [hc]; rfl) (by rw [hc]; rfl) hfilled
    · refine h.setInventory k _ (by rw [hc]; rfl) (by rw [hc]; rfl) fun i it hi hre => ?_
      rcases view_set_cases hi with hcell | hold
      · cases hcell
        have hre : itemIsRechargeable item.item.itemId = true := hre
        rw [hr] at hre
        cases hre
      · exact hfilled i it hold hre

variable {M : Type*} [AddCancelCommMonoid M] [PartialOrder M] [IsOrderedCancelAddMonoid M] {w : Weight M}

/-- A client is given a stack, or not. -/
theorem weigh_gainInventoryItem (hw : w.Fair) {item : InventoryItem} {r : Option InventoryGainResult}
    (hitem : 0 ≤ item.quantity.toInt) (hcall : clientGainInventoryItem env alloc room c item = .ok (r, c')) :
    (r = some .success → w.character c'.character ≤ w.character c.character + w.stack item) ∧
      (r ≠ some .success → w.character c'.character = w.character c.character) := by
  have hpos : 0 ≤ w.stack item := hw.drop_nonneg (.item 0 item) hitem
  refine ⟨fun _ => ?_, fun hr => ?_⟩
  · have hstacks (chr' : Character) (hworn : chr'.equippedEquipment = c.character.equippedEquipment)
        (hequip : chr'.equipmentInventory = c.character.equipmentInventory)
        (hmesos : chr'.mesos = c.character.mesos)
        (hle : w.heldStacks chr' ≤ w.heldStacks c.character + w.stack item) :
        w.character chr' ≤ w.character c.character + w.stack item := by
      have heq : w.heldEquipment chr' = w.heldEquipment c.character := by
        have hworn' : chr'.worn = c.character.worn := by
          funext j
          rw [Character.worn, Character.worn, hworn]
        rw [Weight.heldEquipment, Weight.heldEquipment, hworn', hequip]
      rw [Weight.character, Weight.character, heq, hmesos, add_right_comm (_ + _),
        add_right_comm _ _ (w.stack item)]
      gcongr
    obtain ⟨set, hc⟩ | ⟨_, _, k, j, _, hj, hc⟩ | ⟨_, hgiven⟩ := clientGainInventoryItem_cases hcall
    · rw [hc]
      exact hstacks _ rfl rfl rfl (le_add_of_nonneg_right hpos)
    · rw [hc]
      refine hstacks _ rfl rfl rfl (le_of_eq ?_)
      obtain ⟨⟨hlt, _, he⟩, _⟩ := firstFrom_eq_some.1 hj
      have hset := @Weight.heldStacks_setItem M _ w c.character k j (by omega) (.full item)
      rw [Cell.get?_of_isEmpty he, one_none, add_zero, Cell.get?_full, one_some] at hset
      exact hset
    · have hc := hgiven
      obtain ⟨info, k, items, s, set, _, _, _, _, hend⟩ := hgiven
      obtain ⟨_, hc'⟩ | ⟨_, j, _, hc'⟩ := hend
      · exact hstacks _ (by rw [hc']; rfl) (by rw [hc']; rfl) (by rw [hc']; rfl) (hw.gained hitem hc)
      · exact hstacks _ (by rw [hc']; rfl) (by rw [hc']; rfl) (by rw [hc']; rfl) (hw.gained hitem hc)
  · obtain h | ⟨set, hc⟩ := clientGainInventoryItem_given hcall
    · exact absurd h hr
    · rw [hc]
      rfl

/-! ## What is picked up -/

/-- What a character has is the same: its stacks, its equipment and its mesos. -/
structure SameGoods (chr chr' : Character) : Prop where
  inventory : chr'.inventory = chr.inventory
  worn : chr'.equippedEquipment = chr.equippedEquipment
  carried : chr'.equipmentInventory = chr.equipmentInventory
  mesos : chr'.mesos = chr.mesos

omit [PartialOrder M] [IsOrderedCancelAddMonoid M] in
theorem SameGoods.weigh {chr chr' : Character} (h : SameGoods chr chr') :
    w.character chr' = w.character chr := by
  have hworn : chr'.worn = chr.worn := by
    funext j
    rw [Character.worn, Character.worn, h.worn]
  rw [Weight.character, Weight.character, Weight.heldStacks, Weight.heldStacks, Weight.heldEquipment,
    Weight.heldEquipment, hworn, h.inventory, h.carried, h.mesos]

theorem SameGoods.sound (h : SameGoods c.character c'.character) (hc : c.Sound) : c'.Sound :=
  hc.congr h.mesos h.inventory

theorem addCard_goods {id : UInt32} (h : addCard env alloc c id = .ok c') :
    SameGoods c.character c'.character := by
  rw [addCard] at h
  simp only at h
  split at h
  · obtain ⟨book, -, h⟩ := Exec.bind_eq_ok.1 h
    obtain ⟨entry, -, h⟩ := Exec.bind_eq_ok.1 h
    cases h
    exact ⟨rfl, rfl, rfl, rfl⟩
  · cases h
    exact ⟨rfl, rfl, rfl, rfl⟩

theorem clientUseItemImmediate_goods {id : UInt32} {b : Bool}
    (h : clientUseItemImmediate env alloc c id = .ok (b, c')) : SameGoods c.character c'.character := by
  rw [clientUseItemImmediate] at h
  split at h
  · cases h
    exact ⟨rfl, rfl, rfl, rfl⟩
  · obtain ⟨item, -, h⟩ := Exec.bind_eq_ok.1 h
    split at h
    · obtain ⟨c₁, hcard, h⟩ := Exec.bind_eq_ok.1 h
      cases h
      obtain ⟨hi, hw, hc, hm⟩ := addCard_goods hcard
      exact ⟨hi, hw, hc, hm⟩
    · cases h
      exact ⟨rfl, rfl, rfl, rfl⟩

/-- A piece of equipment is given, if and only if the outcome is a success. -/
theorem clientGainEquipment_given {item : Equipment} {r : InventoryGainResult}
    (h : clientGainEquipment env alloc c item false = .ok (r, c')) :
    (r ≠ .success ∧ c' = c) ∨ r = .success ∧ ∃ j set,
      firstFrom (fun i => (c.character.equipmentInventory.items i).isEmpty) 0
        c.character.equipmentInventory.slotCount = some j ∧
      c'.character = (c.character.setItemQuests set).setEquip j (.full item) := by
  obtain ⟨info, -, h⟩ := Exec.bind_eq_ok.1 h
  split at h
  · cases h
    exact .inl ⟨by decide, rfl⟩
  · rw [if_neg Bool.false_ne_true] at h
    split at h
    · cases h
      exact .inl ⟨by decide, rfl⟩
    · rename_i j hj
      obtain ⟨chr, hchr, h⟩ := Exec.bind_eq_ok.1 h
      obtain ⟨set, rfl⟩ := removeItemQuest_cases hchr
      cases h
      exact .inr ⟨rfl, j, set, hj, rfl⟩

/-- Mesos are given. -/
theorem clientGainMeso_goods (c : Client) (amount : Int32) (pickup reward : Bool) :
    ∃ m, (clientCommitStats (clientGainMeso c amount pickup reward)).character =
      { c.character with mesos := m } ∧
        m = (clientGainMeso c amount pickup reward).character.mesos := by
  obtain ⟨m, hm⟩ := character_clientGainMeso c amount pickup reward
  exact ⟨m, hm, by rw [hm]⟩

/-- What a pick-up of a drop leads to: the client has the drop if, and only if, the outcome is a
    success. -/
structure PickedUpDrop (w : Weight M) (c : Client) (item : DropItem) (r : Option InventoryGainResult)
    (c' : Client) : Prop where
  success : r = some .success → w.character c'.character ≤ w.character c.character + w.drop item
  failure : r ≠ some .success → w.character c'.character = w.character c.character

theorem pickUpDrop_sound {env : ExchangeEnv} (hc : c.Sound) {item : DropItem} (hitem : item.Sound) :
    Exec.Ensures (pickUpDrop env alloc room c item) fun x => x.2.Sound := by
  rcases item with amount | ⟨qid, stack⟩ | equip
  · refine .pure ?_
    obtain ⟨m, hm, hmesos⟩ := clientGainMeso_goods c amount true false
    have hc' := @mesos_clientGainMeso c amount true false (add_nonneg hc.mesos hitem)
    rw [← hmesos] at hc'
    have hsum := add_nonneg hc.mesos hitem
    refine ⟨?_, ?_⟩
    · rw [hm]
      change 0 ≤ m.toInt
      omega
    · rw [hm]
      exact hc.rechargeable
  · rw [pickUpDrop]
    refine .andThen fun consumed _ => ?_
    split
    · refine .andThen fun x hx => .pure ?_
      obtain ⟨b, c'⟩ := x
      exact (clientUseItemImmediate_goods hx).sound hc
    · rintro ⟨r, c'⟩ hcall
      exact hc.gainInventoryItem hitem hcall
  · rw [pickUpDrop]
    refine .andThen fun x hx => .pure ?_
    obtain ⟨r, c'⟩ := x
    obtain ⟨-, rfl⟩ | ⟨-, j, set, -, hc'⟩ := clientGainEquipment_given hx
    · exact hc
    · exact hc.congr (by rw [hc']; rfl) (by rw [hc']; rfl)

theorem pickUpDrop_weigh (hw : w.Fair) {env : ExchangeEnv} (hc : c.Sound) {item : DropItem}
    (hitem : item.Sound) :
    Exec.Ensures (pickUpDrop env alloc room c item) fun x => PickedUpDrop w c item x.1 x.2 := by
  have hpos := hw.drop_nonneg item hitem
  rcases item with amount | ⟨qid, stack⟩ | equip
  · refine .pure ⟨fun _ => ?_, fun h => absurd rfl h⟩
    obtain ⟨m, hm, hmesos⟩ := clientGainMeso_goods c amount true false
    have hc' := @mesos_clientGainMeso c amount true false (add_nonneg hc.mesos hitem)
    rw [← hmesos] at hc'
    have hle := hw.received c.character.mesos amount m hc.mesos hitem hc'
    have heq : w.character { c.character with mesos := m } =
      w.heldStacks c.character + w.heldEquipment c.character + w.meso m := rfl
    change w.character (clientCommitStats _).character ≤ _
    rw [hm, heq, Weight.character, add_assoc (w.heldStacks c.character + _)]
    exact add_le_add_right hle _
  · rw [pickUpDrop]
    refine .andThen fun consumed _ => ?_
    split
    · refine .andThen fun x hx => .pure ⟨fun _ => ?_, fun h => absurd rfl h⟩
      obtain ⟨b, c'⟩ := x
      change w.character c'.character ≤ _
      rw [(clientUseItemImmediate_goods hx).weigh]
      exact le_add_of_nonneg_right hpos
    · rintro ⟨r, c'⟩ hcall
      obtain ⟨hs, hf⟩ := weigh_gainInventoryItem hw hitem hcall
      exact ⟨hs, hf⟩
  · rw [pickUpDrop]
    refine .andThen fun x hx => .pure ?_
    obtain ⟨r, c'⟩ := x
    obtain ⟨hr, rfl⟩ | ⟨rfl, j, set, hj, hc'⟩ := clientGainEquipment_given hx
    · exact ⟨fun h => absurd (Option.some.inj h) hr, fun _ => rfl⟩
    · refine ⟨fun _ => le_of_eq ?_, fun h => absurd rfl h⟩
      obtain ⟨⟨_, hlt, he⟩, _⟩ := firstFrom_eq_some.1 hj
      have hset := @Weight.heldEquipment_setEquip M _ w (c.character.setItemQuests set) j hlt (.full equip)
      have hsame : (c.character.setItemQuests set).equipmentInventory = c.character.equipmentInventory := rfl
      rw [hsame, Cell.get?_of_isEmpty he, one_none, add_zero, Cell.get?_full, one_some] at hset
      change w.character c'.character = _
      rw [hc', Weight.character, hset]
      change w.heldStacks c.character + (w.heldEquipment c.character + w.equip equip) +
        w.meso c.character.mesos = w.character c.character + w.equip equip
      rw [Weight.character]
      abel

/-! ## What is put down -/

/-- A stack that is divided weighs no more than before. -/
theorem weigh_removed (hw : w.Fair) {cell : Cell InventoryItem} {amount : Int16} (hpos : 0 < amount.toInt)
    (hle : itemIsRechargeable cell.val.item.itemId = false → amount ≤ cell.val.quantity) :
    one w.stack (removeFrom cell amount).get? + w.stack (removedItem cell.val amount) ≤
      w.stack cell.val := by
  rw [removeFrom, removedItem]
  by_cases hr : itemIsRechargeable cell.val.item.itemId = true
  · rw [hr, Bool.true_or, if_pos rfl, if_pos rfl, Cell.get?_emptied, one_none, zero_add]
  · rw [Bool.not_eq_true] at hr
    rw [hr, Bool.false_or, if_neg Bool.false_ne_true]
    by_cases hq : cell.val.quantity = amount
    · have hsame : cell.val.setQuantity amount = cell.val := by
        rw [← hq]
        rfl
      rw [hq, beq_self_eq_true, if_pos rfl, if_pos rfl, Cell.get?_emptied, one_none, zero_add, hsame]
    · rw [beq_false_of_ne hq, if_neg Bool.false_ne_true, if_neg Bool.false_ne_true]
      have hlt : amount.toInt < cell.val.quantity.toInt := by
        have hle := le16.1 (hle hr)
        rcases lt_or_eq_of_le hle with h | h
        · exact h
        · exact absurd (eq16.2 h.symm) hq
      refine le_trans ?_ (hw.part cell.val amount hpos hlt)
      rw [add_comm]
      refine add_le_add_right ?_ _
      cases he : cell.isEmpty with
      | true =>
        rw [Cell.get?_of_isEmpty (by rwa [Cell.isEmpty_write]), one_none]
        refine hw.drop_nonneg (.item 0 (cell.val.setQuantity _)) ?_
        change 0 ≤ (cell.val.quantity - amount).toInt
        have hb := bounds16 cell.val.quantity
        rw [sub16 (by omega) (by omega)]
        omega
      | false => rw [Cell.get?_write he, one_some]

/-- What a client is left with, and what is taken from it. -/
theorem weigh_removeItem (hw : w.Fair) {inventory src : UInt8} {amount : Int16} (hpos : 0 < amount.toInt)
    {r : Option (Bool × Option InventoryItem)}
    (h : clientRemoveItem env alloc c inventory src amount = .ok (r, c')) :
    ((∀ it, r ≠ some (true, it)) ∧ c' = c) ∨ ∃ it, r = some (true, some it) ∧
      w.character c'.character + w.stack it ≤ w.character c.character := by
  obtain hnone | ⟨k, i, set, _, hi, he, hle, hr, hc⟩ := clientRemoveItem_result h
  · exact .inl hnone
  · refine .inr ⟨_, hr, ?_⟩
    have hpart := weigh_removed hw hpos hle
    have hset := Weight.heldStacks_setItem w (Inventory.lt_of_index? hi)
      (removeFrom ((c.character.inventory k).items i) amount)
    rw [Cell.get?_of_not_isEmpty he, one_some] at hset
    have hsame : SameGoods (c.character.setItem k i (removeFrom ((c.character.inventory k).items i) amount))
        c'.character := by
      rw [hc, removeStack]
      split <;> exact ⟨rfl, rfl, rfl, rfl⟩
    rw [hsame.weigh, Weight.character, Weight.character]
    have heq : w.heldEquipment (c.character.setItem k i
      (removeFrom ((c.character.inventory k).items i) amount)) = w.heldEquipment c.character := rfl
    have hm : (c.character.setItem k i
      (removeFrom ((c.character.inventory k).items i) amount)).mesos = c.character.mesos := rfl
    rw [heq, hm, add_right_comm, add_right_comm _ (w.heldEquipment _)]
    refine add_le_add_left (add_le_add_left ?_ _) _
    refine le_of_add_le_add_right (a := w.stack ((c.character.inventory k).items i).val) ?_
    rw [add_right_comm, hset, add_assoc]
    exact add_le_add_right hpart _

/-- What is left is as sound as before, and so is what is taken. -/
theorem Client.Sound.removeItem (hc : c.Sound) {inventory src : UInt8} {amount : Int16}
    (hpos : 0 < amount.toInt) {r : Option (Bool × Option InventoryItem)}
    (h : clientRemoveItem env alloc c inventory src amount = .ok (r, c')) :
    c'.Sound ∧ ∀ it, r = some (true, some it) → 0 ≤ it.quantity.toInt := by
  obtain ⟨hnone, rfl⟩ | ⟨k, i, set, _, hi, he, hle, rfl, hc'⟩ := clientRemoveItem_result h
  · exact ⟨hc, fun it hr => absurd hr (hnone _)⟩
  · have hview : (c.character.inventory k).view i = some ((c.character.inventory k).items i).val :=
      Inventory.view_eq_some.2 ⟨Inventory.lt_of_index? hi, he, rfl⟩
    refine ⟨hc.setInventory k ((c.character.inventory k).set i
      (removeFrom ((c.character.inventory k).items i) amount)) ?_ ?_ fun j it hj hr => ?_, fun it hit => ?_⟩
    · rw [hc', removeStack]
      split <;> rfl
    · rw [hc', removeStack]
      split <;> rfl
    · rcases view_set_cases hj with hcell | hold
      · rw [removeFrom] at hcell
        split at hcell
        · cases hcell
        · rename_i hne
          rw [Cell.get?_write he] at hcell
          cases hcell
          rw [InventoryItem.item_setQuantity] at hr
          rw [hr] at hne
          exact absurd rfl hne
      · exact hc.rechargeable k j it hold hr
    · cases hit
      rw [removedItem]
      split
      · rename_i hr
        exact hc.rechargeable k i _ hview hr
      · split <;> exact hpos.le

omit [PartialOrder M] [IsOrderedCancelAddMonoid M] in
/-- A piece of equipment is taken from a client. -/
theorem clientRemoveEquip_given {equipped : Bool} {src : UInt8} {r : Option (Bool × Option Equipment)}
    (h : clientRemoveEquip c equipped src = (r, c')) :
    ((∀ e, r ≠ some (true, some e)) ∧ SameGoods c.character c'.character) ∨ ∃ e, r = some (true, some e) ∧
      c'.character.inventory = c.character.inventory ∧ c'.character.mesos = c.character.mesos ∧
      w.heldEquipment c'.character + w.equip e = w.heldEquipment c.character := by
  cases equipped with
  | false =>
    obtain ⟨hnone, rfl⟩ | ⟨i, hi, he, rfl, hc⟩ := clientRemoveEquip_result h
    · exact .inl ⟨fun e => hnone _, rfl, rfl, rfl, rfl⟩
    · refine .inr ⟨_, rfl, by rw [hc]; rfl, by rw [hc]; rfl, ?_⟩
      have hset := Weight.heldEquipment_setEquip w (Inventory.lt_of_index? hi)
        (c.character.equipmentInventory.items i).emptied
      rw [Cell.get?_of_not_isEmpty he, one_some, Cell.get?_emptied, one_none, add_zero, ← hc] at hset
      exact hset
  | true =>
    rw [clientRemoveEquip, if_pos rfl] at h
    simp only at h
    split at h
    · split at h
      · cases h
        exact .inl ⟨(by simp), rfl, rfl, rfl, rfl⟩
      · rename_i hlt he
        rw [Bool.not_eq_true] at he
        cases h
        refine .inr ⟨_, rfl, rfl, rfl, ?_⟩
        have hset := @Weight.heldEquipment_setWorn M _ w c.character
          ⟨(equipSlotToCompact src.toUInt32).toNat, hlt⟩
          (c.character.equippedEquipment ⟨(equipSlotToCompact src.toUInt32).toNat, hlt⟩).emptied
        rw [Cell.get?_of_not_isEmpty he, one_some, Cell.get?_emptied, one_none, add_zero] at hset
        exact hset
    · cases h
      exact .inl ⟨(by simp), rfl, rfl, rfl, rfl⟩

/-- What is taken from a client to be put down: the client does not have it any more. -/
structure PutDown (w : Weight M) (c : Client) (x : Option DropItem × Client) : Prop where
  sound : x.2.Sound
  item : ∀ d, x.1 = some d → d.Sound
  weigh : w.character x.2.character + x.1.elim 0 w.drop ≤ w.character c.character

omit [IsOrderedCancelAddMonoid M] in
/-- Nothing is put down. -/
theorem PutDown.none (hc : c.Sound) (h : SameGoods c.character c'.character) : PutDown w c (none, c') :=
  ⟨h.sound hc, nofun, by
    rw [Option.elim_none, add_zero, h.weigh]⟩

theorem takeStack_spec (hw : w.Fair) (hc : c.Sound) (inventory : UInt8) (src : Int16) {quantity : Int16}
    (hpos : 0 < quantity.toInt) :
    Exec.Ensures (takeStack env alloc c inventory src quantity) (PutDown w c) := by
  rw [takeStack]
  refine .andThen fun x hx => ?_
  obtain ⟨r, c'⟩ := x
  obtain ⟨hc', hitem⟩ := hc.removeItem hpos hx
  have hweigh := weigh_removeItem hw hpos hx
  split
  · rename_i item c'' heq
    cases heq
    obtain ⟨hnone, -⟩ | ⟨it, hit, hle⟩ := hweigh
    · exact absurd rfl (hnone _)
    · cases hit
      refine .pure ⟨hc', fun d hd => ?_, hle⟩
      cases hd
      exact hitem _ rfl
  · rename_i hne heq
    cases heq
    obtain ⟨-, rfl⟩ | ⟨it, rfl, -⟩ := hweigh
    · exact .pure (.none hc ⟨rfl, rfl, rfl, rfl⟩)
    · exact (hne it rfl).elim

omit [IsOrderedCancelAddMonoid M] in
theorem equipToDrop_spec (hc : c.Sound) {equipped : Bool} {src : UInt8}
    {x : Option (Bool × Option Equipment) × Client} (hx : clientRemoveEquip c equipped src = x) :
    PutDown w c (equipToDrop x) := by
  obtain ⟨r, c'⟩ := x
  obtain ⟨hnone, hsame⟩ | ⟨e, rfl, hi, hm, hequip⟩ := clientRemoveEquip_given (w := w) hx
  · have hnothing : equipToDrop (r, c') = (none, c') := by
      rw [equipToDrop]
      exact hnone
    rw [hnothing]
    exact .none hc hsame
  · refine ⟨hc.congr hm hi, fun d hd => ?_, le_of_eq ?_⟩
    · cases hd
      trivial
    · have hstacks : w.heldStacks c'.character = w.heldStacks c.character := by
        rw [Weight.heldStacks, hi, Weight.heldStacks]
      change w.character c'.character + w.equip _ = _
      rw [Weight.character, Weight.character, hstacks, hm, add_right_comm, add_assoc (w.heldStacks _), hequip]

omit [IsOrderedCancelAddMonoid M] in
theorem takeEquip_spec (hc : c.Sound) (src : Int16) : PutDown w c (takeEquip c src) := by
  rw [takeEquip]
  split
  · exact equipToDrop_spec hc rfl
  · exact equipToDrop_spec hc rfl

theorem takeToDrop_spec (hw : w.Fair) (hc : c.Sound) (inventory : UInt8) (src quantity : Int16) :
    Exec.Ensures (takeToDrop env alloc c inventory src quantity) (PutDown w c) := by
  rw [takeToDrop]
  split
  · exact .pure (.none hc ⟨rfl, rfl, rfl, rfl⟩)
  · rename_i hok
    have hpos : 0 < quantity.toInt := by
      rw [Bool.or_eq_true, not_or, decide_eq_true_eq, le16, zero16] at hok
      omega
    split
    · exact takeStack_spec hw hc inventory src hpos
    · split
      · exact .pure (.none hc ⟨rfl, rfl, rfl, rfl⟩)
      · exact .pure (takeEquip_spec hc src)

theorem takeMesos_spec (hw : w.Fair) (hc : c.Sound) (amount : Int32) : PutDown w c (takeMesos c amount) := by
  rw [takeMesos]
  split
  · exact .none hc ⟨rfl, rfl, rfl, rfl⟩
  · rename_i hok
    split
    · exact .none hc ⟨rfl, rfl, rfl, rfl⟩
    · rename_i henough
      have hpos : 10 ≤ amount.toInt := by
        rw [Bool.or_eq_true, not_or, decide_eq_true_eq, lt32] at hok
        exact not_lt.1 hok.1
      have hle : amount.toInt ≤ c.character.mesos.toInt := by
        rw [lt32] at henough
        exact not_lt.1 henough
      have hb := bounds32 c.character.mesos
      have hneg : (-amount).toInt = -amount.toInt := neg32 (by omega)
      obtain ⟨m, hm, hmesos⟩ := clientGainMeso_goods c (-amount) false false
      have hc' := @mesos_clientGainMeso c (-amount) false false
        (by rw [hneg]; omega)
      rw [← hmesos, hneg] at hc'
      refine ⟨⟨?_, ?_⟩, fun d hd => ?_, ?_⟩
      · change 0 ≤ (clientCommitStats _).character.mesos.toInt
        rw [hm]
        change 0 ≤ m.toInt
        omega
      · change ∀ k i it, ((clientCommitStats _).character.inventory k).view i = some it → _
        rw [hm]
        exact hc.rechargeable
      · cases hd
        change 0 ≤ amount.toInt
        omega
      · have hle := hw.paid c.character.mesos amount m (by omega) hle (by omega)
        have heq : w.character { c.character with mesos := m } =
          w.heldStacks c.character + w.heldEquipment c.character + w.meso m := rfl
        change w.character (clientCommitStats _).character + w.meso amount ≤ _
        rw [hm, heq, Weight.character, add_assoc]
        exact add_le_add_right hle _

end Syrup
