import Syrup.Map.Exchange.Clients

/-!
# Amounts and ids

The weights the rules are about: how much there is of an item (`amountOf`), how many mesos (`mesosOf`),
and which ids of the database there are (`idsOf`), all of which are `Fair`. Quantities are 16 bits wide:
what is left of a stack may be too much for them when others are filled up, and is less then.
-/

namespace Syrup

open Slots Sweep Machine

variable {env : Env} {alloc : Bool} {room : ℕ} {chr chr' : Character} {item : InventoryItem}

section Fill

variable {M : Type*} [AddCommMonoid M] (w : Weight M)

/-- One cell of an inventory is rewritten by a step of a sweep. -/
theorem weigh_update_items {inv : Inventory InventoryItem} {t : Fin maxItemCount → Cell InventoryItem}
    {j : Fin maxItemCount} (hj : j ∈ inv.slots) (cell : Cell InventoryItem) :
    (inv.withItems (Function.update t j cell)).weigh w.stack + one w.stack (t j).get? =
      (inv.withItems t).weigh w.stack + one w.stack cell.get? :=
  @Weight.weigh_set_add M _ InventoryItem w.stack (inv.withItems t) j (Inventory.mem_slots.1 hj) cell

/-- What has been given weighs no more than what there was and the stack, if that is so of what the loop
    has filled up and what is put into an empty slot. -/
theorem heldStacks_pickedUp {M : Type*} [AddCancelCommMonoid M] [PartialOrder M]
    [IsOrderedCancelAddMonoid M] {w : Weight M} (h : PickedUpStack env alloc room chr chr' item)
    (hsweep : ∀ info k items s, sweep (pickUpBody env alloc room chr info item k) (chr.inventory k).slots
        (chr.inventory k).items ⟨item.quantity, chr.itemQuests, [], false⟩ = .ok (items, s) →
      ((chr.inventory k).withItems items).weigh w.stack +
        (if s.quantity = 0 then 0 else w.stack (item.setQuantity s.quantity)) ≤
          (chr.inventory k).weigh w.stack + w.stack item) :
    w.heldStacks chr' ≤ w.heldStacks chr + w.stack item := by
  obtain ⟨info, k, items, s, set, -, -, hs, -, hend⟩ := h
  have hle := hsweep info k items s hs
  have hdone (inv : Inventory InventoryItem) (hsame : chr'.inventory = (chr.setInventory k inv).inventory)
      (hinv : inv.weigh w.stack ≤ (chr.inventory k).weigh w.stack + w.stack item) :
      w.heldStacks chr' ≤ w.heldStacks chr + w.stack item := by
    have hset := Weight.heldStacks_setInventory w chr k inv
    have heq : w.heldStacks chr' = w.heldStacks (chr.setInventory k inv) := by
      rw [Weight.heldStacks, Weight.heldStacks, hsame]
    rw [← heq] at hset
    refine le_of_add_le_add_right (a := (chr.inventory k).weigh w.stack) ?_
    rw [hset, add_assoc]
    exact add_le_add_right (hinv.trans_eq (add_comm _ _)) _
  obtain ⟨hq, rfl⟩ | ⟨hq, j, hj, rfl⟩ := hend
  · refine hdone ((chr.inventory k).withItems items) rfl ?_
    rwa [if_pos hq, add_zero] at hle
  · refine hdone (((chr.inventory k).withItems items).set j (.full (item.setQuantity s.quantity))) rfl ?_
    obtain ⟨⟨_, hlt, he⟩, _⟩ := firstFrom_eq_some.1 hj
    have hset := @Weight.weigh_set_add M _ InventoryItem w.stack ((chr.inventory k).withItems items) j hlt
      (.full (item.setQuantity s.quantity))
    rw [Cell.get?_of_isEmpty he, one_none, add_zero, Cell.get?_full, one_some] at hset
    rw [if_neg hq] at hle
    rwa [hset]

end Fill

/-! ## Ids -/

section Ids

variable {M : Type*} [AddCancelCommMonoid M] [PartialOrder M] [IsOrderedCancelAddMonoid M] {w : Weight M}
  {f : UInt64 → M}

/-- A weight of ids, and not of mesos. -/
structure Weight.OfIds (w : Weight M) (f : UInt64 → M) : Prop where
  stack : ∀ it, w.stack it = f it.item.id
  zero : f 0 = 0
  nonneg : ∀ n, 0 ≤ f n
  equip : ∀ e, 0 ≤ w.equip e
  meso : ∀ m, w.meso m = 0

/-- The id of a stack onto which another one is put is one of the two. -/
theorem Weight.OfIds.stackOnto (h : w.OfIds f) (quantity : Int16) (it : InventoryItem) :
    w.stack (stackOnto item quantity it) ≤ w.stack it + w.stack item := by
  rw [h.stack, h.stack, h.stack, Syrup.stackOnto]
  by_cases hid : it.item.id = 0
  · rw [if_pos hid, hid, h.zero, zero_add]
  · rw [if_neg hid]
    exact le_add_of_nonneg_right (h.nonneg _)

theorem Weight.OfIds.gained (h : w.OfIds f) (hgiven : PickedUpStack env alloc room chr chr' item) :
    w.heldStacks chr' ≤ w.heldStacks chr + w.stack item := by
  refine heldStacks_pickedUp hgiven fun info k items s hsweep => ?_
  have hrest (q : Int16) : (if q = 0 then 0 else w.stack (item.setQuantity q)) ≤ w.stack item := by
    split
    · rw [h.stack]
      exact h.nonneg _
    · rw [h.stack, h.stack, InventoryItem.item_setQuantity]
  have hend (t : Fin maxItemCount → Cell InventoryItem) (s : PickUp)
      (ht : ((chr.inventory k).withItems t).weigh w.stack ≤ (chr.inventory k).weigh w.stack) :
      ((chr.inventory k).withItems t).weigh w.stack +
        (if s.quantity = 0 then 0 else w.stack (item.setQuantity s.quantity)) ≤
          (chr.inventory k).weigh w.stack + w.stack item := add_le_add ht (hrest s.quantity)
  refine (sweep_end (I := fun t _ => ((chr.inventory k).withItems t).weigh w.stack ≤
    (chr.inventory k).weigh w.stack) (J := fun t s => ((chr.inventory k).withItems t).weigh w.stack +
      (if s.quantity = 0 then 0 else w.stack (item.setQuantity s.quantity)) ≤
        (chr.inventory k).weigh w.stack + w.stack item) hsweep (fun j hj t s out ht hout => ?_) le_rfl).elim
    id (hend items s)
  have hset := weigh_update_items w hj (t := t) out.cell
  obtain ⟨hcell, -, -⟩ | ⟨he, -, ⟨-, hcell, -⟩ | ⟨-, hcell, hq, hstop⟩⟩ := pickUpBody_cases hout
  · rw [hcell, Function.update_eq_self]
    exact ⟨fun _ => hend t _ ht, fun _ => ht⟩
  · have hsame : one w.stack out.cell.get? = one w.stack (t j).get? := by
      rw [hcell, Cell.get?_write he, Cell.get?_of_not_isEmpty he, one_some, one_some, h.stack, h.stack,
        InventoryItem.item_setQuantity]
    rw [hsame] at hset
    have ht' := (add_right_cancel hset).le.trans ht
    exact ⟨fun _ => hend _ _ ht', fun _ => ht'⟩
  · refine ⟨fun _ => ?_, fun hgo => absurd hstop (by rw [hgo]; exact Bool.false_ne_true)⟩
    rw [if_pos hq, add_zero]
    rw [hcell, Cell.get?_write he, Cell.get?_of_not_isEmpty he, one_some, one_some, ← hcell] at hset
    refine le_of_add_le_add_right (a := w.stack (t j).val) ?_
    rw [hset, add_assoc, add_comm (w.stack item)]
    exact add_le_add ht (h.stackOnto _ _)

/-- An id that is not `0`. -/
def idOf (n : UInt64) : Multiset UInt64 := if n = 0 then 0 else {n}

/-- The ids of items. -/
def itemIds : Weight (Multiset UInt64) where
  stack it := idOf it.item.id
  equip e := idOf e.item.id
  meso _ := 0

end Ids

/-! ## Amounts -/

end Syrup
