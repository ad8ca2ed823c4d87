import Syrup.Character
import Syrup.Lib.Machine

/-!
# What a character holds

How much of an item a character holds: the stacks of the item in its inventory
count with their quantities, pieces of equipment count `1`. Every loop over an
inventory that keeps the books can be checked step by step (`sweep_inventory`).
-/

namespace Syrup

open Sweep Slots

/-- What a stack counts for an item. -/
def stackCount (x : UInt32) (it : InventoryItem) : ℤ :=
  if it.item.itemId = x then it.quantity.toInt else 0

/-- What a piece of equipment counts for an item. -/
def equipCount (x : UInt32) (e : Equipment) : ℤ := if e.item.itemId = x then 1 else 0

/-- How much of an item is held in inventories, in the one the item goes into. -/
def heldIn (invs : Fin inventoryCount → Inventory InventoryItem) (equipInv : Inventory Equipment)
    (x : UInt32) : ℤ :=
  if isEquipId x then equipInv.weigh (equipCount x)
  else
    match inventoryOfId x with
    | .ok k => (invs k).weigh (stackCount x)
    | .error _ => 0

/-- How much of an item a character holds. -/
def held (chr : Character) (x : UInt32) : ℤ := heldIn chr.inventory chr.equipmentInventory x

theorem heldIn_of_equip {invs : Fin inventoryCount → Inventory InventoryItem}
    {equipInv : Inventory Equipment} {x : UInt32} (hx : isEquipId x = true) :
    heldIn invs equipInv x = equipInv.weigh (equipCount x) := if_pos hx

theorem heldIn_of_stack {invs : Fin inventoryCount → Inventory InventoryItem}
    {equipInv : Inventory Equipment} {x : UInt32} {k : Fin inventoryCount}
    (hx : isEquipId x = false) (hk : inventoryOfId x = .ok k) :
    heldIn invs equipInv x = (invs k).weigh (stackCount x) := by
  rw [heldIn, hx, hk]
  rfl

/-- Only the item whose stacks are changed is held more or less of. -/
theorem heldIn_update_inv {invs : Fin inventoryCount → Inventory InventoryItem}
    {equipInv : Inventory Equipment} {id : UInt32} {k : Fin inventoryCount}
    {inv : Inventory InventoryItem} {d : ℤ} (hid : isEquipId id = false)
    (hk : inventoryOfId id = .ok k)
    (hw : ∀ x, inv.weigh (stackCount x) =
      (invs k).weigh (stackCount x) + if x = id then d else 0) (x : UInt32) :
    heldIn (Function.update invs k inv) equipInv x =
      heldIn invs equipInv x + if x = id then d else 0 := by
  by_cases hx : isEquipId x = true
  · rw [heldIn_of_equip hx, heldIn_of_equip hx, if_neg, add_zero]
    rintro rfl
    rw [hx] at hid
    cases hid
  · rw [Bool.not_eq_true] at hx
    cases hkx : inventoryOfId x with
    | error e =>
      have hne : x ≠ id := by
        rintro rfl
        rw [hk] at hkx
        cases hkx
      rw [heldIn, heldIn, hx, hkx, if_neg hne]
      rfl
    | ok k' =>
      rw [heldIn_of_stack hx hkx, heldIn_of_stack hx hkx]
      by_cases hkk : k' = k
      · rw [hkk, Function.update_self, hw]
      · rw [Function.update_of_ne hkk, if_neg, add_zero]
        rintro rfl
        rw [hk] at hkx
        cases hkx
        exact hkk rfl

/-- Only the equipment that is changed is held more or less of. -/
theorem heldIn_equip {invs : Fin inventoryCount → Inventory InventoryItem}
    {equipInv equipInv' : Inventory Equipment} {id : UInt32} {d : ℤ} (hid : isEquipId id = true)
    (hw : ∀ x, equipInv'.weigh (equipCount x) =
      equipInv.weigh (equipCount x) + if x = id then d else 0) (x : UInt32) :
    heldIn invs equipInv' x = heldIn invs equipInv x + if x = id then d else 0 := by
  by_cases hx : isEquipId x = true
  · rw [heldIn_of_equip hx, heldIn_of_equip hx, hw]
  · rw [heldIn, heldIn, if_neg hx, if_neg hx, if_neg, add_zero]
    rintro rfl
    exact hx hid

/-- A weight of what an inventory shows, slot by slot. -/
theorem weigh_eq_sum {α : Type*} {inv : Inventory α} (w : α → ℤ) :
    inv.weigh w = ∑ j, if j.val < inv.slotCount then one w (inv.items j).get? else 0 := by
  rw [Inventory.weigh, weigh]
  refine Finset.sum_congr rfl fun j _ => ?_
  by_cases hj : j.val < inv.slotCount
  · rw [if_pos hj, Inventory.view_of_lt hj]
  · rw [if_neg hj, Inventory.view, if_neg hj]
    rfl

/-- What a slot of the inventory of equipment counts for an item, as the loops look at it. -/
theorem one_equipCount {x : UInt32} {c : Cell Equipment} :
    one (equipCount x) c.get? = if !c.isEmpty && c.val.item.itemId == x then 1 else 0 := by
  cases he : c.isEmpty with
  | true => simp [Cell.get?_of_isEmpty he]
  | false => simp [Cell.get?_of_not_isEmpty he, equipCount]

/-- The same of a slot of stacks. -/
theorem one_stackCount {x : UInt32} {c : Cell InventoryItem} :
    one (stackCount x) c.get? =
      if !c.isEmpty && c.val.item.itemId == x then c.val.quantity.toInt else 0 := by
  cases he : c.isEmpty with
  | true => simp [Cell.get?_of_isEmpty he]
  | false => simp [Cell.get?_of_not_isEmpty he, stackCount]

/-- What goes out of the amount of an item comes into the books of the item. -/
theorem books {P : Prop} [Decidable P] {a b c d : ℤ}
    (h : a + (if P then c else 0) = b + if P then d else 0) :
    a = b + if P then d - c else 0 := by
  by_cases hP : P <;> simp only [hP, if_true, if_false] at h ⊢ <;> omega

/-- The rule for a loop over the slots of an inventory: `w` is what a slot shows, and
    `m` what the state has. -/
theorem sweep_inventory {α σ : Type*} {inv : Inventory α}
    {body : Fin maxItemCount → Cell α → σ → Exec (Out (Cell α) σ)}
    {items' : Fin maxItemCount → Cell α} {s s' : σ}
    (h : sweep body inv.slots inv.items s = .ok (items', s')) (w : α → ℤ) (m : σ → ℤ)
    {L R : Cell α → Prop} {Q B : σ → Prop}
    (hstep : ∀ i c s out, L c → Q s → body i c s = .ok out →
      L out.cell ∧ one w out.cell.get? + m out.state = one w c.get? + m s ∧
        (out.stop = true → B out.state) ∧ (out.stop = false → Q out.state ∧ R out.cell))
    (hL : ∀ i, i.val < inv.slotCount → L (inv.items i)) (hQ : Q s) :
    (∀ i, i.val < inv.slotCount → L (items' i)) ∧
      (inv.withItems items').weigh w + m s' = inv.weigh w + m s ∧
      (B s' ∨ Q s' ∧ ∀ i, i.val < inv.slotCount → R (items' i)) := by
  rw [weigh_eq_sum, weigh_eq_sum]
  obtain ⟨hL', hw, hend⟩ := sweep_rule
    (fun j c => if j.val < inv.slotCount then one w c.get? else 0) m
    (L := fun i c => i.val < inv.slotCount → L c) (R := fun _ c => R c) (Q := Q)
    (B := fun _ _ s => B s) Inventory.nodup_slots h (fun i hi s out hQ hout => by
      have hi := Inventory.mem_slots.1 hi
      obtain ⟨hL', hw, hB, hQR⟩ := hstep i _ s out (hL i hi) hQ hout
      exact ⟨fun _ => hL', by rw [if_pos hi, if_pos hi, hw], hB, hQR⟩) hL hQ
  refine ⟨hL', hw, hend.imp (fun ⟨_, _, hB, _⟩ => hB) fun ⟨hQ', hR⟩ => ⟨hQ', fun i hi => ?_⟩⟩
  exact hR i (Inventory.mem_slots.2 hi)

/-- A character that holds some potions in the first slot of its use inventory. -/
def potions (quantity : Int16) : Character :=
  (default : Character).setItem useInventory 0 (.full (.plain 2000000 quantity))

/-- The potions, of which a slot holds 100. -/
def potionEnv : Env := .ofLists [.plain 2000000 100] [] [] []

end Syrup
