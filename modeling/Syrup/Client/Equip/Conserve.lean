import Syrup.Client.Equip

/-!
# What putting on and taking off conserve

Equipment that is put on or taken off should be neither created nor destroyed, and the
slots should be in the arrays. Both are so but for

* the slot `148`, which is a valid slot, and has the index `64` in an array of `64`;
* taking off from a slot that is empty, which makes equipment of its stale payload.
-/

namespace Syrup

open Slots

/-- The equipment of a character: what is worn, and what is carried. -/
def allEquipment (chr : Character) : Multiset Equipment :=
  contents chr.worn + chr.equipmentInventory.contents

section Slots

/-- The first `148` numbers, all that a valid slot can be. -/
theorem slot_le_of_valid {slot : UInt32} (h : isValidEquipSlot slot = true) :
    slot.toNat < 149 := by
  have hle (n : UInt32) (hn : slot ≤ n) : slot.toNat ≤ n.toNat := UInt32.le_iff_toNat_le.1 hn
  simp only [isValidEquipSlot, Bool.or_eq_true, Bool.and_eq_true, decide_eq_true_eq,
    beq_iff_eq] at h
  rcases h with (((⟨_, h⟩ | ⟨_, h⟩) | rfl) | rfl) | ⟨_, h⟩
  · exact (hle 11 h).trans_lt (by decide)
  · exact (hle 20 h).trans_lt (by decide)
  · decide
  · decide
  · exact (hle 148 h).trans_lt (by decide)

/-- Of the valid slots, exactly `148` has no index. -/
theorem equipIndex_valid {slot : UInt32} (h : isValidEquipSlot slot = true) :
    (slot = 148 ∧ equipIndex slot = .error .outOfBounds) ∨
      slot ≠ 148 ∧ ∃ i, equipIndex slot = .ok i := by
  have hall : ∀ n : Fin 149, isValidEquipSlot (UInt32.ofNat n) = true →
      (UInt32.ofNat n.val = 148 ↔
        ¬ (equipSlotToCompact (UInt32.ofNat n)).toNat < equipSlotCount) := by decide +kernel
  have hn := hall ⟨slot.toNat, slot_le_of_valid h⟩
  rw [UInt32.ofNat_toNat] at hn
  have hn := hn h
  rw [equipIndex]
  split
  · rename_i hlt
    exact .inr ⟨fun e => hn.1 e hlt, _, rfl⟩
  · rename_i hlt
    exact .inl ⟨hn.2 hlt, rfl⟩

end Slots

section Exchange

variable {chr : Character} {i : Fin maxItemCount} {j : Fin equipSlotCount}

/-- Rewriting a slot of what is worn and one of what is carried keeps the equipment exactly
    when the same is written as was there. -/
theorem allEquipment_update_iff {chr' : Character} (hi : i.val < chr.equipmentInventory.slotCount)
    {c c' : Cell Equipment}
    (hworn : chr'.equippedEquipment = Function.update chr.equippedEquipment j c)
    (hinv : chr'.equipmentInventory = chr.equipmentInventory.set i c') :
    allEquipment chr' = allEquipment chr ↔
      one (fun e => ({e} : Multiset Equipment)) c.get? + one (fun e => {e}) c'.get? =
        one (fun e => {e}) (chr.equippedEquipment j).get? +
          one (fun e => {e}) (chr.equipmentInventory.items i).get? := by
  rw [allEquipment, allEquipment, Character.worn_of_update hworn, hinv, Inventory.contents, Inventory.contents,
    Inventory.view_set hi, ← Inventory.view_of_lt hi]
  exact weigh_update_add_iff ..

/-- Putting on keeps the equipment. -/
theorem allEquipment_putOn (hi : i.val < chr.equipmentInventory.slotCount)
    (he : (chr.equipmentInventory.items i).isEmpty = false) :
    allEquipment (putOn chr i j) = allEquipment chr := by
  rw [putOn]
  split
  · rename_i hj
    refine (allEquipment_update_iff hi rfl rfl).2 ?_
    rw [Cell.get?_full, Cell.get?_emptied, Cell.get?_of_isEmpty hj, Cell.get?_of_not_isEmpty he,
      add_comm]
  · rename_i hj
    rw [Bool.not_eq_true] at hj
    refine (allEquipment_update_iff hi rfl rfl).2 ?_
    rw [Cell.get?_write hj, Cell.get?_write he, Cell.get?_of_not_isEmpty hj,
      Cell.get?_of_not_isEmpty he, add_comm]

/-- Taking off keeps the equipment exactly when something is worn, or what takes the place of
    something carried is the same. -/
theorem allEquipment_takeOff_iff (hi : i.val < chr.equipmentInventory.slotCount) :
    allEquipment (takeOff chr j i) = allEquipment chr ↔
      (chr.equippedEquipment j).isEmpty = false ∨
        (chr.equipmentInventory.items i).isEmpty = false ∧
          (chr.equippedEquipment j).val = (chr.equipmentInventory.items i).val := by
  rw [takeOff]
  cases hj : (chr.equippedEquipment j).isEmpty with
  | false =>
    refine iff_of_true ?_ (.inl rfl)
    split
    · rename_i he
      refine (allEquipment_update_iff hi rfl rfl).2 ?_
      rw [Cell.get?_full, Cell.get?_emptied, Cell.get?_of_isEmpty he, Cell.get?_of_not_isEmpty hj,
        add_comm]
    · rename_i he
      rw [Bool.not_eq_true] at he
      refine (allEquipment_update_iff hi rfl rfl).2 ?_
      rw [Cell.get?_write hj, Cell.get?_write he, Cell.get?_of_not_isEmpty hj,
        Cell.get?_of_not_isEmpty he, add_comm]
  | true =>
    have hwrite (e : Equipment) : ((chr.equippedEquipment j).write e).get? = none :=
      Cell.get?_of_isEmpty (by rwa [Cell.isEmpty_write])
    split
    · rename_i he
      refine (allEquipment_update_iff hi rfl rfl).trans ?_
      rw [Cell.get?_full, Cell.get?_emptied, Cell.get?_of_isEmpty he, Cell.get?_of_isEmpty hj, he]
      simp
    · rename_i he
      rw [Bool.not_eq_true] at he
      refine (allEquipment_update_iff hi rfl rfl).trans ?_
      rw [hwrite, Cell.get?_write he, Cell.get?_of_isEmpty hj, Cell.get?_of_not_isEmpty he, he]
      simp

end Exchange

/-- The calls of `client_equip` that keep the equipment: nothing is put on in the slot
    `148`. -/
def EquipSafe (c : Client) (src : UInt8) (slot : UInt32) : Prop :=
  slot = 148 → ∀ i, c.character.equipmentInventory.index? (src - 1).toNat = some i →
    (c.character.equipmentInventory.items i).isEmpty = true

/-- The calls of `client_unequip` that keep the equipment: of those that are not refused, the
    slot is not `148`, and something is worn in it, or what was worn there last is what is
    carried in the other slot. -/
def UnequipSafe (c : Client) (slot : UInt32) (dst : UInt8) : Prop :=
  isValidEquipSlot slot = true →
    ∀ i, c.character.equipmentInventory.index? (dst - 1).toNat = some i →
      ∃ j, equipIndex slot = .ok j ∧
        ((c.character.equippedEquipment j).isEmpty = false ∨
          (c.character.equipmentInventory.items i).isEmpty = false ∧
            (c.character.equippedEquipment j).val = (c.character.equipmentInventory.items i).val)

@[simp] theorem equippedEquipment_clampHpMp (c : Client) :
    (clampHpMp c).character.equippedEquipment = c.character.equippedEquipment := by
  rw [clampHpMp]
  split <;> rfl

@[simp] theorem equipmentInventory_clampHpMp (c : Client) :
    (clampHpMp c).character.equipmentInventory = c.character.equipmentInventory := by
  rw [clampHpMp]
  split <;> rfl

/-- The equipment is what is in the slots. -/
theorem allEquipment_congr {chr chr' : Character}
    (hworn : chr'.equippedEquipment = chr.equippedEquipment)
    (hinv : chr'.equipmentInventory = chr.equipmentInventory) :
    allEquipment chr' = allEquipment chr := by
  rw [allEquipment, allEquipment, Character.worn_congr hworn, hinv]

/-- `client_equip` returns and keeps the equipment exactly when it is safe. -/
theorem clientEquip_conserves_iff (c : Client) (src : UInt8) (slot : UInt32) :
    ((clientEquip c src slot).Returns fun r =>
        allEquipment r.2.character = allEquipment c.character) ↔ EquipSafe c src slot := by
  rw [clientEquip]
  simp only
  split
  · rename_i hv
    refine iff_of_true rfl ?_
    rintro rfl
    exact absurd hv (by decide)
  · rename_i hv
    have hv : isValidEquipSlot slot = true := by simpa using hv
    split
    · rename_i hi
      exact iff_of_true rfl fun _ i hi' => by cases hi.symm.trans hi'
    · rename_i i hi
      split
      · rename_i he
        refine iff_of_true rfl fun _ i' hi' => ?_
        cases hi.symm.trans hi'
        exact he
      · rename_i he
        rw [Bool.not_eq_true] at he
        rcases equipIndex_valid hv with ⟨hslot, hj⟩ | ⟨hslot, j, hj⟩
        · rw [hj]
          refine iff_of_false (fun h => h) fun h => ?_
          cases he.symm.trans (h hslot i hi)
        · rw [hj]
          refine iff_of_true ?_ fun h => absurd h hslot
          exact (allEquipment_congr rfl rfl).trans
            (allEquipment_putOn (Inventory.lt_of_index? hi) he)

/-- `client_unequip` returns and keeps the equipment exactly when it is safe. -/
theorem clientUnequip_conserves_iff (c : Client) (slot : UInt32) (dst : UInt8) :
    ((clientUnequip c slot dst).Returns fun r =>
        allEquipment r.2.character = allEquipment c.character) ↔ UnequipSafe c slot dst := by
  rw [clientUnequip]
  simp only
  split
  · rename_i hv
    refine iff_of_true rfl fun hv' => ?_
    rw [hv'] at hv
    cases hv
  · rename_i hv
    have hv : isValidEquipSlot slot = true := by simpa using hv
    rw [UnequipSafe, forall_prop_of_true hv]
    split
    · rename_i hi
      exact iff_of_true rfl fun i hi' => by cases hi.symm.trans hi'
    · rename_i i hi
      have hall {P : Fin maxItemCount → Prop} : (∀ i',
          c.character.equipmentInventory.index? (dst - 1).toNat = some i' → P i') ↔ P i :=
        ⟨fun h => h i hi, fun h i' hi' => by cases hi.symm.trans hi'; exact h⟩
      rw [hall]
      rcases equipIndex_valid hv with ⟨hslot, hj⟩ | ⟨hslot, j, hj⟩
      · rw [hj]
        exact iff_of_false (fun h => h) (by simp)
      · rw [hj]
        have hlt := Inventory.lt_of_index? hi
        -- `activeProjectile` may have been rewritten before.
        generalize hchr : dropProjectile c.character slot = chr
        have hworn : chr.equippedEquipment = c.character.equippedEquipment := by
          rw [← hchr, dropProjectile]
          split <;> rfl
        have hinv : chr.equipmentInventory = c.character.equipmentInventory := by
          rw [← hchr, dropProjectile]
          split <;> rfl
        have hiff := @allEquipment_takeOff_iff chr _ j (hinv ▸ hlt)
        rw [hworn, hinv, allEquipment_congr hworn hinv] at hiff
        have hclamp := allEquipment_congr (equippedEquipment_clampHpMp (c.setCharacter
          (takeOff chr j i))) (equipmentInventory_clampHpMp (c.setCharacter (takeOff chr j i)))
        have hex {P : Fin equipSlotCount → Prop} :
            (∃ j', (.ok j : Exec (Fin equipSlotCount)) = .ok j' ∧ P j') ↔ P j := by
          simp
        rw [hex, ← hiff, ← Client.character_setCharacter c (takeOff chr j i), ← hclamp]
        rfl

/-- Putting on and taking off return and keep the equipment exactly when they are safe. -/
theorem equip_conserves_iff (c : Client) (src dst : UInt8) (slot : UInt32) :
    (((clientEquip c src slot).Returns fun r =>
        allEquipment r.2.character = allEquipment c.character) ↔ EquipSafe c src slot) ∧
      (((clientUnequip c slot dst).Returns fun r =>
        allEquipment r.2.character = allEquipment c.character) ↔ UnequipSafe c slot dst) :=
  ⟨clientEquip_conserves_iff c src slot, clientUnequip_conserves_iff c slot dst⟩

/-- A character that has nothing takes off what it does not wear, and has something; and what
    is put on in the slot `148` is outside the array. -/
theorem equip_not_conserved :
    allEquipment default = 0 ∧
      ((clientUnequip (.new default) 1 1).Returns fun r =>
        r.1 = true ∧ r.2.character.equipmentInventory.view 0 = some default) ∧
      ¬ (clientEquip (.new ((default : Character).setEquip 0 (.full (.plain 1142000)))) 1
        148).Returns fun _ => True := by
  decide +kernel

end Syrup
