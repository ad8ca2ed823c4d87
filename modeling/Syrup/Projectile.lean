import Syrup.Character

/-!
# Projectiles

Bows (weapons `145xxxx`) shoot arrows (`2060xxx`), crossbows (`146xxxx`) shoot
crossbow arrows (`2061xxx`), claws (`147xxxx`) throw stars and guns (`149xxxx`)
shoot bullets. Stars and bullets are not used up, and can be shot as long as some
are left.

The functions of `client.c` each look for projectiles with their own loops, one for
every kind of weapon. They all look for the first slot from some slot on with a
projectile for the weapon (`findProjectile`); what `activeProjectile` is meant to be
is `firstProjectile`.
-/

namespace Syrup

/-- A bow, a crossbow, a claw or a gun. -/
def isProjectileWeapon (wid : UInt32) : Bool :=
  wid / 10000 == 145 || wid / 10000 == 146 || wid / 10000 == 147 || wid / 10000 == 149

/-- Whether a weapon shoots an item, by their ids. -/
def isProjectileId (wid id : UInt32) : Bool :=
  (wid / 10000 == 145 && id / 1000 == 2060) || (wid / 10000 == 146 && id / 1000 == 2061) ||
    (wid / 10000 == 147 && itemIsThrowingStar id) || (wid / 10000 == 149 && itemIsBullet id)

/-- Whether a weapon can shoot from a stack. -/
def isProjectile (wid : UInt32) (item : InventoryItem) : Bool :=
  (wid / 10000 == 145 && item.item.itemId / 1000 == 2060) ||
    (wid / 10000 == 146 && item.item.itemId / 1000 == 2061) ||
    (wid / 10000 == 147 && itemIsThrowingStar item.item.itemId && decide (0 < item.quantity)) ||
    (wid / 10000 == 149 && itemIsBullet item.item.itemId && decide (0 < item.quantity))

/-- The first slot from `a` on that is not empty and from which a weapon can
    shoot. -/
def findProjectile (inv : Inventory InventoryItem) (wid : UInt32) (a : ℕ) :
    Option (Fin maxItemCount) :=
  Sweep.firstFrom (fun i => !(inv.items i).isEmpty && isProjectile wid (inv.items i).val) a
    inv.slotCount

/-- An index as a value of `activeProjectile`. -/
def projectileSlot (i : Fin maxItemCount) : UInt8 := UInt8.ofNat i.val

/-- The loops that look for a projectile for a weapon from a slot on, and leave
    `activeProjectile` as it is if there is none. -/
def rescan (chr : Character) (wid : UInt32) (a : ℕ) : UInt8 :=
  ((findProjectile (chr.inventory useInventory) wid a).map projectileSlot).getD
    chr.activeProjectile

/-- The loops that look for a projectile for a weapon from a slot on, and set
    `activeProjectile` to `-1` if there is none. -/
def research (chr : Character) (wid : UInt32) (a : ℕ) : UInt8 :=
  if isProjectileWeapon wid then
    ((findProjectile (chr.inventory useInventory) wid a).map projectileSlot).getD noProjectile
  else chr.activeProjectile

/-- What `activeProjectile` is meant to be: the first slot of the use inventory from
    which the weapon in the weapon slot can shoot, if there is a weapon and such a
    slot. -/
def firstProjectile (chr : Character) : UInt8 :=
  match chr.worn weaponIndex with
  | none => noProjectile
  | some weapon =>
    ((findProjectile (chr.inventory useInventory) weapon.item.itemId 0).map projectileSlot).getD
      noProjectile

theorem toNat_projectileSlot (i : Fin maxItemCount) : (projectileSlot i).toNat = i.val := by
  have hi : i.val < 252 := i.isLt
  rw [projectileSlot, UInt8.toNat_ofNat']
  exact Nat.mod_eq_of_lt (by omega)

/-- Arrows are not rechargeable. -/
theorem not_rechargeable_of_arrow {id : UInt32} (h : id / 1000 = 2060 ∨ id / 1000 = 2061) :
    itemIsRechargeable id = false := by
  have hid : id.toNat / 1000 = 2060 ∨ id.toNat / 1000 = 2061 := by
    rcases h with h | h
    · exact .inl (by simpa using congrArg UInt32.toNat h)
    · exact .inr (by simpa using congrArg UInt32.toNat h)
  have hne (n : UInt32) (hn : n.toNat ≠ 206) : (id / 10000 == n) = false := by
    refine beq_eq_false_iff_ne.2 fun e => hn ?_
    have := congrArg UInt32.toNat e
    rw [UInt32.toNat_div] at this
    rw [← this]
    change id.toNat / 10000 = 206
    omega
  rw [itemIsRechargeable, itemIsThrowingStar, itemIsBullet, hne 207 (by decide),
    hne 233 (by decide)]
  rfl

/-- A stack can be shot from if the weapon shoots the item, and, if the item is
    rechargeable, some of it is left. -/
theorem isProjectile_iff {wid : UInt32} {item : InventoryItem} :
    isProjectile wid item = true ↔ isProjectileId wid item.item.itemId = true ∧
      (itemIsRechargeable item.item.itemId = true → 0 < item.quantity) := by
  have harrow := @not_rechargeable_of_arrow item.item.itemId
  simp only [isProjectile, isProjectileId, Bool.or_eq_true, Bool.and_eq_true, beq_iff_eq,
    decide_eq_true_eq] at *
  simp only [itemIsRechargeable, Bool.or_eq_true, Bool.or_eq_false_iff] at *
  constructor
  · rintro (((⟨hw, hi⟩ | ⟨hw, hi⟩) | ⟨⟨hw, hi⟩, hq⟩) | ⟨⟨hw, hi⟩, hq⟩)
    · exact ⟨.inl (.inl (.inl ⟨hw, hi⟩)), fun h => by simp [harrow (.inl hi)] at h⟩
    · exact ⟨.inl (.inl (.inr ⟨hw, hi⟩)), fun h => by simp [harrow (.inr hi)] at h⟩
    · exact ⟨.inl (.inr ⟨hw, hi⟩), fun _ => hq⟩
    · exact ⟨.inr ⟨hw, hi⟩, fun _ => hq⟩
  · rintro ⟨((⟨hw, hi⟩ | ⟨hw, hi⟩) | ⟨hw, hi⟩) | ⟨hw, hi⟩, hq⟩
    · exact .inl (.inl (.inl ⟨hw, hi⟩))
    · exact .inl (.inl (.inr ⟨hw, hi⟩))
    · exact .inl (.inr ⟨⟨hw, hi⟩, hq (.inl hi)⟩)
    · exact .inr ⟨⟨hw, hi⟩, hq (.inr hi)⟩

/-- Whether a weapon shoots does not depend on the quantity, unless it is of a rechargeable item. -/
theorem isProjectile_congr {wid : UInt32} {it it' : InventoryItem}
    (hid : it'.item.itemId = it.item.itemId)
    (hq : itemIsRechargeable it.item.itemId = true → it'.quantity = it.quantity) :
    isProjectile wid it' = isProjectile wid it := by
  rw [Bool.eq_iff_iff, isProjectile_iff, isProjectile_iff, hid]
  constructor
  · rintro ⟨hi, h⟩
    exact ⟨hi, fun hr => hq hr ▸ h hr⟩
  · rintro ⟨hi, h⟩
    exact ⟨hi, fun hr => (hq hr).symm ▸ h hr⟩

end Syrup
