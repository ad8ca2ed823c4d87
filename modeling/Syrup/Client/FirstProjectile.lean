import Syrup.Client.Action
import Syrup.Client.GainItems.Exact
import Syrup.Client.Login

/-!
# The first projectile

`activeProjectile` should be the first slot from which the weapon can shoot, or `255`
(`IsFirst`, `isFirst_iff`).
-/

namespace Syrup

open Sweep Machine

/-! ## The first of some slots -/

/-- The first slot with a property, or `255` if there is none. -/
def IsFirst (p : Fin maxItemCount → Prop) (a : UInt8) : Prop :=
  (∀ i, i.val < a.toNat → ¬p i) ∧ (a = noProjectile ∨ ∃ i, projectileSlot i = a ∧ p i)

section First

variable {p q : Fin maxItemCount → Prop} {a : UInt8} {j : Fin maxItemCount}

theorem lt_noProjectile (i : Fin maxItemCount) : i.val < noProjectile.toNat := by
  have hi : i.val < 252 := i.isLt
  change i.val < 255
  omega

theorem isFirst_none : IsFirst p noProjectile ↔ ∀ i, ¬p i :=
  ⟨fun h i => h.1 i (lt_noProjectile i), fun h => ⟨fun i _ => h i, .inl rfl⟩⟩

theorem isFirst_slot : IsFirst p (projectileSlot j) ↔ p j ∧ ∀ i, i < j → ¬p i := by
  rw [IsFirst, toNat_projectileSlot]
  constructor
  · rintro ⟨hlt, hn | ⟨i, hi, hp⟩⟩
    · have := lt_noProjectile j
      rw [← toNat_projectileSlot, hn] at this
      exact absurd this (lt_irrefl _)
    · have hij : i = j := by
        rw [Fin.ext_iff, ← toNat_projectileSlot, ← toNat_projectileSlot, hi]
      exact ⟨hij ▸ hp, fun i hi => hlt i hi⟩
  · rintro ⟨hp, hlt⟩
    exact ⟨fun i hi => hlt i hi, .inr ⟨j, rfl, hp⟩⟩

/-- The first slot has the property. -/
theorem IsFirst.of_slot (h : IsFirst p a) (hj : projectileSlot j = a) : p j :=
  (isFirst_slot.1 (hj ▸ h)).1

/-- It stays the first if no slot before it gets the property, and it keeps it. -/
theorem IsFirst.keep (h : IsFirst p a) (hlt : ∀ i, i.val < a.toNat → q i → p i)
    (hat : ∀ i, projectileSlot i = a → p i → q i) : IsFirst q a :=
  ⟨fun i hi hq => h.1 i hi (hlt i hi hq), h.2.imp_right fun ⟨i, hi, hp⟩ => ⟨i, hi, hat i hi hp⟩⟩

theorem IsFirst.congr (h : IsFirst p a) (hpq : ∀ i, p i ↔ q i) : IsFirst q a :=
  h.keep (fun i _ => (hpq i).2) fun i _ => (hpq i).1

/-- If one slot gets the property, it is the first if it comes before. -/
theorem IsFirst.insert (h : IsFirst p a) (hj : p j → q j) (hne : ∀ i, i ≠ j → (q i ↔ p i)) :
    (j.val < a.toNat → q j → IsFirst q (projectileSlot j)) ∧
      (¬(j.val < a.toNat ∧ q j) → IsFirst q a) := by
  refine ⟨fun hlt hq => isFirst_slot.2 ⟨hq, fun i hi hqi => ?_⟩, fun hnot => h.keep ?_ ?_⟩
  · exact h.1 i (lt_trans hi hlt) ((hne i (ne_of_lt hi)).1 hqi)
  · intro i hi hqi
    by_cases hij : i = j
    · subst hij
      exact absurd ⟨hi, hqi⟩ hnot
    · exact (hne i hij).1 hqi
  · intro i _ hpi
    by_cases hij : i = j
    · subst hij
      exact hj hpi
    · exact (hne i hij).2 hpi

/-- Only one slot is the first. -/
theorem IsFirst.unique {a' : UInt8} (h : IsFirst p a) (h' : IsFirst p a') : a = a' := by
  rcases h.2 with rfl | ⟨i, rfl, hi⟩
  · rcases h'.2 with rfl | ⟨i, rfl, hi⟩
    · rfl
    · exact absurd hi (isFirst_none.1 h i)
  · rcases h'.2 with rfl | ⟨i', rfl, hi'⟩
    · exact absurd hi (isFirst_none.1 h' i)
    · have hle := not_lt.1 fun hlt => (isFirst_slot.1 h).2 i' hlt hi'
      have hge := not_lt.1 fun hlt => (isFirst_slot.1 h').2 i hlt hi
      rw [le_antisymm hle hge]

end First

/-! ## Slots to shoot from -/

/-- Whether one can shoot from a slot with what is in the weapon slot. -/
def shoots (weapon : Option Equipment) (c : Cell InventoryItem) : Bool :=
  weapon.any fun w => !c.isEmpty && isProjectile w.item.itemId c.val

/-- The slots in use of an inventory from which one can shoot. -/
def Usable (weapon : Option Equipment) (inv : Inventory InventoryItem) (i : Fin maxItemCount) :
    Prop :=
  i.val < inv.slotCount ∧ shoots weapon (inv.items i) = true

/-- `activeProjectile` is what it should be. -/
def Character.Loaded (chr : Character) : Prop :=
  IsFirst (Usable (chr.worn weaponIndex) (chr.inventory useInventory)) chr.activeProjectile

section Shoots

variable {weapon : Option Equipment} {w : Equipment} {c : Cell InventoryItem}
  {inv : Inventory InventoryItem} {i : Fin maxItemCount}

theorem not_usable_none : ¬Usable none inv i := nofun

@[simp] theorem shoots_none : shoots none c = false := rfl

@[simp] theorem shoots_some : shoots (some w) c =
    (!c.isEmpty && isProjectile w.item.itemId c.val) := rfl

theorem shoots_of_isEmpty (h : c.isEmpty = true) : shoots weapon c = false := by
  cases weapon with
  | none => rfl
  | some w => rw [shoots_some, h]; rfl

/-- Looking for a projectile from the first slot that may be one finds the first. -/
theorem isFirst_find {n : ℕ} (h : ∀ i : Fin maxItemCount, i.val < n → ¬Usable (some w) inv i) :
    IsFirst (Usable (some w) inv)
      (((findProjectile inv w.item.itemId n).map projectileSlot).getD noProjectile) := by
  cases hf : findProjectile inv w.item.itemId n with
  | none =>
    refine isFirst_none.2 fun i hi => ?_
    by_cases hn : i.val < n
    · exact h i hn hi
    · rw [findProjectile, firstFrom_eq_none] at hf
      have := hf i (not_lt.1 hn) hi.1
      rw [← shoots_some, hi.2] at this
      cases this
  | some j =>
    obtain ⟨⟨_, hlt, hp⟩, hmin⟩ := firstFrom_eq_some.1 hf
    refine isFirst_slot.2 ⟨⟨hlt, hp⟩, fun i hij hi => ?_⟩
    by_cases hn : i.val < n
    · exact h i hn hi
    · have := hmin i (not_lt.1 hn) hij
      rw [← shoots_some, hi.2] at this
      cases this

/-- A slot from which one can shoot is found. -/
theorem exists_findProjectile {n : ℕ} (hi : Usable (some w) inv i) (hn : n ≤ i.val) :
    ∃ j, findProjectile inv w.item.itemId n = some j := by
  rw [← Option.ne_none_iff_exists']
  intro hf
  have := firstFrom_eq_none.1 hf i hn hi.1
  rw [← shoots_some, hi.2] at this
  cases this

/-- A weapon that shoots is a bow, a crossbow, a claw or a gun. -/
theorem isProjectileWeapon_of {wid : UInt32} {it : InventoryItem} (h : isProjectile wid it = true) :
    isProjectileWeapon wid = true := by
  simp only [isProjectile, isProjectileWeapon, Bool.or_eq_true, Bool.and_eq_true] at h ⊢
  rcases h with ((⟨h, _⟩ | ⟨h, _⟩) | ⟨⟨h, _⟩, _⟩) | ⟨⟨h, _⟩, _⟩ <;> simp [h]

/-- Whether one can shoot from a slot does not depend on its quantity, unless it is
    rechargeable. -/
theorem shoots_congr {c' : Cell InventoryItem} (he : c'.isEmpty = c.isEmpty)
    (hid : c'.val.item.itemId = c.val.item.itemId)
    (hq : itemIsRechargeable c.val.item.itemId = true → c'.val.quantity = c.val.quantity) :
    shoots weapon c' = shoots weapon c := by
  cases weapon with
  | none => rw [shoots_none, shoots_none]
  | some w => rw [shoots_some, shoots_some, he, isProjectile_congr hid hq]

theorem usable_set_self {j : Fin maxItemCount} :
    Usable weapon (inv.set j c) j ↔ j.val < inv.slotCount ∧ shoots weapon c = true := by
  rw [Usable, Inventory.items_set_self]
  rfl

theorem usable_set_of_ne {j : Fin maxItemCount} (h : i ≠ j) :
    Usable weapon (inv.set j c) i ↔ Usable weapon inv i := by
  rw [Usable, Inventory.items_set_of_ne h]
  rfl

/-- The ids of the items that are shot. -/
theorem toNat_of_isProjectileId {wid id : UInt32} (h : isProjectileId wid id = true) :
    id.toNat / 1000 = 2060 ∨ id.toNat / 1000 = 2061 ∨ id.toNat / 10000 = 207 ∨
      id.toNat / 10000 = 233 := by
  simp only [isProjectileId, itemIsThrowingStar, itemIsBullet, Bool.or_eq_true, Bool.and_eq_true,
    beq_iff_eq] at h
  rcases h with ((⟨_, h⟩ | ⟨_, h⟩) | ⟨_, h⟩) | ⟨_, h⟩
  · exact .inl (by simpa using congrArg UInt32.toNat h)
  · exact .inr (.inl (by simpa using congrArg UInt32.toNat h))
  · exact .inr (.inr (.inl (by simpa using congrArg UInt32.toNat h)))
  · exact .inr (.inr (.inr (by simpa using congrArg UInt32.toNat h)))

/-- Items that are shot are in the use inventory. -/
theorem millions_of_isProjectileId {wid id : UInt32} (h : isProjectileId wid id = true) :
    id / 1000000 = 2 := by
  have hid := toNat_of_isProjectileId h
  have hnat : id.toNat / 1000000 = 2 := by omega
  rw [← UInt32.toNat_inj, UInt32.toNat_div]
  simpa using hnat

/-- Whether one can shoot from a slot, read from the flag and the payload of the weapon slot. -/
theorem shoots_worn {chr : Character} : shoots (chr.worn weaponIndex) c =
    (!(chr.equippedEquipment weaponIndex).isEmpty &&
      (!c.isEmpty && isProjectile chr.weaponId c.val)) := by
  rw [Character.worn, Cell.get?]
  cases (chr.equippedEquipment weaponIndex).isEmpty <;> rfl

/-- What is worn as a weapon has the id that is read. -/
theorem weaponId_of_worn {chr : Character} (h : chr.worn weaponIndex = some w) :
    chr.weaponId = w.item.itemId := by
  rw [Character.weaponId, (Cell.get?_eq_some.1 h).2]

/-- `activeProjectile` is what it should be if it is the first projectile. -/
theorem loaded_iff {chr : Character} :
    chr.Loaded ↔ chr.activeProjectile = firstProjectile chr := by
  have hfirst : IsFirst (Usable (chr.worn weaponIndex) (chr.inventory useInventory))
      (firstProjectile chr) := by
    rw [firstProjectile]
    cases chr.worn weaponIndex with
    | none => exact isFirst_none.2 fun _ => not_usable_none
    | some w => exact isFirst_find fun i hi => absurd hi (Nat.not_lt_zero _)
  refine ⟨fun h => IsFirst.unique h hfirst, fun h => ?_⟩
  rw [Character.Loaded, h]
  exact hfirst

/-- If there is an active projectile, one can shoot from its slot. -/
theorem Character.Loaded.exists_active {chr : Character} (h : chr.Loaded)
    (ha : chr.activeProjectile ≠ noProjectile) :
    ∃ w i, chr.worn weaponIndex = some w ∧ projectileSlot i = chr.activeProjectile ∧
      Usable (some w) (chr.inventory useInventory) i := by
  obtain ⟨i, hi, hu⟩ := h.2.resolve_left ha
  cases hw : chr.worn weaponIndex with
  | none =>
    rw [hw] at hu
    exact absurd hu not_usable_none
  | some w => exact ⟨w, i, rfl, hi, hw ▸ hu⟩

/-- Nothing has changed that matters. -/
theorem Character.Loaded.congr {chr chr' : Character} (h : chr.Loaded)
    (hw : chr'.worn weaponIndex = chr.worn weaponIndex)
    (hu : chr'.inventory useInventory = chr.inventory useInventory)
    (ha : chr'.activeProjectile = chr.activeProjectile) : chr'.Loaded := by
  rw [Character.Loaded, hw, hu, ha]
  exact h

end Shoots

end Syrup
