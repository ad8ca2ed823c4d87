import Syrup.Client.FirstProjectile.GainItems

/-!
# Runs that keep the first projectile

Every call looks for the first projectile in its own way. In every state of a run from the login whose
steps are all safe (`ActiveSafe`), `activeProjectile` is the first projectile
(`activeProjectile_run`). What is not safe is

* to use up the active stack with `client_gain_items`;
* to give, to move to an empty slot, or to recharge something that is shot by what has been a
  weapon last, while there is no weapon;
* to put all of the active stack onto itself;
* to shoot while there are `0` arrows in the active slot, or an amount that overflows;
* to put on a weapon without a projectile after one with a projectile, a weapon elsewhere, or to
  exchange a weapon for a carried one that has a projectile;
* to remove a weapon that has a projectile while it is worn.
-/

namespace Syrup

open Sweep Machine

/-! ## Picking up and removing -/

section Stacks

variable {env : Env} {chr : Character} {k : Fin inventoryCount} {j : Fin maxItemCount}

/-- Putting a stack into an empty slot of the use inventory. -/
theorem Character.Loaded.pickedUp (h : chr.Loaded) {inv : Inventory InventoryItem}
    {item : InventoryItem} (hempty : firstEmpty inv = some j)
    (hcount : inv.slotCount = (chr.inventory k).slotCount)
    (hinv : ∀ i, shoots (chr.worn weaponIndex) (inv.items i) =
      shoots (chr.worn weaponIndex) ((chr.inventory k).items i))
    (hk : isProjectile chr.weaponId item = true → k = useInventory) :
    (pickedUp chr k (inv.set j (.full item)) (activeAfterPickUp chr item j)).Loaded := by
  obtain ⟨⟨_, hj, he⟩, _⟩ := firstFrom_eq_some.1 hempty
  have hshoots : shoots (chr.worn weaponIndex) (.full item) =
      (!(chr.equippedEquipment weaponIndex).isEmpty && isProjectile chr.weaponId item) := by
    rw [shoots_worn]
    rfl
  by_cases hku : k = useInventory
  · subst hku
    have hother (i : Fin maxItemCount) (hi : i ≠ j) :
        Usable (chr.worn weaponIndex) (inv.set j (.full item)) i ↔
          Usable (chr.worn weaponIndex) (chr.inventory useInventory) i := by
      rw [usable_set_of_ne hi, Usable, Usable, hcount, hinv]
    have hnone : ¬Usable (chr.worn weaponIndex) (chr.inventory useInventory) j := by
      rw [Usable, ← hinv, shoots_of_isEmpty he]
      exact fun h => absurd h.2 (by decide)
    obtain ⟨hyes, hno⟩ := IsFirst.insert (q := Usable (chr.worn weaponIndex) (inv.set j (.full item)))
      h (fun hp => absurd hp hnone) hother
    rw [usable_set_self, hshoots, Bool.and_eq_true] at hyes hno
    rw [Character.Loaded, Syrup.pickedUp, Character.inventory_setActiveProjectile,
      Character.inventory_setInventory_self, Character.activeProjectile_setActiveProjectile,
      activeAfterPickUp]
    split
    · rename_i hif
      exact hyes hif.2.1 ⟨hj, hif.1, hif.2.2⟩
    · rename_i hif
      exact hno fun hand => hif ⟨hand.2.2.1, hand.1, hand.2.2.2⟩
  · refine h.congr rfl (Character.inventory_setInventory_of_ne (Ne.symm hku) _) ?_
    rw [Syrup.pickedUp, Character.activeProjectile_setActiveProjectile, activeAfterPickUp, if_neg]
    exact fun hif => hku (hk hif.2.2)

/-- What is shot goes into the use inventory. -/
theorem eq_useInventory_of_inventoryAt {wid : UInt32} {item : InventoryItem}
    (h : isProjectile wid item = true) (hk : inventoryAt item.item.itemId = .ok k) :
    k = useInventory := by
  rw [inventoryAt, millions_of_isProjectileId (isProjectile_iff.1 h).1] at hk
  cases hk
  rfl

/-- Filling up a stack does not change whether one can shoot from it. -/
theorem pickUpBody_shoots {weapon : Option Equipment} {alloc : Bool} {room : ℕ} {info : ItemInfo}
    {item : InventoryItem} {c : Cell InventoryItem} {s : PickUp}
    {out : Out (Cell InventoryItem) PickUp} (hr : itemIsRechargeable item.item.itemId = false)
    (h : pickUpBody env alloc room chr info item k j c s = .ok out) :
    shoots weapon out.cell = shoots weapon c := by
  rw [pickUpBody] at h
  split at h
  · rename_i hm
    obtain ⟨_, hi⟩ : c.isEmpty = false ∧ c.val.item.itemId = item.item.itemId := by simpa using hm
    obtain ⟨set, _, h⟩ := Exec.bind_eq_ok.1 h
    split at h
    rename_i heq
    cases h
    refine shoots_congr rfl ?_ fun hre => by rw [hi, hr] at hre; cases hre
    split at heq
    · cases heq
      rfl
    · cases heq
      rw [Cell.val_write, stackOnto]
      split <;> rfl
  · cases h
    rfl

/-- Picking up keeps the first projectile. -/
theorem Character.Loaded.gainInventoryItem {alloc : Bool} {room : ℕ} {c c' : Client}
    {item : InventoryItem} {r : Option InventoryGainResult} (h : c.character.Loaded)
    (hcall : clientGainInventoryItem env alloc room c item = .ok (r, c')) :
    c'.character.Loaded := by
  obtain ⟨set, hc⟩ | ⟨_, _, k, j, hk, hj, hc⟩ |
    ⟨hr, info, k, items, s, set, _, hk, hsweep, _, hend⟩ := clientGainInventoryItem_cases hcall
  · rw [hc]
    exact h.congr rfl rfl rfl
  · rw [hc]
    exact h.pickedUp hj rfl (fun _ => rfl) fun hp => eq_useInventory_of_inventoryAt hp hk
  · have hitems := sweep_inv (P := fun items _ => ∀ i,
      shoots (c.character.worn weaponIndex) (items i) =
        shoots (c.character.worn weaponIndex) ((c.character.inventory k).items i)) hsweep
      (fun i _ items s out hP hout j => by
        by_cases hji : j = i
        · subst hji
          rw [Function.update_self, pickUpBody_shoots hr hout, hP]
        · rw [Function.update_of_ne hji, hP]) fun _ => rfl
    obtain ⟨_, hc⟩ | ⟨_, j, hj, hc⟩ := hend
    · rw [hc]
      by_cases hku : k = useInventory
      · subst hku
        refine IsFirst.congr h fun i => ?_
        rw [Character.inventory_setInventory_self]
        change _ ∧ _ ↔ _ ∧ shoots (c.character.worn weaponIndex) (items i) = true
        rw [hitems]
        rfl
      · exact h.congr rfl (Character.inventory_setInventory_of_ne (Ne.symm hku) _) rfl
    · rw [hc]
      have hset : (c.character.setItemQuests set).Loaded := h
      exact hset.pickedUp hj rfl hitems
        fun hp => @eq_useInventory_of_inventoryAt _ _ (item.setQuantity s.quantity) hp hk

/-- What is left in a slot can be shot from if it could before. -/
theorem shoots_removeFrom {weapon : Option Equipment} {c : Cell InventoryItem} {amount : Int16}
    (h : (removeFrom c amount).isEmpty = false) :
    shoots weapon (removeFrom c amount) = shoots weapon c := by
  rw [removeFrom] at h ⊢
  split
  · rename_i hif
    rw [if_pos hif] at h
    cases h
  · rename_i hif
    rw [Bool.or_eq_true, not_or, Bool.not_eq_true] at hif
    exact shoots_congr rfl rfl fun hr => by
      rw [hif.1] at hr
      cases hr

/-- What has been taken from is used up if it has been emptied. -/
theorem isEmpty_of_usedUp_removeFrom {c : Cell InventoryItem} {amount : Int16}
    (h : usedUp (removeFrom c amount) = true) : (removeFrom c amount).isEmpty = true := by
  rw [removeFrom] at h ⊢
  split
  · rfl
  · rename_i hif
    rw [if_neg hif] at h
    rw [Bool.or_eq_true, not_or, beq_iff_eq] at hif
    rw [usedUp, Bool.or_eq_true, beq_iff_eq] at h
    refine h.resolve_right fun hq => hif.2 ?_
    rw [Cell.val_write, InventoryItem.quantity_setQuantity] at hq
    exact sub16_eq_zero hq

/-- Looking for the next projectile after what has been in the active slot is used up. -/
theorem Character.Loaded.research (h : chr.Loaded) (ha : projectileSlot j = chr.activeProjectile)
    {chr' : Character} (hw : chr'.equippedEquipment = chr.equippedEquipment)
    {c : Cell InventoryItem} (hc : shoots (chr.worn weaponIndex) c = false)
    (hinv : chr'.inventory useInventory = (chr.inventory useInventory).set j c) :
    (chr'.setActiveProjectile (research chr' chr'.weaponId (j.val + 1))).Loaded := by
  have hne : chr.activeProjectile ≠ noProjectile := by
    rintro e
    have := lt_noProjectile j
    rw [← toNat_projectileSlot, ha, e] at this
    exact lt_irrefl _ this
  obtain ⟨w, i, hworn, hi, hu⟩ := h.exists_active hne
  have hij : i = j := by
    rw [Fin.ext_iff, ← toNat_projectileSlot, ← toNat_projectileSlot, hi, ha]
  subst hij
  have hworn' : chr'.worn weaponIndex = some w := by rw [Character.worn_congr hw, hworn]
  have hp := hu.2
  rw [shoots_some, Bool.and_eq_true] at hp
  rw [Character.Loaded, Character.activeProjectile_setActiveProjectile, Syrup.research,
    weaponId_of_worn hworn', if_pos (isProjectileWeapon_of hp.2)]
  change IsFirst (Usable (chr'.worn weaponIndex) (chr'.inventory useInventory)) _
  rw [hworn']
  refine isFirst_find fun i' hi' hu' => ?_
  rw [hinv] at hu'
  by_cases hii : i' = i
  · subst hii
    rw [usable_set_self, ← hworn, hc] at hu'
    exact absurd hu'.2 (by decide)
  · rw [usable_set_of_ne hii, ← hworn] at hu'
    refine h.1 i' ?_ hu'
    rw [← ha, toNat_projectileSlot]
    have : i'.val ≠ i.val := fun e => hii (Fin.ext e)
    omega

/-- Rewriting a slot keeps the first projectile, if one can then only shoot from it if one could
    before, or if it comes later, and still can if it is the active one. -/
theorem Character.Loaded.setItem (h : chr.Loaded) {c : Cell InventoryItem}
    (hto : k = useInventory → j.val < chr.activeProjectile.toNat → shoots (chr.worn weaponIndex) c = true →
      shoots (chr.worn weaponIndex) ((chr.inventory k).items j) = true)
    (hat : k = useInventory → projectileSlot j = chr.activeProjectile →
      shoots (chr.worn weaponIndex) ((chr.inventory k).items j) = true →
      shoots (chr.worn weaponIndex) c = true) :
    (chr.setItem k j c).Loaded := by
  by_cases hk : k = useInventory
  · subst hk
    rw [Character.Loaded, Character.inventory_setItem_self]
    refine IsFirst.keep h (fun i hlt hi => ?_) fun i hi hu => ?_
    · by_cases hij : i = j
      · subst hij
        exact ⟨hi.1, hto rfl hlt (usable_set_self.1 hi).2⟩
      · exact (usable_set_of_ne hij).1 hi
    · by_cases hij : i = j
      · subst hij
        exact usable_set_self.2 ⟨hu.1, hat rfl hi hu.2⟩
      · exact (usable_set_of_ne hij).2 hu
  · exact h.congr rfl (Character.inventory_setInventory_of_ne (Ne.symm hk) _) rfl

/-- Removing keeps the first projectile. -/
theorem Character.Loaded.removeStack (h : chr.Loaded) {amount : Int16} :
    (removeStack chr k j amount).Loaded := by
  rw [Syrup.removeStack]
  split
  · rename_i hif
    obtain ⟨rfl, ha, hused⟩ := hif
    refine h.research (j := j) ?_ rfl (shoots_of_isEmpty (isEmpty_of_usedUp_removeFrom hused))
      (Character.inventory_setItem_self ..)
    rw [← UInt8.toNat_inj, toNat_projectileSlot]
    exact ha.symm
  · rename_i hif
    refine h.setItem (fun _ _ hc => ?_) fun hk ha hc => ?_
    · rwa [shoots_removeFrom] at hc
      by_contra he
      rw [Bool.not_eq_false] at he
      rw [shoots_of_isEmpty he] at hc
      cases hc
    · rw [shoots_removeFrom, hc]
      by_contra he
      rw [Bool.not_eq_false] at he
      refine hif ⟨hk, ?_, by rw [usedUp, he]; rfl⟩
      rw [Character.setItem, ← toNat_projectileSlot, ha]
      rfl

end Stacks

/-! ## Shooting -/

section Shooting

variable {chr : Character} {i : Fin maxItemCount} {amount : Int16}

/-- The shots after which the first projectile is looked for if it has to be: what is left of stars
    or bullets does not overflow, and arrows of which there are `0` are not passed over. -/
def ShotSafe (chr : Character) (amount : Int16) : Prop :=
  ∀ i, projectileSlot i = chr.activeProjectile →
    (itemIsRechargeable ((chr.inventory useInventory).items i).val.item.itemId = true →
      ((chr.inventory useInventory).items i).val.quantity.toInt - amount.toInt ≤ 32767) ∧
    (((chr.inventory useInventory).items i).val.quantity = 0 →
      ∀ slot, projectileSource chr amount = some slot → slot = i)

/-- One cannot shoot from a stack that is used up by a shot. -/
theorem not_shoots_of_usedUp_shootFrom {weapon : Option Equipment} {c : Cell InventoryItem}
    (h : usedUp (shootFrom c amount) = true) : shoots weapon (shootFrom c amount) = false := by
  cases he : (shootFrom c amount).isEmpty with
  | true => exact shoots_of_isEmpty he
  | false =>
    rw [usedUp, he, Bool.false_or, beq_iff_eq] at h
    cases weapon with
    | none => rfl
    | some w =>
      have hr : itemIsRechargeable (shootFrom c amount).val.item.itemId = true := by
        rw [shootFrom] at h he ⊢
        split
        · rename_i hif
          rw [if_pos hif] at he
          cases he
        · rename_i hif
          rw [if_neg hif, Cell.val_write, InventoryItem.quantity_setQuantity] at h
          rw [Bool.and_eq_true, beq_iff_eq, Bool.not_eq_true', not_and] at hif
          by_contra hr
          rw [Bool.not_eq_true] at hr
          exact hif hr (sub16_eq_zero h)
      rw [shoots_some, he, Bool.not_false, Bool.true_and, ← Bool.not_eq_true, isProjectile_iff]
      rintro ⟨_, hq⟩
      have := hq hr
      rw [h] at this
      exact absurd this (by decide)

/-- One can still shoot from a stack that is not used up by a shot. -/
theorem shoots_shootFrom {weapon : Option Equipment} {c : Cell InventoryItem}
    (h : usedUp (shootFrom c amount) = false) (hc : shoots weapon c = true)
    (hle : amount ≤ c.val.quantity) (hfit : itemIsRechargeable c.val.item.itemId = true →
      c.val.quantity.toInt - amount.toInt ≤ 32767) :
    shoots weapon (shootFrom c amount) = true := by
  cases weapon with
  | none => cases hc
  | some w =>
    rw [shoots_some, Bool.and_eq_true, isProjectile_iff, Bool.not_eq_true'] at hc
    obtain ⟨he, hid, _⟩ := hc
    rw [usedUp, Bool.or_eq_false_iff] at h
    rw [shoots_some, h.1, Bool.not_false, Bool.true_and, isProjectile_iff]
    rw [shootFrom] at h ⊢
    split
    · rename_i hif
      rw [if_pos hif] at h
      cases h.1
    · rename_i hif
      rw [if_neg hif, Cell.val_write, InventoryItem.quantity_setQuantity, beq_eq_false_iff_ne] at h
      refine ⟨hid, fun hr => ?_⟩
      rw [le16] at hle
      have hsub := sub16 (by omega) (hfit hr)
      have hne : (c.val.quantity - amount).toInt ≠ 0 := fun e => h.2 (eq16.2 (e.trans zero16.symm))
      rw [Cell.val_write, InventoryItem.quantity_setQuantity, lt16, zero16]
      omega

/-- Shooting keeps the first projectile. -/
theorem Character.Loaded.useProjectile {c c' : Client} {b : Bool} (h : c.character.Loaded)
    (hsafe : ShotSafe c.character amount) (hcall : clientUseProjectile c amount = .ok (b, c')) :
    c'.character.Loaded := by
  obtain rfl | ⟨ha, active, hactive, hshot⟩ := clientUseProjectile_cases hcall
  · exact h
  · obtain ⟨w, i, hworn, hi, hu⟩ := h.exists_active ha
    have hia : i = active := by
      rw [Fin.ext_iff, hactive, ← hi, toNat_projectileSlot]
    subst hia
    obtain ⟨hfit, hzero⟩ := hsafe i hi
    have hlt := hu.1
    have hshoots := hu.2
    rw [← hworn] at hshoots
    obtain ⟨_, hgt, _⟩ | ⟨slot, hslot, rfl⟩ := hshot
    · exact absurd hlt (not_lt.2 hgt.le)
    · obtain ⟨⟨hge, _, hq⟩, hmin⟩ := firstFrom_eq_some.1 hslot
      rw [decide_eq_true_eq] at hq
      rw [finishShot]
      by_cases hsi : slot = i
      · subst hsi
        rw [Character.inventory_setItem_self, Inventory.items_set_self]
        split
        · rename_i hused
          have hnext := @Character.Loaded.research _ _ h hi (c.character.setItem useInventory slot
              (shootFrom ((c.character.inventory useInventory).items slot) amount)) rfl _
              (not_shoots_of_usedUp_shootFrom hused) (Character.inventory_setItem_self ..)
          rw [hactive] at hnext
          change ((c.character.setItem _ _ _).setActiveProjectile (activeAfterShot _)).Loaded
          rw [activeAfterShot_eq]
          · exact hnext
          · rw [Character.inventory_setItem_self, Inventory.slotCount_set]
            exact hactive ▸ hlt
        · rename_i hused
          rw [Bool.not_eq_true] at hused
          exact h.setItem (fun _ _ _ => hshoots) fun _ _ _ => shoots_shootFrom hused hshoots hq hfit
      · have hval : slot.val ≠ i.val := fun e => hsi (Fin.ext e)
        have hitem : (((c.character.setItem useInventory slot (shootFrom
            ((c.character.inventory useInventory).items slot) amount)).inventory
            useInventory).items i) = (c.character.inventory useInventory).items i := by
          rw [Character.inventory_setItem_self, Inventory.items_set_of_ne (Ne.symm hsi)]
        have hused : usedUp ((c.character.inventory useInventory).items i) = false := by
          rw [shoots_worn, Bool.and_eq_true, Bool.and_eq_true, Bool.not_eq_true',
            Bool.not_eq_true'] at hshoots
          rw [usedUp, hshoots.2.1, Bool.false_or, beq_eq_false_iff_ne]
          exact fun e => hsi (hzero e slot hslot)
        rw [hitem, hused]
        refine h.setItem (fun _ hlt => ?_) fun _ ha => ?_
        · omega
        · exact absurd (Fin.ext (by rw [← toNat_projectileSlot, ha, ← hactive])) hsi

end Shooting

/-! ## Moving -/

section Moving

variable {env : Env} {weapon : Option Equipment} {inv : Inventory InventoryItem} {chr : Character}
  {src dst : Fin maxItemCount} {i : Fin maxItemCount} {k : Fin inventoryCount}

/-- The slots that show something from which one can shoot. -/
theorem usable_iff_view : Usable weapon inv i ↔
    ∃ it, inv.view i = some it ∧ shoots weapon (.full it) = true := by
  constructor
  · rintro ⟨hi, hs⟩
    cases he : (inv.items i).isEmpty with
    | true =>
      rw [shoots_of_isEmpty he] at hs
      cases hs
    | false =>
      refine ⟨(inv.items i).val, Inventory.view_eq_some.2 ⟨hi, he, rfl⟩, ?_⟩
      rwa [@shoots_congr _ (inv.items i) (.full (inv.items i).val) he.symm rfl fun _ => rfl]
  · rintro ⟨it, hv, hs⟩
    obtain ⟨hi, he, rfl⟩ := Inventory.view_eq_some.1 hv
    refine ⟨hi, ?_⟩
    rwa [← @shoots_congr _ (inv.items i) (.full (inv.items i).val) he.symm rfl fun _ => rfl]

/-- Exchanging two stacks exchanges whether one can shoot from them. -/
theorem usable_swapVals (hs : src.val < inv.slotCount) (hd : dst.val < inv.slotCount)
    (hes : (inv.items src).isEmpty = false) (hed : (inv.items dst).isEmpty = false) :
    Usable weapon (inv.swapVals src dst) i ↔ Usable weapon inv (Equiv.swap src dst i) := by
  rw [usable_iff_view, usable_iff_view, Inventory.view_swapVals hs hd hes hed]
  rfl

/-- After a stack has been moved to an empty slot, one can shoot from there if one could
    before. -/
theorem usable_moveCell (hs : src.val < inv.slotCount) (hd : dst.val < inv.slotCount)
    (hne : src ≠ dst) : Usable weapon (inv.moveCell src dst) i ↔
      i ≠ src ∧ ((i = dst ∧ Usable weapon inv src) ∨ i ≠ dst ∧ Usable weapon inv i) := by
  rw [usable_iff_view, Inventory.view_moveCell hs hd]
  by_cases his : i = src
  · subst his
    simp
  · rw [Function.update_of_ne his]
    by_cases hid : i = dst
    · subst hid
      rw [Function.update_self, ← usable_iff_view]
      simp [his]
    · rw [Function.update_of_ne hid, ← usable_iff_view]
      simp [his, hid]

/-- Another quantity does not change whether one can shoot, if the item is not rechargeable. -/
theorem shoots_setQuantity {q : Int16}
    (hr : itemIsRechargeable (inv.items dst).val.item.itemId = false) :
    shoots weapon ((inv.setQuantity dst q).items i) = shoots weapon (inv.items i) := by
  by_cases hid : i = dst
  · subst hid
    rw [Inventory.setQuantity, Inventory.items_set_self]
    exact shoots_congr rfl rfl fun h => by
      rw [hr] at h
      cases h
  · rw [Inventory.setQuantity, Inventory.items_set_of_ne hid]

/-- Looking for a projectile where there is one. -/
theorem rescan_eq {w : Equipment} {n : ℕ} (hi : Usable (some w) (chr.inventory useInventory) i)
    (hn : n ≤ i.val) : rescan chr w.item.itemId n =
      ((findProjectile (chr.inventory useInventory) w.item.itemId n).map projectileSlot).getD
        noProjectile := by
  obtain ⟨j, hj⟩ := exists_findProjectile hi hn
  rw [rescan, hj]
  rfl

/-- The active slot is the one with its number. -/
theorem Character.Loaded.active_of_val (h : chr.Loaded) (ha : src.val = chr.activeProjectile.toNat) :
    projectileSlot src = chr.activeProjectile ∧ ∃ w, chr.worn weaponIndex = some w ∧
      Usable (some w) (chr.inventory useInventory) src := by
  have hslot : projectileSlot src = chr.activeProjectile := by
    rw [← UInt8.toNat_inj, toNat_projectileSlot, ha]
  have hne : chr.activeProjectile ≠ noProjectile := by
    intro e
    have := lt_noProjectile src
    rw [ha, e] at this
    exact lt_irrefl _ this
  obtain ⟨w, i, hw, hi, hu⟩ := h.exists_active hne
  have his : i = src := by
    rw [Fin.ext_iff, ← toNat_projectileSlot, hi, ha]
  exact ⟨hslot, w, hw, his ▸ hu⟩

/-- Moving a stack to an empty slot keeps the first projectile, if there is a weapon, or if what
    has been one does not shoot it. -/
theorem Character.Loaded.moveToEmpty (h : chr.Loaded) (hs : src.val < (chr.inventory useInventory).slotCount)
    (hd : dst.val < (chr.inventory useInventory).slotCount)
    (hes : ((chr.inventory useInventory).items src).isEmpty = false)
    (hed : ((chr.inventory useInventory).items dst).isEmpty = true)
    (hsafe : (chr.equippedEquipment weaponIndex).isEmpty = true →
      isProjectile chr.weaponId ((chr.inventory useInventory).items src).val = false) :
    (moveToEmpty chr useInventory src dst).1.Loaded := by
  have hne : src ≠ dst := by
    rintro rfl
    rw [hes] at hed
    cases hed
  have hnd : ¬Usable (chr.worn weaponIndex) (chr.inventory useInventory) dst := by
    intro hu
    have hu2 := hu.2
    rw [shoots_of_isEmpty hed] at hu2
    cases hu2
  have husable (i) := @usable_moveCell (chr.worn weaponIndex) _ _ _ i hs hd hne
  have hitem : (((chr.inventory useInventory).moveCell src dst).items dst).val =
      ((chr.inventory useInventory).items src).val := by
    rw [Inventory.moveCell, Inventory.items_set_of_ne (Ne.symm hne), Inventory.items_set_self]
  rw [Syrup.moveToEmpty]
  simp only [if_true]
  rw [Character.Loaded, Character.activeProjectile_setActiveProjectile,
    Character.inventory_setActiveProjectile, Character.inventory_setInventory_self]
  change IsFirst (Usable (chr.worn weaponIndex) _) _
  rw [activeAfterMove]
  change IsFirst _ (if src.val = chr.activeProjectile.toNat then _ else _)
  split
  · rename_i ha
    obtain ⟨hslot, w, hw, hu⟩ := h.active_of_val ha
    split
    · rename_i hlt
      refine isFirst_slot.2 ⟨(husable dst).2 ⟨Ne.symm hne, .inl ⟨rfl, hw ▸ hu⟩⟩, fun i hi hui => ?_⟩
      obtain ⟨_, ⟨hid, _⟩ | ⟨_, hui⟩⟩ := (husable i).1 hui
      · exact absurd hid (ne_of_lt hi)
      · exact h.1 i (ha ▸ lt_trans hi hlt) hui
    · rename_i hlt
      have hval : src.val ≠ dst.val := fun e => hne (Fin.ext e)
      have hud : Usable (some w) ((chr.inventory useInventory).moveCell src dst) dst := by
        rw [← hw, husable]
        exact ⟨Ne.symm hne, .inl ⟨rfl, hw ▸ hu⟩⟩
      have hwid : (chr.setInventory useInventory ((chr.inventory useInventory).moveCell src dst)).weaponId =
          w.item.itemId := weaponId_of_worn hw
      rw [hwid, rescan_eq (i := dst) (by rwa [Character.inventory_setInventory_self]) (by omega),
        Character.inventory_setInventory_self, hw]
      refine isFirst_find fun i hi hui => ?_
      rw [← hw, husable] at hui
      obtain ⟨his, ⟨rfl, _⟩ | ⟨_, hui⟩⟩ := hui
      · omega
      · have : i.val ≠ src.val := fun e => his (Fin.ext e)
        exact h.1 i (by omega) hui
  · rename_i ha
    have hwid : (chr.setInventory useInventory ((chr.inventory useInventory).moveCell src dst)).weaponId =
        chr.weaponId := rfl
    rw [hwid, Character.inventory_setInventory_self, hitem]
    have husrc : Usable (chr.worn weaponIndex) (chr.inventory useInventory) src ↔
        isProjectile chr.weaponId ((chr.inventory useInventory).items src).val = true := by
      rw [Usable, shoots_worn, hes]
      cases hw : (chr.equippedEquipment weaponIndex).isEmpty with
      | true => simp [hsafe hw]
      | false => simp [hs]
    split
    · rename_i hif
      refine isFirst_slot.2 ⟨(husable dst).2 ⟨Ne.symm hne, .inl ⟨rfl, husrc.2 hif.2⟩⟩, fun i hi hui => ?_⟩
      obtain ⟨_, ⟨hid, _⟩ | ⟨_, hui⟩⟩ := (husable i).1 hui
      · exact absurd hid (ne_of_lt hi)
      · exact h.1 i (lt_trans hi hif.1) hui
    · rename_i hif
      refine IsFirst.keep h (fun i hi hui => ?_) fun i hi hui => ?_
      · obtain ⟨_, ⟨rfl, hus⟩ | ⟨_, hui⟩⟩ := (husable i).1 hui
        · exact absurd ⟨hi, husrc.1 hus⟩ hif
        · exact hui
      · refine (husable i).2 ⟨?_, .inr ⟨?_, hui⟩⟩
        · rintro rfl
          exact ha ((toNat_projectileSlot i).symm.trans (congrArg UInt8.toNat hi))
        · rintro rfl
          exact hnd hui

/-- Rewriting the use inventory keeps the first projectile, if it does not change from which slots one
    can shoot. -/
theorem Character.Loaded.setInventory (h : chr.Loaded)
    (hcount : inv.slotCount = (chr.inventory useInventory).slotCount)
    (hinv : ∀ i, shoots (chr.worn weaponIndex) (inv.items i) =
      shoots (chr.worn weaponIndex) ((chr.inventory useInventory).items i)) :
    (chr.setInventory useInventory inv).Loaded := by
  rw [Character.Loaded, Character.inventory_setInventory_self]
  refine IsFirst.congr h fun i => ?_
  change _ ∧ _ ↔ _ ∧ shoots (chr.worn weaponIndex) (inv.items i) = true
  rw [hcount, hinv]

/-- Two stacks of an item that is not rechargeable. -/
structure SameStacks (inv : Inventory InventoryItem) (src dst : Fin maxItemCount) : Prop where
  full : (inv.items src).isEmpty = false ∧ (inv.items dst).isEmpty = false
  id_eq : (inv.items dst).val.item.itemId = (inv.items src).val.item.itemId
  not_rechargeable : itemIsRechargeable (inv.items dst).val.item.itemId = false

theorem SameStacks.not_rechargeable_src (h : SameStacks inv src dst) :
    itemIsRechargeable (inv.items src).val.item.itemId = false := h.id_eq ▸ h.not_rechargeable

/-- One can shoot from both or none. -/
theorem SameStacks.shoots_eq (h : SameStacks inv src dst) :
    shoots weapon (inv.items dst) = shoots weapon (inv.items src) :=
  shoots_congr (h.full.2.trans h.full.1.symm) h.id_eq fun hr => by
    rw [h.not_rechargeable_src] at hr
    cases hr

theorem SameStacks.shoots_swapVals (h : SameStacks inv src dst) :
    shoots weapon ((inv.swapVals src dst).items i) = shoots weapon (inv.items i) := by
  rw [Inventory.items_swapVals]
  by_cases his : i = src
  · subst his
    rw [Function.update_self]
    exact shoots_congr rfl h.id_eq fun hr => by
      rw [h.not_rechargeable_src] at hr
      cases hr
  · rw [Function.update_of_ne his]
    by_cases hid : i = dst
    · subst hid
      rw [Function.update_self]
      exact shoots_congr rfl h.id_eq.symm fun hr => by
        rw [h.not_rechargeable] at hr
        cases hr
    · rw [Function.update_of_ne hid]

theorem SameStacks.shoots_mergeSome (h : SameStacks inv src dst) {amount : Int16} :
    shoots weapon ((inv.mergeSome src dst amount).items i) = shoots weapon (inv.items i) := by
  rw [Inventory.mergeSome, shoots_setQuantity, shoots_setQuantity h.not_rechargeable]
  by_cases hsd : src = dst
  · subst hsd
    rw [Inventory.setQuantity, Inventory.items_set_self]
    exact h.not_rechargeable
  · rw [Inventory.setQuantity, Inventory.items_set_of_ne hsd]
    exact h.not_rechargeable_src

/-- Of two stacks that are put together, one can only shoot from the second one. -/
theorem SameStacks.usable_mergeAll (h : SameStacks inv src dst) :
    Usable weapon (inv.mergeAll src dst) i ↔ i ≠ src ∧ Usable weapon inv i := by
  rw [Inventory.mergeAll]
  by_cases his : i = src
  · subst his
    rw [usable_set_self, shoots_of_isEmpty rfl]
    simp
  · rw [usable_set_of_ne his, Usable, Usable, shoots_setQuantity h.not_rechargeable]
    simp only [his, ne_eq, not_false_eq_true, true_and]
    rfl

/-- Putting all of a stack on another one keeps the first projectile, unless the active stack is put
    onto itself. -/
theorem Character.Loaded.moveAllOnto (h : chr.Loaded)
    (hd : dst.val < (chr.inventory useInventory).slotCount)
    (hsame : SameStacks (chr.inventory useInventory) src dst)
    (hsafe : src = dst → projectileSlot src ≠ chr.activeProjectile) :
    (moveAllOnto chr useInventory src dst).1.Loaded := by
  have husable (i) := @SameStacks.usable_mergeAll (chr.worn weaponIndex) _ _ _ i hsame
  have hud (hu : Usable (chr.worn weaponIndex) (chr.inventory useInventory) src) :
      Usable (chr.worn weaponIndex) (chr.inventory useInventory) dst :=
    ⟨hd, hsame.shoots_eq.trans hu.2⟩
  rw [Syrup.moveAllOnto]
  simp only
  split
  · rename_i hif
    obtain ⟨_, hlt, ha⟩ := hif
    obtain ⟨_, w, hw, hu⟩ := h.active_of_val ha
    have hwid : (chr.setInventory useInventory
        ((chr.inventory useInventory).mergeAll src dst)).weaponId = w.item.itemId :=
      weaponId_of_worn hw
    have hdst : Usable (some w) ((chr.inventory useInventory).mergeAll src dst) dst := by
      rw [← hw, husable]
      exact ⟨ne_of_gt hlt, hud (hw ▸ hu)⟩
    rw [Character.Loaded, Character.activeProjectile_setActiveProjectile,
      Character.inventory_setActiveProjectile, hwid,
      rescan_eq (i := dst) (by rwa [Character.inventory_setInventory_self]) (by omega),
      Character.inventory_setInventory_self]
    change IsFirst (Usable (chr.worn weaponIndex) _) _
    rw [hw]
    refine isFirst_find fun i hi hui => ?_
    rw [← hw, husable] at hui
    have hval : i.val ≠ src.val := fun e => hui.1 (Fin.ext e)
    have ha' : src.val = chr.activeProjectile.toNat := ha
    exact h.1 i (by omega) hui.2
  · rename_i hif
    rw [Character.Loaded, Character.inventory_setInventory_self]
    change IsFirst (Usable (chr.worn weaponIndex) _) chr.activeProjectile
    refine IsFirst.keep h (fun i _ hui => ((husable i).1 hui).2) fun i hi hui => (husable i).2 ⟨?_, hui⟩
    rintro rfl
    have hval : i.val = chr.activeProjectile.toNat := by rw [← hi, toNat_projectileSlot]
    rcases lt_trichotomy i dst with hlt | hdst | hgt
    · exact hif ⟨trivial, hlt, hval⟩
    · exact hsafe hdst hi
    · exact h.1 dst (hval ▸ hgt) (hud hui)

/-- Putting a stack on another one keeps the first projectile, unless all of the active stack is
    put onto itself. -/
theorem Character.Loaded.moveOnto {info : ItemInfo} (h : chr.Loaded)
    (hd : dst.val < (chr.inventory useInventory).slotCount)
    (hsame : SameStacks (chr.inventory useInventory) src dst)
    (hsafe : src = dst → projectileSlot src = chr.activeProjectile →
      (chr.inventory useInventory).quantity dst = info.slotMax ∨
      ¬(chr.inventory useInventory).quantity src <
        info.slotMax - (chr.inventory useInventory).quantity dst) :
    (moveOnto info chr useInventory src dst).1.Loaded := by
  rw [Syrup.moveOnto]
  split
  · exact h.setInventory rfl fun i => hsame.shoots_swapVals
  · rename_i hfull
    simp only
    split
    · rename_i hall
      exact h.moveAllOnto hd hsame fun hsd ha => (hsafe hsd ha).elim hfull fun hnot => hnot hall
    · exact h.setInventory rfl fun i => hsame.shoots_mergeSome

/-- After two stacks have been exchanged, in the slots `lo` and `hi`, the first projectile is found
    from where it was before. -/
theorem Character.Loaded.activeAfterSwap (h : chr.Loaded) {chr' : Character} {lo hi : Fin maxItemCount}
    (hle : lo ≤ hi) (hworn : chr'.equippedEquipment = chr.equippedEquipment)
    (ha : chr'.activeProjectile = chr.activeProjectile)
    (hlo : lo.val < (chr'.inventory useInventory).slotCount)
    (helo : ((chr'.inventory useInventory).items lo).isEmpty = false)
    (husable : ∀ i, Usable (chr.worn weaponIndex) (chr'.inventory useInventory) i ↔
      Usable (chr.worn weaponIndex) (chr.inventory useInventory) (Equiv.swap lo hi i)) :
    IsFirst (Usable (chr.worn weaponIndex) (chr'.inventory useInventory))
      (activeAfterSwap chr' lo hi) := by
  have hulo := husable lo
  have huhi := husable hi
  rw [Equiv.swap_apply_left] at hulo
  rw [Equiv.swap_apply_right] at huhi
  have hother {i : Fin maxItemCount} (hil : i.val ≠ lo.val) (hih : i.val ≠ hi.val) :
      Usable (chr.worn weaponIndex) (chr'.inventory useInventory) i ↔
        Usable (chr.worn weaponIndex) (chr.inventory useInventory) i := by
    rw [husable, Equiv.swap_apply_of_ne_of_ne (fun e => hil (congrArg _ e))
      fun e => hih (congrArg _ e)]
  have hle' : lo.val ≤ hi.val := hle
  have hwid : chr'.weaponId = chr.weaponId := by rw [Character.weaponId, hworn, Character.weaponId]
  rw [Syrup.activeAfterSwap, ha, hwid]
  split
  · rename_i hin
    obtain ⟨j, hj⟩ : ∃ j : Fin maxItemCount, j.val = chr.activeProjectile.toNat :=
      ⟨⟨chr.activeProjectile.toNat, lt_of_le_of_lt hin.2 hi.isLt⟩, rfl⟩
    obtain ⟨hslot, w, hw, hu⟩ := h.active_of_val hj
    rw [hw] at husable hulo huhi ⊢
    split
    · rename_i hal
      have hjl : j = lo := Fin.ext (hj.trans hal)
      rw [weaponId_of_worn hw, rescan_eq (huhi.2 (hjl ▸ hu)) hle']
      refine isFirst_find fun i hil hui => ?_
      rw [← hw] at hui
      exact h.1 i (by omega) ((hother (by omega) (by omega)).1 hui)
    · rename_i hal
      split
      · rename_i hah
        have hjh : j = hi := Fin.ext (hj.trans hah)
        refine isFirst_slot.2 ⟨hulo.2 (hjh ▸ hu), fun i hil hui => ?_⟩
        have hil' : i.val < lo.val := hil
        rw [← hw] at hui
        exact h.1 i (by omega) ((hother (by omega) (by omega)).1 hui)
      · rename_i hah
        have hlo' : Usable (some w) (chr'.inventory useInventory) lo ↔
            isProjectile chr.weaponId ((chr'.inventory useInventory).items lo).val = true := by
          rw [Usable, shoots_some, helo, weaponId_of_worn hw]
          simp [hlo]
        split
        · rename_i hp
          refine isFirst_slot.2 ⟨hlo'.2 hp, fun i hil hui => ?_⟩
          have hil' : i.val < lo.val := hil
          rw [← hw] at hui
          exact h.1 i (by omega) ((hother (by omega) (by omega)).1 hui)
        · rename_i hp
          rw [← hw]
          refine IsFirst.keep h (fun i hia hui => ?_) fun i hia hui => ?_
          · by_cases hil : i.val = lo.val
            · rw [hw, Fin.ext hil, hlo'] at hui
              exact absurd hui hp
            · exact (hother hil (by omega)).1 hui
          · have hval := toNat_projectileSlot i
            rw [hia] at hval
            exact (hother (by omega) (by omega)).2 hui
  · rename_i hout
    refine IsFirst.keep h (fun i hia hui => ?_) fun i hia hui => ?_
    · by_cases hil : i.val = lo.val
      · rw [Fin.ext hil, hulo] at hui
        exact absurd hui (h.1 hi (by omega))
      · by_cases hih : i.val = hi.val
        · rw [Fin.ext hih, huhi] at hui
          exact absurd hui (h.1 lo (by omega))
        · exact (hother hil hih).1 hui
    · have hval := toNat_projectileSlot i
      rw [hia] at hval
      exact (hother (by omega) (by omega)).2 hui

/-- Exchanging two stacks keeps the first projectile. -/
theorem Character.Loaded.moveSwap (h : chr.Loaded)
    (hs : src.val < (chr.inventory useInventory).slotCount)
    (hd : dst.val < (chr.inventory useInventory).slotCount)
    (hes : ((chr.inventory useInventory).items src).isEmpty = false)
    (hed : ((chr.inventory useInventory).items dst).isEmpty = false) :
    (moveSwap chr useInventory src dst).1.Loaded := by
  have hempty {i : Fin maxItemCount} (hi : i = src ∨ i = dst) :
      i.val < (chr.inventory useInventory).slotCount ∧
        (((chr.inventory useInventory).swapVals src dst).items i).isEmpty = false := by
    rw [Inventory.items_swapVals]
    by_cases his : i = src
    · subst his
      rw [Function.update_self]
      exact ⟨hs, hes⟩
    · obtain rfl := hi.resolve_left his
      rw [Function.update_of_ne his, Function.update_self]
      exact ⟨hd, hed⟩
  have hswap : Equiv.swap (min src dst) (max src dst) = Equiv.swap src dst := by
    rcases le_total src dst with hle | hle
    · rw [min_eq_left hle, max_eq_right hle]
    · rw [min_eq_right hle, max_eq_left hle, Equiv.swap_comm]
  obtain ⟨hlo, helo⟩ := hempty (min_choice src dst)
  rw [Syrup.moveSwap]
  simp only [if_true]
  rw [Character.Loaded, Character.activeProjectile_setActiveProjectile]
  refine @Character.Loaded.activeAfterSwap _ h (chr.setInventory useInventory
    ((chr.inventory useInventory).swapVals src dst)) _ _ min_le_max rfl rfl ?_ ?_ fun i => ?_
  · rw [Character.inventory_setInventory_self]
    exact hlo
  · rw [Character.inventory_setInventory_self]
    exact helo
  · rw [Character.inventory_setInventory_self, usable_swapVals hs hd hes hed, hswap]

/-- The moves of stacks of the use inventory after which the first projectile is looked for if it has
    to be. -/
structure MoveLoaded (env : Env) (chr : Character) (src dst : Fin maxItemCount) : Prop where
  /-- If there is no weapon, what has been one does not shoot what is moved to an empty slot. -/
  empty : ((chr.inventory useInventory).items dst).isEmpty = true →
    (chr.equippedEquipment weaponIndex).isEmpty = true →
    isProjectile chr.weaponId ((chr.inventory useInventory).items src).val = false
  /-- Not all of the active stack is put onto itself. -/
  onto : src = dst → projectileSlot src = chr.activeProjectile →
    itemIsRechargeable ((chr.inventory useInventory).items dst).val.item.itemId = false →
    ∀ info, env.itemInfo ((chr.inventory useInventory).items dst).val.item.itemId = some info →
    (chr.inventory useInventory).quantity dst = info.slotMax ∨
      ¬(chr.inventory useInventory).quantity src <
        info.slotMax - (chr.inventory useInventory).quantity dst

/-- A move in another inventory keeps the first projectile. -/
theorem Character.Loaded.onlyStacks {chr' : Character} {mods : List InventoryModify} (h : chr.Loaded)
    (hk : k ≠ useInventory) (hmove : moveStack env chr k src dst = .ok (chr', mods)) :
    chr'.Loaded := by
  have hactive : chr'.activeProjectile = chr.activeProjectile := by
    obtain ⟨_, rfl⟩ | ⟨_, ⟨_, _, info, _, rfl⟩ | ⟨_, rfl⟩⟩ := moveStack_cases hmove
    · rw [Syrup.moveToEmpty]
      simp only [if_neg hk]
      rfl
    · rw [Syrup.moveOnto]
      split
      · rfl
      · simp only
        split
        · rw [Syrup.moveAllOnto]
          simp only [hk, false_and, if_false]
          rfl
        · rfl
    · rw [Syrup.moveSwap]
      simp only [if_neg hk]
      rfl
  have honly : OnlyStacks k chr chr' := by
    obtain ⟨_, rfl⟩ | ⟨_, ⟨_, _, info, _, rfl⟩ | ⟨_, rfl⟩⟩ := moveStack_cases hmove
    · exact onlyStacks_moveToEmpty
    · exact onlyStacks_moveOnto
    · exact onlyStacks_moveSwap
  rw [honly]
  exact h.congr rfl (Character.inventory_setInventory_of_ne (Ne.symm hk) _) hactive

/-- Moving keeps the first projectile. -/
theorem Character.Loaded.moveItem {c c' : Client} {inventory src dst : UInt8} {b : Bool}
    (h : c.character.Loaded) (hsafe : inventoryOfNumber inventory = some useInventory → ∀ i j,
      (c.character.inventory useInventory).index? (src - 1).toNat = some i →
      (c.character.inventory useInventory).index? (dst - 1).toNat = some j →
      ((c.character.inventory useInventory).items i).isEmpty = false → MoveLoaded env c.character i j)
    (hcall : clientMoveItem env c inventory src dst = .ok (b, c')) : c'.character.Loaded := by
  obtain rfl | ⟨_, i, j, _, _, _, hc⟩ | ⟨k, i, j, mods, hk, hi, hj, he, hmove⟩ :=
    clientMoveItem_cases hcall
  · exact h
  · rw [hc, moveEquip]
    split
    · exact h.congr rfl rfl rfl
    · exact h.congr rfl (Character.inventory_setInventory_of_ne (by decide) _) rfl
  · by_cases hku : k = useInventory
    · subst hku
      have hs := Inventory.lt_of_index? hi
      have hd := Inventory.lt_of_index? hj
      obtain ⟨hempty, honto⟩ := hsafe hk i j hi hj he
      obtain ⟨hed, hc⟩ | ⟨hed, ⟨hid, hr, info, hinfo, hc⟩ | ⟨_, hc⟩⟩ := moveStack_cases hmove
      · rw [hc]
        exact h.moveToEmpty hs hd he hed (hempty hed)
      · rw [hc]
        exact h.moveOnto hd ⟨⟨he, hed⟩, hid, hr⟩ fun hij ha => honto hij ha hr info hinfo
      · rw [hc]
        exact h.moveSwap hs hd he hed
    · exact h.onlyStacks hku hmove

end Moving

/-! ## Equipment -/

section Equip

variable {env : Env} {chr : Character} {i : Fin maxItemCount} {j : Fin equipSlotCount} {c c' : Client}

theorem worn_putOn :
    (putOn chr i j).worn = Function.update chr.worn j (some (chr.equipmentInventory.items i).val) :=
  Character.worn_of_update equippedEquipment_putOn

@[simp] theorem activeProjectile_setWorn (c : Cell Equipment) :
    (chr.setWorn j c).activeProjectile = chr.activeProjectile := rfl

@[simp] theorem activeProjectile_setEquip (c : Cell Equipment) :
    (chr.setEquip i c).activeProjectile = chr.activeProjectile := rfl

@[simp] theorem activeProjectile_addBonuses (e : Equipment) :
    (chr.addBonuses e).activeProjectile = chr.activeProjectile := rfl

@[simp] theorem activeProjectile_subBonuses (e : Equipment) :
    (chr.subBonuses e).activeProjectile = chr.activeProjectile := rfl

theorem activeProjectile_putOn : (putOn chr i j).activeProjectile = chr.activeProjectile := by
  rw [putOn]
  split <;> simp

theorem activeProjectile_takeOff : (takeOff chr j i).activeProjectile = chr.activeProjectile := by
  rw [takeOff]
  split <;> simp

/-- The equipment after which the first projectile is looked for if it has to be: there is one for a
    new weapon, or there was none before; and nothing else that is put on shoots, unless it shoots
    the same. -/
def EquipLoaded (chr : Character) (i : Fin maxItemCount) (j : Fin equipSlotCount) : Prop :=
  let found := findProjectile (chr.inventory useInventory)
    (chr.equipmentInventory.items i).val.item.itemId 0
  (j = weaponIndex → found = none → chr.activeProjectile = noProjectile) ∧
    (j ≠ weaponIndex → ∀ p, found = some p → projectileSlot p = chr.activeProjectile)

/-- Putting on keeps the first projectile. -/
theorem Character.Loaded.equip {src : UInt8} {slot : UInt32} {b : Bool} (h : c.character.Loaded)
    (hsafe : isValidEquipSlot slot = true → ∀ i j,
      c.character.equipmentInventory.index? (src - 1).toNat = some i →
      (c.character.equipmentInventory.items i).isEmpty = false → equipIndex slot = .ok j →
      EquipLoaded c.character i j)
    (hcall : clientEquip c src slot = .ok (b, c')) : c'.character.Loaded := by
  obtain rfl | ⟨i, j, hv, hi, he, hj, hc⟩ := clientEquip_cases hcall
  · exact h
  · obtain ⟨hweapon, hother⟩ := hsafe hv i j hi he hj
    rw [hc, Character.Loaded, Character.activeProjectile_setActiveProjectile, rescan,
      equippedEquipment_putOn, Function.update_self, activeProjectile_putOn, inventory_putOn,
      Character.inventory_setActiveProjectile, inventory_putOn]
    change IsFirst (Usable ((putOn c.character i j).worn weaponIndex) _) _
    rw [worn_putOn]
    by_cases hjw : j = weaponIndex
    · subst hjw
      rw [Function.update_self]
      have hfind := @isFirst_find (c.character.equipmentInventory.items i).val
        (c.character.inventory useInventory) 0 fun i hi => absurd hi (Nat.not_lt_zero _)
      cases hf : findProjectile (c.character.inventory useInventory)
          (c.character.equipmentInventory.items i).val.item.itemId 0 with
      | none =>
        rw [hf] at hfind
        rw [hweapon rfl hf]
        exact hfind
      | some p =>
        rw [hf] at hfind
        exact hfind
    · rw [Function.update_of_ne (Ne.symm hjw)]
      cases hf : findProjectile (c.character.inventory useInventory)
          (c.character.equipmentInventory.items i).val.item.itemId 0 with
      | none => exact h
      | some p =>
        rw [Option.map_some, Option.getD_some, hother hjw p hf]
        exact h

/-- A valid slot is the slot of the weapon if it has its index. -/
theorem equipIndex_eq_weapon {slot : UInt32} (hv : isValidEquipSlot slot = true)
    (hj : equipIndex slot = .ok weaponIndex) : slot = equipSlotWeapon := by
  have hle : slot.toNat < 149 := by
    simp only [isValidEquipSlot, Bool.or_eq_true, Bool.and_eq_true, decide_eq_true_eq, beq_iff_eq,
      UInt32.le_iff_toNat_le] at hv
    rcases hv with (((h | h) | rfl) | rfl) | h
    · exact lt_of_le_of_lt h.2 (by decide)
    · exact lt_of_le_of_lt h.2 (by decide)
    · decide
    · decide
    · exact lt_of_le_of_lt h.2 (by decide)
  have hall : ∀ n : Fin 149, isValidEquipSlot (UInt32.ofNat n.val) = true →
      equipIndex (UInt32.ofNat n.val) = .ok weaponIndex →
      UInt32.ofNat n.val = equipSlotWeapon := by decide +kernel
  have := hall ⟨slot.toNat, hle⟩
  rw [UInt32.ofNat_toNat] at this
  exact this hv hj

theorem equipIndex_weapon : equipIndex equipSlotWeapon = .ok weaponIndex := rfl

/-- The equipment after which there is no projectile: what is put in the place of a weapon does not
    shoot. -/
def UnequipLoaded (chr : Character) (i : Fin maxItemCount) : Prop :=
  (chr.equipmentInventory.items i).isEmpty = false →
    (chr.equippedEquipment weaponIndex).isEmpty = false →
    findProjectile (chr.inventory useInventory)
      (chr.equipmentInventory.items i).val.item.itemId 0 = none

/-- Without a projectile, nothing can be shot. -/
theorem isFirst_of_find_eq_none {w : Equipment} {inv : Inventory InventoryItem}
    (h : findProjectile inv w.item.itemId 0 = none) :
    IsFirst (Usable (some w) inv) noProjectile := by
  have hfind := @isFirst_find w inv 0 fun i hi => absurd hi (Nat.not_lt_zero _)
  rwa [h] at hfind

/-- Taking off keeps the first projectile. -/
theorem Character.Loaded.unequip {slot : UInt32} {dst : UInt8} {b : Bool} (h : c.character.Loaded)
    (hsafe : slot = equipSlotWeapon → ∀ i,
      c.character.equipmentInventory.index? (dst - 1).toNat = some i → UnequipLoaded c.character i)
    (hcall : clientUnequip c slot dst = .ok (b, c')) : c'.character.Loaded := by
  obtain rfl | ⟨i, j, hp, mp, hv, hi, hj, hc⟩ := clientUnequip_cases hcall
  · exact h
  · rw [hc]
    change (takeOff (dropProjectile c.character slot) j i).Loaded
    by_cases hslot : slot = equipSlotWeapon
    · have hloaded := hsafe hslot i hi
      rw [hslot, equipIndex_weapon, Except.ok.injEq] at hj
      subst hj
      subst hslot
      rw [dropProjectile, if_pos rfl, Character.Loaded, inventory_takeOff, activeProjectile_takeOff,
        Character.worn_of_update equippedEquipment_takeOff]
      rw [Function.update_self, Character.activeProjectile_setActiveProjectile,
        Character.inventory_setActiveProjectile]
      split
      · exact isFirst_none.2 fun _ => not_usable_none
      · rename_i hi
        rw [Bool.not_eq_true] at hi
        cases hw : (c.character.equippedEquipment weaponIndex).isEmpty with
        | true =>
          rw [Cell.get?_of_isEmpty (by exact hw)]
          exact isFirst_none.2 fun _ => not_usable_none
        | false =>
          rw [Cell.get?_write (by exact hw)]
          exact isFirst_of_find_eq_none (hloaded hi hw)
    · have hjw : weaponIndex ≠ j := by
        rintro rfl
        exact hslot (equipIndex_eq_weapon hv hj)
      rw [dropProjectile, if_neg hslot]
      refine h.congr ?_ (congrFun inventory_takeOff _) ?_
      · rw [Character.worn_of_update equippedEquipment_takeOff, Function.update_of_ne hjw]
      · exact activeProjectile_takeOff

/-- Removing equipment keeps the first projectile, unless it is a weapon for which there is one. -/
theorem Character.Loaded.removeEquip {equipped : Bool} {src : UInt8} (h : c.character.Loaded)
    (hsafe : equipped = true → equipIndex src.toUInt32 = .ok weaponIndex →
      (c.character.equippedEquipment weaponIndex).isEmpty = false →
      c.character.activeProjectile = noProjectile) :
    (clientRemoveEquip c equipped src).2.character.Loaded := by
  obtain hc | ⟨heq, j, hj, he, hc⟩ | ⟨_, i, _, hc⟩ := clientRemoveEquip_cases c equipped src
  · rw [hc]
    exact h
  · rw [hc]
    by_cases hjw : j = weaponIndex
    · subst hjw
      rw [Character.Loaded, @Character.worn_of_update c.character _ _ _ rfl, Function.update_self]
      change IsFirst _ c.character.activeProjectile
      rw [hsafe heq hj he]
      exact isFirst_none.2 fun _ => not_usable_none
    · refine h.congr ?_ rfl rfl
      rw [@Character.worn_of_update c.character _ _ _ rfl, Function.update_of_ne (Ne.symm hjw)]
  · rw [hc]
    exact h.congr rfl rfl rfl

end Equip

/-! ## Using and recharging -/

section Recharge

variable {env : Env} {chr : Character} {i : Fin maxItemCount} {c c' : Client}

/-- Filling up a stack keeps the first projectile, if there is a weapon, or if what has been one does
    not shoot the item. -/
theorem Character.Loaded.rechargeStack {info : ItemInfo} (h : chr.Loaded)
    (hi : i.val < (chr.inventory useInventory).slotCount)
    (he : ((chr.inventory useInventory).items i).isEmpty = false) (hmax : 0 < info.slotMax.toInt)
    (hsafe : (chr.equippedEquipment weaponIndex).isEmpty = true →
      isProjectileId chr.weaponId ((chr.inventory useInventory).items i).val.item.itemId = false) :
    (rechargeStack chr info i).Loaded := by
  have hshoots : shoots (chr.worn weaponIndex) (((chr.inventory useInventory).items i).write
      (((chr.inventory useInventory).items i).val.setQuantity info.slotMax)) =
      isProjectileId chr.weaponId ((chr.inventory useInventory).items i).val.item.itemId := by
    have hp : isProjectile chr.weaponId (((chr.inventory useInventory).items i).val.setQuantity
        info.slotMax) =
        isProjectileId chr.weaponId ((chr.inventory useInventory).items i).val.item.itemId := by
      rw [Bool.eq_iff_iff, isProjectile_iff, InventoryItem.item_setQuantity]
      exact and_iff_left fun _ => by
        rw [InventoryItem.quantity_setQuantity, lt16, zero16]
        exact hmax
    rw [shoots_worn, Cell.isEmpty_write, he, Cell.val_write, hp]
    cases hw : (chr.equippedEquipment weaponIndex).isEmpty with
    | true => rw [hsafe hw]; rfl
    | false => rfl
  obtain ⟨hyes, hno⟩ := IsFirst.insert (j := i) (q := Usable (chr.worn weaponIndex)
    ((chr.inventory useInventory).set i (((chr.inventory useInventory).items i).write
      (((chr.inventory useInventory).items i).val.setQuantity info.slotMax)))) h (fun hu => by
      have hu2 := hu.2
      rw [shoots_worn, Bool.and_eq_true, Bool.and_eq_true, isProjectile_iff] at hu2
      rw [usable_set_self, hshoots]
      exact ⟨hi, hu2.2.2.1⟩) fun i' hi' => usable_set_of_ne hi'
  rw [usable_set_self, hshoots] at hyes hno
  rw [Character.Loaded, Syrup.rechargeStack]
  change IsFirst (Usable (chr.worn weaponIndex)
    ((chr.setItem useInventory i _).inventory useInventory)) (activeAfterRecharge _ i)
  rw [activeAfterRecharge, Character.inventory_setItem_self, Inventory.items_set_self]
  split
  · rename_i hif
    exact hyes hif.1 ⟨hi, hif.2⟩
  · rename_i hif
    exact hno fun hand => hif ⟨hand.1, hand.2.2⟩

/-- Recharging keeps the first projectile. -/
theorem Character.Loaded.recharge {slot : UInt16} {r : ClientResultType} (henv : StarsTake env)
    (h : c.character.Loaded) (hsafe : ∀ i,
      (c.character.inventory useInventory).index? (slot - 1).toNat = some i →
      ((c.character.inventory useInventory).items i).isEmpty = false →
      (c.character.equippedEquipment weaponIndex).isEmpty = true →
      isProjectileId c.character.weaponId
        ((c.character.inventory useInventory).items i).val.item.itemId = false)
    (hcall : clientRecharge env c slot = .ok (r, c')) : c'.character.Loaded := by
  obtain hc | ⟨i, info, m, hi, he, hr, hinfo, _, hc⟩ := clientRecharge_cases hcall
  · rw [hc]
    exact h
  · rw [hc]
    exact (h.rechargeStack (Inventory.lt_of_index? hi) he (henv _ _ hinfo hr)
      (hsafe i hi he)).congr rfl rfl rfl

/-- Using an item keeps the first projectile, if the weapon does not shoot it. -/
theorem Character.Loaded.useItem {slot : UInt8} {id : UInt32} (h : c.character.Loaded)
    (hsafe : ∀ w, c.character.worn weaponIndex = some w → isProjectileId w.item.itemId id = false) :
    (clientUseItem env c slot id).2.character.Loaded := by
  obtain hc | ⟨i, info, hp, mp, hi, _, he, hid, hc⟩ := clientUseItem_cases env c slot id
  · rw [hc]
    exact h
  · have hnot {it : Cell InventoryItem} (hit : it.val.item.itemId = id) :
        shoots (c.character.worn weaponIndex) it = false := by
      cases hw : c.character.worn weaponIndex with
      | none => rw [shoots_none]
      | some w =>
        rw [shoots_some, Bool.and_eq_false_iff, ← Bool.not_eq_true (isProjectile _ _),
          isProjectile_iff, hit, hsafe w hw]
        exact .inr nofun
    have huse : (useFrom ((c.character.inventory useInventory).items i)).val.item.itemId = id := by
      rw [useFrom]
      split <;> exact hid
    rw [hc]
    refine @Character.Loaded.setItem { c.character with hp := hp, mp := mp } _ _ h _
      (fun _ _ hs => ?_) fun _ _ hs => ?_
    · exact absurd hs (by rw [← Bool.not_eq_false]; exact not_not.2 (hnot huse))
    · exact absurd hs (by rw [← Bool.not_eq_false]; exact not_not.2 (hnot hid))

end Recharge

/-! ## Logging in -/

/-- The login finds the first projectile. -/
theorem loaded_loadProjectile (chr : Character) : (loadProjectile chr).Loaded := by
  rw [loadProjectile]
  split
  · rename_i hw
    rw [Character.Loaded, Character.worn, Cell.get?_of_isEmpty hw]
    exact isFirst_none.2 fun _ => not_usable_none
  · rename_i hw
    rw [Bool.not_eq_true] at hw
    have hworn : chr.worn weaponIndex = some (chr.equippedEquipment weaponIndex).val :=
      Cell.get?_of_not_isEmpty hw
    change IsFirst (Usable (chr.worn weaponIndex) (chr.inventory useInventory)) _
    rw [hworn]
    exact isFirst_find fun i hi => absurd hi (Nat.not_lt_zero _)

theorem loaded_loadHoldings {env : Env} {s : SavedCharacter} {chr chr' : Character}
    (h : loadHoldings env s chr = .ok chr') : chr'.Loaded := by
  obtain ⟨equipInv, _, h⟩ := Exec.bind_eq_ok.1 h
  obtain ⟨use, _, h⟩ := Exec.bind_eq_ok.1 h
  obtain ⟨setup, _, h⟩ := Exec.bind_eq_ok.1 h
  obtain ⟨etc, _, h⟩ := Exec.bind_eq_ok.1 h
  obtain ⟨cash, _, h⟩ := Exec.bind_eq_ok.1 h
  obtain ⟨chr₁, _, h⟩ := Exec.bind_eq_ok.1 h
  obtain ⟨chr₂, _, h⟩ := Exec.bind_eq_ok.1 h
  obtain ⟨chr₃, _, h⟩ := Exec.bind_eq_ok.1 h
  cases h
  exact loaded_loadProjectile chr₃

/-! ## Runs -/

section Runs

variable {env : Env} {c c' : Client}

/-- The steps that keep the first projectile. -/
def ActiveSafe (env : Env) : Action → Client → Prop
  | .gainItems _ items _, c => GainLoaded c.character items
  | .useProjectile amount, c => ShotSafe c.character amount
  | .removeEquip equipped src, c => equipped = true → equipIndex src.toUInt32 = .ok weaponIndex →
      (c.character.equippedEquipment weaponIndex).isEmpty = false →
      c.character.activeProjectile = noProjectile
  | .moveItem inventory src dst, c => inventoryOfNumber inventory = some useInventory → ∀ i j,
      (c.character.inventory useInventory).index? (src - 1).toNat = some i →
      (c.character.inventory useInventory).index? (dst - 1).toNat = some j →
      ((c.character.inventory useInventory).items i).isEmpty = false → MoveLoaded env c.character i j
  | .equip src slot, c => isValidEquipSlot slot = true → ∀ i j,
      c.character.equipmentInventory.index? (src - 1).toNat = some i →
      (c.character.equipmentInventory.items i).isEmpty = false → equipIndex slot = .ok j →
      EquipLoaded c.character i j
  | .unequip slot dst, c => slot = equipSlotWeapon → ∀ i,
      c.character.equipmentInventory.index? (dst - 1).toNat = some i → UnequipLoaded c.character i
  | .useItem _ id, c =>
      ∀ w, c.character.worn weaponIndex = some w → isProjectileId w.item.itemId id = false
  | .recharge slot, c => ∀ i,
      (c.character.inventory useInventory).index? (slot - 1).toNat = some i →
      ((c.character.inventory useInventory).items i).isEmpty = false →
      ShotByWeapon c.character ((c.character.inventory useInventory).items i).val.item.itemId
  | _, _ => True

/-- Every safe step keeps the first projectile. -/
theorem Character.Loaded.step (henv : StarsTake env) {a : Action} (h : c.character.Loaded)
    (hsafe : ActiveSafe env a c) (hstep : a.step env c = .ok c') : c'.character.Loaded := by
  cases a with
  | gainItems alloc items reward =>
    obtain ⟨⟨r, _⟩, hcall, hstep⟩ := Exec.bind_eq_ok.1 hstep
    cases hstep
    exact h.gainItems henv hsafe hcall
  | gainInventoryItem alloc room item =>
    obtain ⟨⟨r, _⟩, hcall, hstep⟩ := Exec.bind_eq_ok.1 hstep
    cases hstep
    exact h.gainInventoryItem hcall
  | gainEquipment alloc item now =>
    obtain ⟨⟨r, _⟩, hcall, hstep⟩ := Exec.bind_eq_ok.1 hstep
    cases hstep
    obtain rfl | ⟨j, set, hc⟩ := clientGainEquipment_cases hcall
    · exact h
    · rw [hc]
      exact h.congr rfl rfl rfl
  | removeItem alloc inventory src amount =>
    obtain ⟨⟨r, _⟩, hcall, hstep⟩ := Exec.bind_eq_ok.1 hstep
    cases hstep
    obtain rfl | ⟨k, i, set, _, _, _, hc⟩ := clientRemoveItem_cases hcall
    · exact h
    · rw [hc]
      exact h.removeStack.congr rfl rfl rfl
  | useProjectile amount =>
    obtain ⟨⟨r, _⟩, hcall, hstep⟩ := Exec.bind_eq_ok.1 hstep
    cases hstep
    exact h.useProjectile hsafe hcall
  | removeEquip equipped src =>
    cases hstep
    exact h.removeEquip hsafe
  | moveItem inventory src dst =>
    obtain ⟨⟨r, _⟩, hcall, hstep⟩ := Exec.bind_eq_ok.1 hstep
    cases hstep
    exact h.moveItem hsafe hcall
  | equip src slot =>
    obtain ⟨⟨r, _⟩, hcall, hstep⟩ := Exec.bind_eq_ok.1 hstep
    cases hstep
    exact h.equip hsafe hcall
  | unequip slot dst =>
    obtain ⟨⟨r, _⟩, hcall, hstep⟩ := Exec.bind_eq_ok.1 hstep
    cases hstep
    exact h.unequip hsafe hcall
  | useItem slot id =>
    cases hstep
    exact h.useItem hsafe
  | recharge slot =>
    obtain ⟨⟨r, _⟩, hcall, hstep⟩ := Exec.bind_eq_ok.1 hstep
    cases hstep
    exact h.recharge henv hsafe hcall

/-- From the login on, `activeProjectile` is the first projectile in every state of a run whose steps
    are safe. -/
theorem activeProjectile_run {chr : Character} {s : SavedCharacter} (henv : StarsTake env)
    (hlogin : loadHoldings env s chr = .ok c.character)
    (hrun : Machine.Run (Action.step env) (ActiveSafe env) c c') :
    c'.character.activeProjectile = firstProjectile c'.character :=
  loaded_iff.1 (hrun.invariant (I := fun c => c.character.Loaded) (loaded_loadHoldings hlogin)
    fun _ _ _ h hsafe hstep => h.step henv hsafe hstep)

end Runs

/-! ### Runs with a bow -/

/-- A bow, and arrows, of which a slot holds 100. -/
def bowEnv : Env := .ofLists [.plain 2060000 100] [.plain 1452000] [] []

/-- A character that has been saved wearing a bow, with arrows in the third slot. -/
def bowSaved : SavedCharacter :=
  { (default : SavedCharacter) with
    equipSlots := 24
    useSlots := 24
    equippedEquipment := [{ (default : SavedEquipment) with itemId := 1452000 }]
    inventoryItems := [{ (default : SavedItem) with slot := 2, itemId := 2060000, count := 5 }] }

theorem starsTake_bowEnv : StarsTake bowEnv := by
  intro id info h hr
  have hmem := List.mem_of_find?_eq_some h
  rw [List.mem_singleton] at hmem
  rw [hmem]
  decide

/-- The arrows are moved to the first slot. -/
theorem activeProjectile_run_bow : ∃ chr c', loadHoldings bowEnv bowSaved default = .ok chr ∧
    (Action.moveItem 2 3 1).step bowEnv (.new chr) = .ok c' ∧
      c'.character.activeProjectile = firstProjectile c'.character := by
  have hrun : (do
      let chr ← loadHoldings bowEnv bowSaved default
      let c' ← (Action.moveItem 2 3 1).step bowEnv (.new chr)
      return (chr, c') : Exec (Character × Client)).Returns fun r =>
        (r.1.equippedEquipment weaponIndex).isEmpty = false := by
    decide +kernel
  obtain ⟨⟨chr, c'⟩, h, hworn⟩ := Exec.returns_iff.1 hrun
  obtain ⟨_, hlogin, h⟩ := Exec.bind_eq_ok.1 h
  obtain ⟨_, hstep, h⟩ := Exec.bind_eq_ok.1 h
  cases h
  have hsafe : ActiveSafe bowEnv (.moveItem 2 3 1) (.new chr) := by
    intro _ i j hi hj _
    refine ⟨fun _ hempty => absurd (hworn.symm.trans hempty) (by decide), fun hij => ?_⟩
    have hi' : i.val = 2 := (Inventory.index?_eq_some.1 hi).1
    have hj' : j.val = 0 := (Inventory.index?_eq_some.1 hj).1
    rw [hij, hj'] at hi'
    cases hi'
  exact ⟨chr, c', hlogin, hstep,
    activeProjectile_run (c := .new chr) starsTake_bowEnv hlogin (.step _ .start hsafe hstep)⟩

/-- The bow is dropped while it is worn: the arrows are still the active projectile. -/
theorem activeProjectile_not_first : (do
    let chr ← loadHoldings bowEnv bowSaved default
    (Action.removeEquip true 11).step bowEnv (.new chr) : Exec Client).Returns fun c =>
      c.character.activeProjectile = 2 ∧ firstProjectile c.character = noProjectile := by
  decide +kernel

end Syrup
