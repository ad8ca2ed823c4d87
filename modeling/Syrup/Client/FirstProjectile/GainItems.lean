import Syrup.Client.FirstProjectile

/-!
# `client_gain_items` and the first projectile

What is taken away may use up the stack at `activeProjectile`, for which another one is not looked for;
and what is given is shot by what has been a weapon last, whether or not there is one
now. Otherwise the first projectile is found (`Character.Loaded.gainItems`).
-/

namespace Syrup

open Sweep Machine

/-- A slot holds at least one star or bullet. -/
def StarsTake (env : Env) : Prop :=
  ∀ id info, env.itemInfo id = some info → itemIsRechargeable id = true → 0 < info.slotMax.toInt

/-! ## Taking away -/

section Take

variable {weapon : Option Equipment} {id : UInt32} {amount amount' : Int16} {l : Amounts}
  {k : Fin inventoryCount} {i : Fin maxItemCount} {c c₀ c₁ : Cell InventoryItem} {g g' : Gain}

/-- Some of an item has been taken from a slot, or none. -/
def TakenFrom (id : UInt32) (c₀ c : Cell InventoryItem) : Prop :=
  c = c₀ ∨ c₀.isEmpty = false ∧ c₀.val.item.itemId = id ∧
    (c.isEmpty = true ∨ c.isEmpty = false ∧ c.val.item = c₀.val.item ∧ 0 < c.val.quantity.toInt ∧
      c.val.quantity.toInt ≤ c₀.val.quantity.toInt)

theorem TakenFrom.trans (h : TakenFrom id c₀ c₁) (h' : TakenFrom id c₁ c) : TakenFrom id c₀ c := by
  obtain rfl | ⟨he, hid, h⟩ := h
  · exact h'
  · obtain rfl | ⟨he', _, h'⟩ := h'
    · exact .inr ⟨he, hid, h⟩
    · refine .inr ⟨he, hid, ?_⟩
      obtain h | ⟨_, hi, _, hle⟩ := h
      · rw [he'] at h
        cases h
      · exact h'.imp_right fun ⟨hn, hi', hpos, hle'⟩ => ⟨hn, hi'.trans hi, hpos, hle'.trans hle⟩

/-- One can shoot from a slot if one could before, and still can unless the slot has been
    emptied. -/
theorem TakenFrom.shoots (h : TakenFrom id c₀ c) :
    (shoots weapon c = true → shoots weapon c₀ = true) ∧
      (c.isEmpty = false → shoots weapon c₀ = true → shoots weapon c = true) := by
  obtain rfl | ⟨he₀, _, he | ⟨he, hi, hpos, hle⟩⟩ := h
  · exact ⟨fun hs => hs, fun _ hs => hs⟩
  · refine ⟨fun hs => ?_, fun he' => ?_⟩
    · rw [shoots_of_isEmpty he] at hs
      cases hs
    · rw [he] at he'
      cases he'
  · cases weapon with
    | none => exact ⟨nofun, fun _ => nofun⟩
    | some w =>
      rw [shoots_some, shoots_some, he, he₀, Bool.and_eq_true, Bool.and_eq_true, isProjectile_iff,
        isProjectile_iff, hi]
      refine ⟨fun ⟨_, hid, _⟩ => ⟨rfl, hid, fun _ => ?_⟩, fun _ ⟨_, hid, _⟩ => ⟨rfl, hid, fun _ => ?_⟩⟩
      · rw [lt16, zero16]
        omega
      · rw [lt16, zero16]
        exact hpos

theorem takenAway_le_zero (l : Amounts) (x : UInt32) : takenAway l x ≤ 0 := by
  induction l with
  | nil => exact le_rfl
  | cons r l ih =>
    rw [takenAway_cons]
    split
    · have := min_le_right r.2.toInt 0
      omega
    · omega

theorem takenAway_cons_le (r : UInt32 × Int16) (l : Amounts) (x : UInt32) :
    takenAway (r :: l) x ≤ takenAway l x := by
  rw [takenAway_cons]
  split
  · have := min_le_right r.2.toInt 0
    omega
  · omega

/-- What is to be taken away leaves something of the active stack, and no stack it is taken from has
    a negative quantity. -/
structure Leaves (inv : Inventory InventoryItem) (active : UInt8) (l : Amounts) : Prop where
  nonneg : ∀ i, i.val < inv.slotCount → (inv.items i).isEmpty = false →
    takenAway l (inv.items i).val.item.itemId < 0 → 0 ≤ (inv.items i).val.quantity.toInt
  active : ∀ i, projectileSlot i = active → takenAway l (inv.items i).val.item.itemId < 0 →
    0 < (inv.items i).val.quantity.toInt + takenAway l (inv.items i).val.item.itemId

theorem Leaves.tail {inv : Inventory InventoryItem} {active : UInt8} {r : UInt32 × Int16}
    (h : Leaves inv active (r :: l)) : Leaves inv active l := by
  refine ⟨fun i hi he hlt => h.nonneg i hi he (lt_of_le_of_lt (takenAway_cons_le ..) hlt),
    fun i hi hlt => ?_⟩
  have hle := takenAway_cons_le r l (inv.items i).val.item.itemId
  have := h.active i hi (lt_of_le_of_lt hle hlt)
  omega

/-- The loop taking away from stacks, with what it keeps: at the active slot, no more has been taken
    than has been asked for. -/
theorem takeItems_leaves {inv : Inventory InventoryItem} {active : UInt8}
    {items : Fin maxItemCount → Cell InventoryItem} {mods mods' : List InventoryModify}
    (h : sweep (takeItemBody id k) inv.slots inv.items (amount, mods) = .ok (items, amount', mods'))
    (hneg : amount.toInt < 0) (hleaves : Leaves inv active ((id, amount) :: l)) :
    (∀ j, j.val < inv.slotCount → TakenFrom id (inv.items j) (items j)) ∧ amount'.toInt ≤ 0 ∧
      ∀ j, projectileSlot j = active → j.val < inv.slotCount → (inv.items j).isEmpty = false →
        (inv.items j).val.item.itemId = id → (items j).isEmpty = false ∧
          (inv.items j).val.quantity.toInt + amount.toInt ≤
            (items j).val.quantity.toInt + amount'.toInt := by
  have htaken : takenAway ((id, amount) :: l) id = amount.toInt + takenAway l id := by
    rw [takenAway_cons, if_pos rfl, min_eq_left hneg.le]
  have hle := takenAway_le_zero l id
  refine sweep_inv (P := fun items s =>
    (∀ j, j.val < inv.slotCount → TakenFrom id (inv.items j) (items j)) ∧ s.1.toInt ≤ 0 ∧
      ∀ j, projectileSlot j = active → j.val < inv.slotCount → (inv.items j).isEmpty = false →
        (inv.items j).val.item.itemId = id → (items j).isEmpty = false ∧
          (inv.items j).val.quantity.toInt + amount.toInt ≤
            (items j).val.quantity.toInt + s.1.toInt) h ?_
    ⟨fun _ _ => .inl rfl, hneg.le, fun _ _ _ he _ => ⟨he, le_rfl⟩⟩
  intro i hi items s out ⟨htake, hs, hact⟩ hout
  have hi := Inventory.mem_slots.1 hi
  rw [takeItemBody] at hout
  split at hout
  · rename_i hm
    obtain ⟨he, hid⟩ : (items i).isEmpty = false ∧ (items i).val.item.itemId = id := by simpa using hm
    have hb := bounds16 (items i).val.quantity
    have hsb := bounds16 s.1
    have hnn : 0 ≤ (items i).val.quantity.toInt := by
      obtain heq | ⟨_, _, he' | ⟨_, _, hpos, _⟩⟩ := htake i hi
      · rw [heq] at he hid ⊢
        exact hleaves.nonneg i hi he (by rw [hid, htaken]; omega)
      · rw [he] at he'
        cases he'
      · exact hpos.le
    have hrest {cell : Cell InventoryItem} {a : Int16} (hcell : TakenFrom id (items i) cell)
        (ha : a.toInt ≤ 0) (hsa : s.1.toInt ≤ a.toInt)
        (hactive : projectileSlot i = active → (inv.items i).isEmpty = false →
          (inv.items i).val.item.itemId = id → cell.isEmpty = false ∧
            (items i).val.quantity.toInt + s.1.toInt ≤ cell.val.quantity.toInt + a.toInt) :
        (∀ j, j.val < inv.slotCount →
            TakenFrom id (inv.items j) (Function.update items i cell j)) ∧ a.toInt ≤ 0 ∧
          ∀ j, projectileSlot j = active → j.val < inv.slotCount → (inv.items j).isEmpty = false →
            (inv.items j).val.item.itemId = id → (Function.update items i cell j).isEmpty = false ∧
              (inv.items j).val.quantity.toInt + amount.toInt ≤
                (Function.update items i cell j).val.quantity.toInt + a.toInt := by
      refine ⟨fun j hj => ?_, ha, fun j hja hj hej hidj => ?_⟩
      · by_cases hji : j = i
        · subst hji
          rw [Function.update_self]
          exact (htake j hj).trans hcell
        · rw [Function.update_of_ne hji]
          exact htake j hj
      · obtain ⟨hen, hle⟩ := hact j hja hj hej hidj
        by_cases hji : j = i
        · subst hji
          obtain ⟨hen', hle'⟩ := hactive hja hej hidj
          rw [Function.update_self]
          exact ⟨hen', hle.trans hle'⟩
        · rw [Function.update_of_ne hji]
          exact ⟨hen, by omega⟩
    split at hout
    · rename_i hpos
      cases hout
      have hadd := add16 (a := (items i).val.quantity) (b := s.1) (by omega) (by omega)
      refine hrest (.inr ⟨he, hid, .inr ⟨he, rfl, ?_, ?_⟩⟩) le_rfl (by rw [zero16]; exact hs)
        fun _ _ _ => ⟨he, ?_⟩
      · rw [Cell.val_write, InventoryItem.quantity_setQuantity, hadd]
        exact hpos
      · rw [Cell.val_write, InventoryItem.quantity_setQuantity, hadd]
        omega
      · rw [Cell.val_write, InventoryItem.quantity_setQuantity, hadd, zero16]
        omega
    · rename_i hpos
      cases hout
      have hadd := add16 (a := s.1) (b := (items i).val.quantity) (by omega) (by omega)
      refine hrest (.inr ⟨he, hid, .inl rfl⟩) (by rw [hadd]; omega) (by rw [hadd]; omega)
        fun hia hei hidi => ?_
      -- The active stack is not used up.
      have hmore := hleaves.active i hia
      rw [hidi, htaken] at hmore
      have := (hact i hia hi hei hidi).2
      have := hmore (by omega)
      omega
  · cases hout
    rw [Function.update_eq_self]
    exact ⟨htake, hs, hact⟩

/-- Taking away from stacks keeps the first projectile, if something of it is left. -/
theorem takeItems_first {inv : Inventory InventoryItem} {active : UInt8}
    {items : Fin maxItemCount → Cell InventoryItem} {mods mods' : List InventoryModify}
    (h : sweep (takeItemBody id k) inv.slots inv.items (amount, mods) = .ok (items, amount', mods'))
    (hneg : amount.toInt < 0) (hfirst : IsFirst (Usable weapon inv) active)
    (hleaves : Leaves inv active ((id, amount) :: l)) :
    IsFirst (Usable weapon (inv.withItems items)) active ∧ Leaves (inv.withItems items) active l ∧
      amount'.toInt ≤ 0 := by
  obtain ⟨htake, hle, hact⟩ := takeItems_leaves h hneg hleaves
  have hstill {i : Fin maxItemCount} (hi : projectileSlot i = active) : (items i).isEmpty = false := by
    have hu := hfirst.of_slot hi
    obtain heq | ⟨he, hid, _⟩ := htake i hu.1
    · rw [heq]
      by_contra he
      have hu2 := hu.2
      rw [shoots_of_isEmpty (by simpa using he)] at hu2
      cases hu2
    · exact (hact i hi hu.1 he hid).1
  refine ⟨hfirst.keep (fun i _ hu => ⟨hu.1, (htake i hu.1).shoots.1 hu.2⟩) fun i hi hu =>
    ⟨hu.1, (htake i hu.1).shoots.2 (hstill hi) hu.2⟩, ⟨fun i hi he hlt => ?_, fun i hi hlt => ?_⟩, hle⟩
  · rw [Inventory.items_withItems] at he hlt ⊢
    obtain heq | ⟨_, _, he' | ⟨_, _, hpos, _⟩⟩ := htake i hi
    · rw [heq] at he hlt ⊢
      exact hleaves.tail.nonneg i hi he hlt
    · rw [he] at he'
      cases he'
    · exact hpos.le
  · rw [Inventory.items_withItems] at hlt ⊢
    have hlti := (hfirst.of_slot hi).1
    obtain heq | ⟨he, hid, he' | ⟨_, hitem, _, _⟩⟩ := htake i hlti
    · rw [heq] at hlt ⊢
      exact hleaves.tail.active i hi hlt
    · rw [hstill hi] at he'
      cases he'
    · obtain ⟨_, hq⟩ := hact i hi hlti he hid
      have hmore := hleaves.active i hi
      rw [hitem] at hlt ⊢
      rw [hid] at hmore hlt ⊢
      rw [takenAway_cons, if_pos rfl, min_eq_left hneg.le] at hmore
      have := hmore (by omega)
      omega

/-- Taking away keeps the first projectile, if something of it is left. -/
theorem takeOne_first (h : takeOne id amount g = .ok (some (amount', g')))
    (hg : IsFirst (Usable weapon (g.invs useInventory)) g.activeProjectile)
    (hleaves : Leaves (g.invs useInventory) g.activeProjectile ((id, amount) :: l)) :
    IsFirst (Usable weapon (g'.invs useInventory)) g'.activeProjectile ∧
      Leaves (g'.invs useInventory) g'.activeProjectile l ∧
      (0 < amount'.toInt → inventoryOfId id = .ok useInventory → amount' = amount) := by
  rw [takeOne] at h
  split at h
  · rename_i hneg
    rw [lt16, zero16] at hneg
    split at h
    · rename_i hequip
      obtain ⟨⟨items, a, mods⟩, _, h⟩ := Exec.bind_eq_ok.1 h
      simp only at h
      split at h
      · cases h
      · cases h
        refine ⟨hg, hleaves.tail, fun _ hk => ?_⟩
        rw [isEquipId, beq_iff_eq] at hequip
        rw [inventoryOfId, hequip] at hk
        cases hk
    · obtain ⟨k, hk, h⟩ := Exec.bind_eq_ok.1 h
      obtain ⟨⟨items, a, mods⟩, hsweep, h⟩ := Exec.bind_eq_ok.1 h
      cases h
      change IsFirst (Usable weapon ((g.setInv k items).invs useInventory)) g.activeProjectile ∧
        Leaves ((g.setInv k items).invs useInventory) g.activeProjectile l ∧ _
      by_cases hku : k = useInventory
      · subst hku
        obtain ⟨hfirst, hleaves, hle⟩ := takeItems_first hsweep hneg hg hleaves
        rw [Gain.invs_setInv_self]
        exact ⟨hfirst, hleaves, fun hpos => absurd hle (not_le.2 hpos)⟩
      · rw [Gain.invs_setInv_of_ne g (Ne.symm hku)]
        refine ⟨hg, hleaves.tail, fun _ hk' => ?_⟩
        rw [hk] at hk'
        cases hk'
        exact absurd rfl hku
  · cases h
    exact ⟨hg, hleaves.tail, fun _ _ => rfl⟩

/-- Taking away all keeps the first projectile, and leaves nothing to be given that was not to be
    given before. -/
theorem takeAll_first {l l' : Amounts} (h : takeAll l g = .ok (some (l', g')))
    (hg : IsFirst (Usable weapon (g.invs useInventory)) g.activeProjectile)
    (hleaves : Leaves (g.invs useInventory) g.activeProjectile l) :
    IsFirst (Usable weapon (g'.invs useInventory)) g'.activeProjectile ∧
      ∀ r ∈ l', 0 < r.2.toInt → inventoryOfId r.1 = .ok useInventory → r ∈ l := by
  induction l generalizing g l' g' with
  | nil =>
    cases h
    exact ⟨hg, fun r hr => absurd hr List.not_mem_nil⟩
  | cons r l ih =>
    obtain ⟨id, amount⟩ := r
    obtain ⟨o, hone, h⟩ := Exec.bind_eq_ok.1 h
    cases o with
    | none => cases h
    | some o =>
      obtain ⟨amount', g₁⟩ := o
      obtain ⟨o, hall, h⟩ := Exec.bind_eq_ok.1 h
      cases o with
      | none => cases h
      | some o =>
        obtain ⟨l₁, g₂⟩ := o
        cases h
        obtain ⟨hg₁, hleaves₁, hpos⟩ := takeOne_first hone hg hleaves
        obtain ⟨hg', hmem⟩ := ih hall hg₁ hleaves₁
        refine ⟨hg', fun r hr hlt hk => ?_⟩
        rcases List.mem_cons.1 hr with rfl | hr
        · rw [← hpos hlt hk]
          exact List.mem_cons_self
        · exact List.mem_cons_of_mem _ (hmem r hr hlt hk)

end Take

/-! ## Giving -/

section Give

variable {env : Env} {chr : Character} {id : UInt32} {amount : Int16} {k : Fin inventoryCount}
  {g g' : Gain} {inv : Inventory InventoryItem}

/-- What is given is shot by a weapon that there is, or not at all. -/
def ShotByWeapon (chr : Character) (id : UInt32) : Prop :=
  (chr.equippedEquipment weaponIndex).isEmpty = true → isProjectileId chr.weaponId id = false

/-- Filling up stacks does not change from which one can shoot. -/
theorem fillStacks_shoots {weapon : Option Equipment} {amount' : Int16}
    {mods mods' : List InventoryModify} {items : Fin maxItemCount → Cell InventoryItem}
    (h : fillStacks env id k inv (amount, mods) = .ok (items, amount', mods')) :
    (∀ i, shoots weapon (items i) = shoots weapon (inv.items i)) ∧
      (itemIsRechargeable id = true → amount' = amount) := by
  rw [fillStacks] at h
  split at h
  · cases h
    exact ⟨fun _ => rfl, fun _ => rfl⟩
  · rename_i hr
    rw [Bool.not_eq_true] at hr
    refine ⟨sweep_inv (P := fun items _ => ∀ i, shoots weapon (items i) = shoots weapon (inv.items i))
      h (fun i _ items s out hP hout j => ?_) fun _ => rfl, fun hr' => ?_⟩
    · by_cases hji : j = i
      · subst hji
        rw [Function.update_self, ← hP j]
        rw [fillBody] at hout
        split at hout
        · rename_i hm
          obtain ⟨_, hi⟩ : (items j).isEmpty = false ∧ (items j).val.item.itemId = id := by simpa using hm
          obtain ⟨info, _, hout⟩ := Exec.bind_eq_ok.1 hout
          split at hout
          cases hout
          exact shoots_congr rfl rfl fun hre => by
            rw [hi, hr] at hre
            cases hre
        · cases hout
          rfl
      · rw [Function.update_of_ne hji, hP]
    · rw [hr] at hr'
      cases hr'

/-- A new stack can be shot from if there is a weapon that shoots the item. -/
theorem shoots_freshItem {quantity : Int16} {old : InventoryItem} (hweapon : ShotByWeapon chr id)
    (hq : itemIsRechargeable id = true → 0 < quantity.toInt) :
    shoots (chr.worn weaponIndex) (.full (freshItem id quantity old)) =
      isProjectileId chr.weaponId id := by
  have hp : isProjectile chr.weaponId (freshItem id quantity old) = isProjectileId chr.weaponId id := by
    rw [Bool.eq_iff_iff, isProjectile_iff]
    exact and_iff_left fun hr => lt16.2 (zero16.trans_lt (hq hr))
  rw [shoots_worn]
  change (!(chr.equippedEquipment weaponIndex).isEmpty &&
    isProjectile chr.weaponId (freshItem id quantity old)) = _
  rw [hp]
  cases hw : (chr.equippedEquipment weaponIndex).isEmpty with
  | true => rw [hweapon hw]; rfl
  | false => rfl

/-- Filling an empty slot of the use inventory. -/
theorem freshBody_first {items : Fin maxItemCount → Cell InventoryItem} {i : Fin maxItemCount}
    {s : Fresh} {out : Out (Cell InventoryItem) Fresh} (henv : StarsTake env)
    (h : freshBody env id useInventory chr.weaponId i (items i) s = .ok out)
    (hi : i.val < inv.slotCount) (hweapon : ShotByWeapon chr id)
    (hs : IsFirst (Usable (chr.worn weaponIndex) (inv.withItems items)) s.activeProjectile)
    (hamount : itemIsRechargeable id = true → 0 < s.amount.toInt) :
    IsFirst (Usable (chr.worn weaponIndex) (inv.withItems (Function.update items i out.cell)))
        out.state.activeProjectile ∧
      (out.stop = false → itemIsRechargeable id = true → 0 < out.state.amount.toInt) := by
  have hset (cell : Cell InventoryItem) :
      inv.withItems (Function.update items i cell) = (inv.withItems items).set i cell := rfl
  rw [freshBody] at h
  split at h
  · rename_i he
    obtain ⟨info, hinfo, h⟩ := Exec.bind_eq_ok.1 h
    rw [Exec.deref_eq_ok] at hinfo
    split at h
    rename_i quantity amount heq
    have hq : (itemIsRechargeable id = true → 0 < quantity.toInt) ∧
        (amount ≠ 0 → itemIsRechargeable id = true → 0 < amount.toInt) := by
      split at heq
      · cases heq
        refine ⟨fun hr => henv id info hinfo hr, fun _ hr => ?_⟩
        have hmax := henv id info hinfo hr
        have hsub := sub16 (a := s.amount) (b := info.slotMax) (by omega)
          (by have := bounds16 s.amount; omega)
        omega
      · cases heq
        exact ⟨hamount, fun hne => absurd rfl hne⟩
    cases h
    refine ⟨?_, fun hstop hr => hq.2 (by simpa using hstop) hr⟩
    have hshoots := @shoots_freshItem _ _ _ (items i).val hweapon hq.1
    obtain ⟨hyes, hno⟩ := IsFirst.insert (j := i) (q := Usable (chr.worn weaponIndex)
      ((inv.withItems items).set i (.full (freshItem id quantity (items i).val)))) hs
      (fun hu => by
        have hu2 := hu.2
        rw [Inventory.items_withItems, shoots_of_isEmpty he] at hu2
        cases hu2) fun i' hi' => usable_set_of_ne hi'
    rw [usable_set_self, hshoots] at hyes hno
    rw [hset]
    change IsFirst _ (if _ then _ else _)
    split
    · rename_i hif
      exact hyes hif.2.1 ⟨hi, hif.2.2⟩
    · rename_i hif
      exact hno fun hand => hif ⟨rfl, hand.1, hand.2.2⟩
  · cases h
    refine ⟨?_, fun _ => hamount⟩
    rw [Function.update_eq_self]
    exact hs

/-- Filling up empty slots of the use inventory keeps the first projectile. -/
theorem freshItems_first (henv : StarsTake env) {items items' : Fin maxItemCount → Cell InventoryItem}
    {s s' : Fresh} (h : sweep (freshBody env id useInventory chr.weaponId) inv.slots items s =
      .ok (items', s')) (hweapon : ShotByWeapon chr id)
    (hs : IsFirst (Usable (chr.worn weaponIndex) (inv.withItems items)) s.activeProjectile)
    (hamount : itemIsRechargeable id = true → 0 < s.amount.toInt) :
    IsFirst (Usable (chr.worn weaponIndex) (inv.withItems items')) s'.activeProjectile := by
  have hend := sweep_end (J := fun items s => IsFirst (Usable (chr.worn weaponIndex)
      (inv.withItems items)) s.activeProjectile)
    (I := fun items s => IsFirst (Usable (chr.worn weaponIndex) (inv.withItems items))
      s.activeProjectile ∧ (itemIsRechargeable id = true → 0 < s.amount.toInt)) h
    (fun i hi items s out ⟨hs, hamount⟩ hout => by
      obtain ⟨hfirst, hgo⟩ := freshBody_first henv hout (Inventory.mem_slots.1 hi) hweapon hs hamount
      exact ⟨fun _ => hfirst, fun hstop => ⟨hfirst, hgo hstop⟩⟩) ⟨hs, hamount⟩
  exact hend.elim (fun h => h) And.left

/-- Only the loop over the use inventory looks for the first projectile. -/
theorem freshItems_active {wid : UInt32} (hk : k ≠ useInventory)
    {items items' : Fin maxItemCount → Cell InventoryItem} {s s' : Fresh}
    (h : sweep (freshBody env id k wid) inv.slots items s = .ok (items', s')) :
    s'.activeProjectile = s.activeProjectile := by
  refine sweep_inv (P := fun _ s' => s'.activeProjectile = s.activeProjectile) h
    (fun i _ items s₁ out hP hout => ?_) rfl
  rw [freshBody] at hout
  split at hout
  · obtain ⟨info, _, hout⟩ := Exec.bind_eq_ok.1 hout
    split at hout
    cases hout
    simp only [hk, false_and, if_false]
    exact hP
  · cases hout
    exact hP

/-- Giving keeps the first projectile. -/
theorem giveOne_first (henv : StarsTake env)
    (h : giveOne env chr.weaponId id amount g = .ok (some g'))
    (hg : IsFirst (Usable (chr.worn weaponIndex) (g.invs useInventory)) g.activeProjectile)
    (hweapon : 0 < amount.toInt → inventoryOfId id = .ok useInventory → ShotByWeapon chr id) :
    IsFirst (Usable (chr.worn weaponIndex) (g'.invs useInventory)) g'.activeProjectile := by
  rw [giveOne] at h
  split at h
  · rename_i hpos
    rw [lt16, zero16] at hpos
    split at h
    · obtain ⟨⟨items, a, mods⟩, _, h⟩ := Exec.bind_eq_ok.1 h
      simp only at h
      split at h
      · cases h
      · cases h
        exact hg
    · obtain ⟨k, hk, h⟩ := Exec.bind_eq_ok.1 h
      obtain ⟨⟨items, a, mods⟩, hfill, h⟩ := Exec.bind_eq_ok.1 h
      obtain ⟨hshoots, hsame⟩ := @fillStacks_shoots _ _ _ _ _ (chr.worn weaponIndex) _ _ _ _ hfill
      simp only at h
      by_cases hku : k = useInventory
      · subst hku
        have hfilled : IsFirst (Usable (chr.worn weaponIndex) ((g.invs useInventory).withItems items))
            g.activeProjectile := hg.congr fun i => by
          change _ ↔ _ ∧ shoots (chr.worn weaponIndex) (items i) = true
          rw [hshoots]
          rfl
        split at h
        · obtain ⟨⟨items', s⟩, hfresh, h⟩ := Exec.bind_eq_ok.1 h
          simp only at h
          split at h
          · cases h
          · cases h
            change IsFirst (Usable _ ((g.setInv useInventory items').invs useInventory)) s.activeProjectile
            rw [Gain.invs_setInv_self]
            exact freshItems_first henv hfresh (hweapon hpos hk) hfilled fun hr => by
              change 0 < a.toInt
              rw [hsame hr]
              exact hpos
        · cases h
          change IsFirst (Usable _ ((g.setInv useInventory items).invs useInventory)) g.activeProjectile
          rw [Gain.invs_setInv_self]
          exact hfilled
      · split at h
        · obtain ⟨⟨items', s⟩, hfresh, h⟩ := Exec.bind_eq_ok.1 h
          simp only at h
          split at h
          · cases h
          · cases h
            change IsFirst (Usable _ ((g.setInv k items').invs useInventory)) s.activeProjectile
            rw [Gain.invs_setInv_of_ne g (Ne.symm hku), freshItems_active hku hfresh]
            exact hg
        · cases h
          change IsFirst (Usable _ ((g.setInv k items).invs useInventory)) g.activeProjectile
          rw [Gain.invs_setInv_of_ne g (Ne.symm hku)]
          exact hg
  · cases h
    exact hg

/-- Giving all keeps the first projectile. -/
theorem giveAll_first (henv : StarsTake env) {l : Amounts}
    (h : giveAll env chr.weaponId l g = .ok (some g'))
    (hg : IsFirst (Usable (chr.worn weaponIndex) (g.invs useInventory)) g.activeProjectile)
    (hweapon : ∀ r ∈ l, 0 < r.2.toInt → inventoryOfId r.1 = .ok useInventory →
      ShotByWeapon chr r.1) :
    IsFirst (Usable (chr.worn weaponIndex) (g'.invs useInventory)) g'.activeProjectile := by
  induction l generalizing g with
  | nil =>
    cases h
    exact hg
  | cons r l ih =>
    obtain ⟨o, hone, h⟩ := Exec.bind_eq_ok.1 h
    cases o with
    | none => cases h
    | some g₁ =>
      exact ih h (giveOne_first henv hone hg (hweapon r List.mem_cons_self))
        fun r hr => hweapon r (List.mem_cons_of_mem _ hr)

end Give

/-- The lists after which the first projectile is still known: something of the active stack is left,
    and what is given is shot by a weapon that there is, or not at all. -/
structure GainLoaded (chr : Character) (items : Amounts) : Prop where
  leaves : Leaves (chr.inventory useInventory) chr.activeProjectile items
  weapon : ∀ r ∈ items, 0 < r.2.toInt → ShotByWeapon chr r.1

/-- Taking away and giving keep the first projectile. -/
theorem Character.Loaded.gainItems {env : Env} {alloc reward : Bool} {c c' : Client}
    {items : Amounts} {ret : Option Bool} (henv : StarsTake env) (h : c.character.Loaded)
    (hsafe : GainLoaded c.character items)
    (hcall : clientGainItems env alloc c items reward = .ok (ret, c')) : c'.character.Loaded := by
  obtain ⟨_, rfl⟩ | ⟨_, rest, g, g', htake, hgive, hc⟩ := clientGainItems_cases hcall
  · exact h
  · obtain ⟨hg, hrest⟩ := takeAll_first htake h hsafe.leaves
    rw [hc]
    exact giveAll_first henv hgive hg fun r hr hpos hk => hsafe.weapon r (hrest r hr hpos hk) hpos

end Syrup
