import Syrup.Client.RangedAttack.Shown
import Syrup.Lib.Machine
import Syrup.Projectile

/-!
# What a shot takes

`client_use_projectile` should take projectiles of the weapon from one slot, or nothing (`TakesProjectiles`).
Its loop only compares quantities, though: what it takes from is the first slot from `activeProjectile` on
with a quantity of at least the amount, whatever is in it, and be it a slot that has been emptied. So it is
right if and only if what is in that slot fits the weapon (`ShotFits`).
-/

namespace Syrup

open Sweep Machine

variable {c : Client} {chr chr' : Character} {amount : Int16} {slot : Fin maxItemCount}

/-- The equipped weapon shoots an item. -/
def Fits (chr : Character) (item : InventoryItem) : Prop :=
  ∃ weapon, chr.worn weaponIndex = some weapon ∧
    isProjectileId weapon.item.itemId item.item.itemId = true

instance (chr : Character) (item : InventoryItem) : Decidable (Fits chr item) :=
  match h : chr.worn weaponIndex with
  | none => .isFalse fun ⟨_, h', _⟩ => by rw [h] at h'; cases h'
  | some weapon =>
    decidable_of_iff (isProjectileId weapon.item.itemId item.item.itemId = true)
      ⟨fun hw => ⟨weapon, h, hw⟩, fun ⟨_, h', hw⟩ => by rw [h] at h'; cases h'; exact hw⟩

/-- What is left of a stack from which an amount has been taken. -/
def Lowered (item : InventoryItem) (amount : Int16) (left : Option InventoryItem) : Prop :=
  (left = none ∧ item.quantity = amount) ∨
    ∃ quantity, left = some (item.setQuantity quantity) ∧
      quantity.toInt = item.quantity.toInt - amount.toInt

/-- An amount has been taken from one slot with projectiles of the weapon, and from no other one. -/
def Consumed (chr chr' : Character) (amount : Int16) : Prop :=
  ∃ i item left, (chr.inventory useInventory).view i = some item ∧ Fits chr item ∧
    amount ≤ item.quantity ∧ Lowered item amount left ∧
    (chr'.inventory useInventory).view = Function.update (chr.inventory useInventory).view i left ∧
    ∀ k, k ≠ useInventory → chr'.inventory k = chr.inventory k

/-- No slot holds enough projectiles of the weapon. -/
def TooFew (chr : Character) (amount : Int16) : Prop :=
  ∀ i item, (chr.inventory useInventory).view i = some item → Fits chr item → item.quantity < amount

/-- A shot takes projectiles of the weapon if it is a success, and is none, and does nothing, if there are
    too few. -/
def TakesProjectiles (c : Client) (amount : Int16) : Prop :=
  (clientUseProjectile c amount).Returns fun (success, c') =>
    (success = true → Consumed c.character c'.character amount) ∧
      (TooFew c.character amount → success = false ∧ c' = c)

/-- The first slot from `activeProjectile` on with enough of anything is not empty, and fits the weapon; and
    the inventory does not end before `activeProjectile`. -/
def ShotFits (chr : Character) (amount : Int16) : Prop :=
  let inv := chr.inventory useInventory
  chr.activeProjectile.toNat ≤ inv.slotCount ∧
    ∀ i : Fin maxItemCount, chr.activeProjectile.toNat ≤ i.val → i.val < inv.slotCount →
      amount ≤ (inv.items i).val.quantity →
        (∀ j : Fin maxItemCount, chr.activeProjectile.toNat ≤ j.val → j.val < i.val →
          (inv.items j).val.quantity < amount) →
        (inv.items i).isEmpty = false ∧ Fits chr (inv.items i).val

/-! ## What is taken -/

/-- A stack from which something has been taken is another one. -/
theorem Lowered.ne {item : InventoryItem} {left : Option InventoryItem} (h : Lowered item amount left)
    (hpos : 0 < amount) : left ≠ some item := by
  rintro rfl
  rcases h with ⟨h, -⟩ | ⟨quantity, h, hq⟩
  · cases h
  · have hsame : item.quantity = quantity := congrArg InventoryItem.quantity (Option.some.inj h)
    have hpos := lt16.1 hpos
    rw [zero16] at hpos
    rw [hsame] at hq
    omega

/-- The slot that something is taken from. -/
theorem projectileSource_eq_some : projectileSource chr amount = some slot ↔
    (chr.activeProjectile.toNat ≤ slot.val ∧ slot.val < (chr.inventory useInventory).slotCount ∧
      amount ≤ ((chr.inventory useInventory).items slot).val.quantity) ∧
    ∀ j : Fin maxItemCount, chr.activeProjectile.toNat ≤ j.val → j.val < slot.val →
      ((chr.inventory useInventory).items j).val.quantity < amount := by
  rw [projectileSource, firstFrom_eq_some]
  simp only [decide_eq_true_eq, decide_eq_false_iff_not, Int16.not_le]

/-- What is shown after something has been taken from a slot. -/
theorem view_shot (amount : Int16) (hlt : slot.val < (chr.inventory useInventory).slotCount) (c : Client)
    (active : Fin maxItemCount) :
    ((finishShot c (chr.setItem useInventory slot
        (shootFrom ((chr.inventory useInventory).items slot) amount)) active
        slot).character.inventory useInventory).view =
      Function.update (chr.inventory useInventory).view slot
        (shootFrom ((chr.inventory useInventory).items slot) amount).get? := by
  rw [← Inventory.view_set hlt, ← Character.inventory_setItem_self]
  rw [finishShot]
  split <;> rfl

theorem inventory_shot {left : Cell InventoryItem} (c : Client) (active : Fin maxItemCount)
    {k : Fin inventoryCount} (hk : k ≠ useInventory) :
    (finishShot c (chr.setItem useInventory slot left) active slot).character.inventory k =
      chr.inventory k := by
  rw [finishShot]
  split
  · exact Character.inventory_setItem_of_ne hk slot left
  · exact Character.inventory_setItem_of_ne hk slot left

/-- Enough has been taken from what is not empty. -/
theorem shootFrom_lowered {cell : Cell InventoryItem} (hpos : 0 < amount)
    (he : cell.isEmpty = false) (hq : amount ≤ cell.val.quantity) :
    Lowered cell.val amount (shootFrom cell amount).get? := by
  rw [shootFrom]
  split
  · rename_i hall
    rw [Bool.and_eq_true] at hall
    exact .inl ⟨Cell.get?_emptied _, beq_iff_eq.1 hall.2⟩
  · refine .inr ⟨cell.val.quantity - amount, Cell.get?_write he _, ?_⟩
    have hb := bounds16 cell.val.quantity
    have hpos := lt16.1 hpos
    have hle := le16.1 hq
    rw [zero16] at hpos
    exact sub16 (by omega) (by omega)

/-- From what is empty nothing can be taken. -/
theorem shootFrom_empty {cell : Cell InventoryItem} (he : cell.isEmpty = true) :
    (shootFrom cell amount).get? = none := by
  rw [shootFrom]
  split
  · exact Cell.get?_emptied _
  · exact Cell.get?_of_isEmpty he

/-- Where only one slot may have changed, and does not fit, no projectiles have been taken. -/
theorem not_consumed (hpos : 0 < amount) {left : Option InventoryItem}
    (hview : (chr'.inventory useInventory).view =
      Function.update (chr.inventory useInventory).view slot left)
    (hunfit : ∀ item, (chr.inventory useInventory).view slot = some item → ¬Fits chr item)
    (hempty : (chr.inventory useInventory).view slot = none → left = none) :
    ¬Consumed chr chr' amount := by
  rintro ⟨i, item, left', hi, hfits, -, hlowered, hview', -⟩
  have hat := congrFun (hview.symm.trans hview') i
  rw [Function.update_self] at hat
  rcases eq_or_ne i slot with rfl | hne
  · exact hunfit item hi hfits
  · rw [Function.update_of_ne hne, hi] at hat
    exact hlowered.ne hpos hat.symm

/-- A shot is right if and only if what it takes from fits the weapon. -/
theorem takesProjectiles_iff (hactive : c.character.activeProjectile ≠ noProjectile) (hpos : 0 < amount) :
    TakesProjectiles c amount ↔ ShotFits c.character amount := by
  have hshoot : shoot c amount = clientUseProjectile c amount := if_pos hpos
  cases hsource : projectileSource c.character amount with
  | none =>
    -- Nothing has enough of anything.
    have hfirst (i : Fin maxItemCount) (hle : c.character.activeProjectile.toNat ≤ i.val)
        (hlt : i.val < (c.character.inventory useInventory).slotCount) :
        ((c.character.inventory useInventory).items i).val.quantity < amount := by
      have hnone := firstFrom_eq_none.1 hsource i hle hlt
      exact Int16.not_le.1 (of_decide_eq_false hnone)
    by_cases hle : c.character.activeProjectile.toNat ≤ (c.character.inventory useInventory).slotCount
    · refine iff_of_true ?_ ⟨hle, fun i hi hlt hq _ => ?_⟩
      · rw [TakesProjectiles, clientUseProjectile]
        simp only [if_neg hactive, hsource, if_pos hle]
        exact ⟨(by simp), fun _ => ⟨rfl, rfl⟩⟩
      · exact absurd (hfirst i hi hlt) (Int16.not_lt.2 hq)
    · refine iff_of_false (fun h => ?_) fun h => hle h.1
      obtain ⟨⟨success, c'⟩, hrun, htakes, htoo⟩ := Exec.returns_iff.1 h
      rw [clientUseProjectile] at hrun
      simp only [if_neg hactive, hsource, if_neg hle] at hrun
      obtain ⟨active, hindex, hrun⟩ := Exec.bind_eq_ok.1 hrun
      cases hrun
      -- The call says that it is a success, and has taken nothing.
      have hview : ((finishShot c c.character active active).character.inventory useInventory).view =
          (c.character.inventory useInventory).view := by
        rw [finishShot]
        split <;> rfl
      obtain ⟨i, item, left, hi, -, -, hlowered, hview', -⟩ := htakes rfl
      have hat := congrFun (hview.symm.trans hview') i
      rw [hi, Function.update_self] at hat
      exact hlowered.ne hpos hat.symm
  | some slot =>
    obtain ⟨⟨hle, hlt, hq⟩, hfirst⟩ := projectileSource_eq_some.1 hsource
    obtain ⟨active, -, -, -, hrun⟩ := shoot_of_some hpos hsource
    rw [hshoot] at hrun
    have hview := view_shot amount hlt c active
    -- The slot is the only one that the condition is about.
    have hcond : ShotFits c.character amount ↔
        ((c.character.inventory useInventory).items slot).isEmpty = false ∧
          Fits c.character ((c.character.inventory useInventory).items slot).val := by
      constructor
      · exact fun h => h.2 slot hle hlt hq hfirst
      · refine fun h => ⟨by omega, fun i hi hilt hiq hifirst => ?_⟩
        obtain rfl : i = slot := by
          rcases lt_trichotomy i.val slot.val with hbefore | heq | hafter
          · exact absurd hiq (Int16.not_le.2 (hfirst i hi hbefore))
          · exact Fin.ext heq
          · exact absurd hq (Int16.not_le.2 (hifirst slot hle hafter))
        exact h
    rw [hcond, TakesProjectiles, hrun]
    change (true = true → Consumed c.character _ amount) ∧ (TooFew c.character amount → true = false ∧ _) ↔ _
    by_cases hfit : ((c.character.inventory useInventory).items slot).isEmpty = false ∧
        Fits c.character ((c.character.inventory useInventory).items slot).val
    · have hat : (c.character.inventory useInventory).view slot =
          some ((c.character.inventory useInventory).items slot).val :=
        Inventory.view_eq_some.2 ⟨hlt, hfit.1, rfl⟩
      refine iff_of_true ⟨fun _ => ?_, fun htoo => ?_⟩ hfit
      · exact ⟨slot, _, _, hat, hfit.2, hq, shootFrom_lowered hpos hfit.1 hq, hview,
          fun k hk => inventory_shot c active hk⟩
      · exact absurd (htoo slot _ hat hfit.2) (Int16.not_lt.2 hq)
    · refine iff_of_false (fun h => not_consumed hpos hview ?_ ?_ (h.1 rfl)) hfit
      · intro item hitem hfits
        obtain ⟨-, he, rfl⟩ := Inventory.view_eq_some.1 hitem
        exact hfit ⟨he, hfits⟩
      · intro hnone
        rw [Inventory.view_of_lt hlt, Cell.get?_eq_none] at hnone
        exact shootFrom_empty hnone

/-! ## Arrows and potions -/

/-- A weapon in the weapon slot. -/
def bow : Character := { (default : Character) with
  equippedEquipment := Function.update (default : Character).equippedEquipment weaponIndex
    (.full { (default : Equipment) with item := { (default : Item) with itemId := 1452002 } }) }

/-- A stack of a use item. -/
def useStack (id : UInt32) (quantity : Int16) : Cell InventoryItem :=
  .full { (default : InventoryItem) with
    item := { (default : Item) with itemId := id }, quantity := quantity }

/-- A bow, five arrows, and a hundred potions behind them. -/
def archer : Client :=
  .new (((bow.setItem useInventory 0 (useStack 2060000 5)).setItem useInventory 1
    (useStack 2000000 100)).setActiveProjectile 0)

instance (chr : Character) (amount : Int16) : Decidable (ShotFits chr amount) :=
  inferInstanceAs (Decidable (_ ∧ _))

/-- Two arrows are shot. -/
theorem takesProjectiles_two : TakesProjectiles archer 2 :=
  (takesProjectiles_iff (by decide) (by decide)).2 (by decide +kernel)

/-- Six arrows are more than there are, and six potions are taken. -/
theorem takesProjectiles_six : ¬TakesProjectiles archer 6 ∧ TooFew archer.character 6 := by
  have htoo : ∀ i, ∀ item ∈ (archer.character.inventory useInventory).view i,
      Fits archer.character item → item.quantity < 6 := by
    decide +kernel
  have hsuccess : (clientUseProjectile archer 6).Returns fun x => x.1 = true := by
    decide +kernel
  refine ⟨fun h => ?_, htoo⟩
  obtain ⟨x, hrun, hx⟩ := Exec.returns_iff.1 hsuccess
  rw [TakesProjectiles, hrun] at h
  have hfalse : x.1 = false := (h.2 htoo).1
  rw [hx] at hfalse
  cases hfalse

end Syrup
