import Syrup.Client.Save.SamePaths
import Syrup.Lib.Refill

/-!
# What is held, saved and loaded again

What a character wears and carries is saved slot by slot and loaded into emptied slots. Of the slot of
what is worn, nothing is saved: it is derived from the id of the item again; and so is the
inventory of a stack. So everything is in its slot again if and only if it has been in the slot that
its id tells (`loadHoldings_iff`).

The owner, the giver, the expiration and the hands are not kept (`Equipment.kept`), and the flags are
saved in a byte.
-/

namespace Syrup

open Refill

/-! ## What is kept of an item -/

/-- An item without what is not kept of it. -/
def Item.kept (it : Item) : Item :=
  { it with ownerLength := 0, owner := default, expiration := 0, giftFromLength := 0,
            giftFrom := default }

/-- What is kept of a piece of equipment. Whether it is a cash item is not saved, but looked up. -/
def Equipment.kept (e : Equipment) : Equipment :=
  { e with item := e.item.kept, hands := 0, cash := false }

/-- What is kept of a stack. -/
def InventoryItem.kept (it : InventoryItem) : InventoryItem := { it with item := it.item.kept }

/-- What is loaded of a saved piece of equipment, but for what is not kept. -/
def SavedEquipment.kept (s : SavedEquipment) : Equipment := (s.load false default).kept

/-- What is loaded of a saved stack, but for what is not kept. -/
def SavedItem.kept (s : SavedItem) : InventoryItem := (s.load default).kept

/-- The flags fit into a byte. -/
def Item.FlagsFit (it : Item) : Prop := it.flags.toUInt8.toUInt32 = it.flags

theorem SavedEquipment.kept_save_iff (e : Equipment) (old : SavedEquipment) :
    (SavedEquipment.save e old).kept = e.kept ↔ e.item.FlagsFit := by
  rw [Equipment.kept, SavedEquipment.kept, Equipment.kept, Equipment.mk.injEq, Item.kept, Item.kept,
    Item.mk.injEq]
  simp only [SavedEquipment.load, SavedEquipment.save, true_and, and_true]
  rfl

theorem SavedItem.kept_save_iff (slot : UInt8) (it : InventoryItem) (old : SavedItem) :
    (SavedItem.save slot it old).kept = it.kept ↔ it.item.FlagsFit := by
  rw [InventoryItem.kept, SavedItem.kept, InventoryItem.kept, InventoryItem.mk.injEq, Item.kept,
    Item.kept, Item.mk.injEq]
  simp only [SavedItem.load, SavedItem.save, true_and, and_true]
  rfl

namespace Character

variable (chr : Character)

/-- What is kept of what is worn. -/
def keptWorn (i : Fin equipSlotCount) : Option Equipment := (chr.worn i).map Equipment.kept

/-- What is kept of the carried equipment. -/
def keptCarried (i : Fin maxItemCount) : Option Equipment :=
  (chr.equipmentInventory.view i).map Equipment.kept

/-- What is kept of the stacks. -/
def keptStacks (p : Fin inventoryCount × Fin maxItemCount) : Option InventoryItem :=
  ((chr.inventory p.1).view p.2).map InventoryItem.kept

end Character

/-! ## Loading -/

section Places

variable (env : Env)

/-- The slot a saved piece of worn equipment is loaded into. -/
def wornPlace (s : SavedEquipment) : Exec (Option (Fin equipSlotCount)) := do
  let i ← equipIndex (equipSlotFromId s.itemId)
  let _ ← Exec.deref (env.equipInfo s.itemId)
  return some i

/-- The slot a saved piece of carried equipment is loaded into, if it is one of those in use. -/
def carriedPlace (slotCount : ℕ) (s : UInt8 × SavedEquipment) :
    Exec (Option (Fin maxItemCount)) := do
  let i ← itemIndex s.1
  let _ ← Exec.deref (env.equipInfo s.2.itemId)
  return if i.val < slotCount then some i else none

/-- The slot a saved stack is loaded into, if it is one of those in use. -/
def stackPlace (slotCount : Fin inventoryCount → ℕ) (s : SavedItem) :
    Exec (Option (Fin inventoryCount × Fin maxItemCount)) := do
  let k ← inventoryOfId s.itemId
  let i ← itemIndex s.slot
  return if i.val < slotCount k then some (k, i) else none

end Places

variable {env : Env} {chr chr' : Character}

theorem loadWorn_all (env : Env) (l : List SavedEquipment) (chr : Character) :
    Character.keptWorn <$> l.foldlM (loadWorn env) chr =
      refill (wornPlace env) SavedEquipment.kept l chr.keptWorn := by
  refine view_foldlM (P := fun _ => True) (fun chr s _ => ?_) (fun _ _ _ _ _ => trivial) l trivial
  rw [loadWorn, wornPlace]
  cases equipIndex (equipSlotFromId s.itemId) with
  | error e => rfl
  | ok i =>
    cases env.equipInfo s.itemId with
    | none => rfl
    | some info =>
      refine congrArg Except.ok ?_
      funext j
      have hworn : ((chr.setWorn i (.full (s.load info.cash (chr.equippedEquipment i).val))).addBonuses
          (s.load info.cash (chr.equippedEquipment i).val)).worn = Function.update chr.worn i
            (some (s.load info.cash (chr.equippedEquipment i).val)) :=
        Character.worn_of_update (c := .full (s.load info.cash (chr.equippedEquipment i).val)) rfl
      rw [Character.keptWorn, hworn]
      exact Function.apply_update (fun _ o => Option.map Equipment.kept o) chr.worn i _ j

/-- A slot rewritten, if it is one of those in use. -/
theorem map_view_set {α β : Type} (g : α → β) (inv : Inventory α) (i : Fin maxItemCount) (a : α) :
    (fun j => ((inv.set i (.full a)).view j).map g) =
      put (fun j => (inv.view j).map g) (g a) (if i.val < inv.slotCount then some i else none) := by
  split
  · rename_i h
    rw [Inventory.view_set h]
    funext j
    exact Function.apply_update (fun _ o => Option.map g o) inv.view i _ j
  · rename_i h
    funext j
    rw [put, Inventory.view, Inventory.view, Inventory.slotCount_set]
    split
    · rename_i hj
      rw [Inventory.items_set_of_ne fun e : j = i => h (e ▸ hj)]
    · rfl

theorem loadCarried_all (l : List (UInt8 × SavedEquipment)) (chr : Character) :
    Character.keptCarried <$> l.foldlM (loadCarried env) chr =
      refill (carriedPlace env chr.equipmentInventory.slotCount) (fun s => s.2.kept) l
        chr.keptCarried := by
  refine view_foldlM (P := fun c => c.equipmentInventory.slotCount = chr.equipmentInventory.slotCount)
    (fun c s hc => ?_) (fun c s c' hc h => ?_) l rfl
  · rw [loadCarried, carriedPlace, ← hc]
    cases itemIndex s.1 with
    | error e => rfl
    | ok i =>
      cases env.equipInfo s.2.itemId with
      | none => rfl
      | some info => exact congrArg Except.ok (map_view_set Equipment.kept c.equipmentInventory i _)
  · obtain ⟨i, _, h⟩ := Exec.bind_eq_ok.1 h
    obtain ⟨info, _, h⟩ := Exec.bind_eq_ok.1 h
    cases h
    exact hc

theorem loadStack_all (l : List SavedItem) (chr : Character) :
    Character.keptStacks <$> l.foldlM loadStack chr =
      refill (stackPlace fun k => (chr.inventory k).slotCount) SavedItem.kept l chr.keptStacks := by
  refine view_foldlM (P := fun c => ∀ k, (c.inventory k).slotCount = (chr.inventory k).slotCount)
    (fun c s hc => ?_) (fun c s c' hc h k => ?_) l fun _ => rfl
  · rw [loadStack, stackPlace]
    cases inventoryOfId s.itemId with
    | error e => rfl
    | ok k =>
      cases itemIndex s.slot with
      | error e => rfl
      | ok i =>
        refine congrArg Except.ok ?_
        have hset := map_view_set InventoryItem.kept (c.inventory k) i
          (s.load ((c.inventory k).items i).val)
        rw [hc k] at hset
        funext p
        obtain ⟨k', j⟩ := p
        rw [Character.keptStacks]
        rcases eq_or_ne k' k with rfl | hk
        · rw [Character.inventory_setItem_self]
          refine (congrFun hset j).trans ?_
          by_cases hi : i.val < (chr.inventory k').slotCount
          · rw [if_pos hi, if_pos hi]
            rcases eq_or_ne j i with rfl | hj
            · exact (put_self ..).trans (put_self c.keptStacks _ (k', j)).symm
            · have hne : (k', j) ≠ (k', i) := fun e => hj (Prod.mk.inj e).2
              exact (put_of_ne _ _ hj).trans (put_of_ne c.keptStacks _ hne).symm
          · rw [if_neg hi, if_neg hi]
            rfl
        · rw [Character.inventory_setItem_of_ne hk]
          by_cases hi : i.val < (chr.inventory k).slotCount
          · rw [if_pos hi]
            have hne : (k', j) ≠ (k, i) := fun e => hk (Prod.mk.inj e).1
            exact (put_of_ne c.keptStacks _ hne).symm
          · rw [if_neg hi]
            rfl
  · obtain ⟨k', _, h⟩ := Exec.bind_eq_ok.1 h
    obtain ⟨i, _, h⟩ := Exec.bind_eq_ok.1 h
    cases h
    rcases eq_or_ne k k' with rfl | hk
    · rw [Character.inventory_setItem_self]
      exact hc k
    · rw [Character.inventory_setItem_of_ne hk]
      exact hc k

/-! ## The login -/

theorem loadWorn_frame {l : List SavedEquipment} (h : l.foldlM (loadWorn env) chr = .ok chr') :
    chr'.equipmentInventory = chr.equipmentInventory ∧ chr'.inventory = chr.inventory := by
  refine Exec.foldlM_invariant (P := fun c => c.equipmentInventory = chr.equipmentInventory ∧
    c.inventory = chr.inventory) h (fun s _ c c' hc h => ?_) ⟨rfl, rfl⟩
  obtain ⟨i, _, h⟩ := Exec.bind_eq_ok.1 h
  obtain ⟨info, _, h⟩ := Exec.bind_eq_ok.1 h
  cases h
  exact hc

theorem loadCarried_frame {l : List (UInt8 × SavedEquipment)}
    (h : l.foldlM (loadCarried env) chr = .ok chr') :
    chr'.equippedEquipment = chr.equippedEquipment ∧ chr'.inventory = chr.inventory := by
  refine Exec.foldlM_invariant (P := fun c => c.equippedEquipment = chr.equippedEquipment ∧
    c.inventory = chr.inventory) h (fun s _ c c' hc h => ?_) ⟨rfl, rfl⟩
  obtain ⟨i, _, h⟩ := Exec.bind_eq_ok.1 h
  obtain ⟨info, _, h⟩ := Exec.bind_eq_ok.1 h
  cases h
  exact hc

theorem loadStack_frame {l : List SavedItem} (h : l.foldlM loadStack chr = .ok chr') :
    chr'.equippedEquipment = chr.equippedEquipment ∧
      chr'.equipmentInventory = chr.equipmentInventory := by
  refine Exec.foldlM_invariant (P := fun c => c.equippedEquipment = chr.equippedEquipment ∧
    c.equipmentInventory = chr.equipmentInventory) h (fun s _ c c' hc h => ?_) ⟨rfl, rfl⟩
  obtain ⟨k, _, h⟩ := Exec.bind_eq_ok.1 h
  obtain ⟨i, _, h⟩ := Exec.bind_eq_ok.1 h
  cases h
  exact hc

/-- The slots of stacks that are in use after a login. -/
def loadedSlots (s : SavedCharacter) : Fin inventoryCount → ℕ :=
  ![s.useSlots.toNat, s.setupSlots.toNat, s.etcSlots.toNat, 252]

/-- The saved slots are those of an inventory. -/
structure SlotsFit (s : SavedCharacter) : Prop where
  equip : s.equipSlots.toNat ≤ maxItemCount
  use : s.useSlots.toNat ≤ maxItemCount
  setup : s.setupSlots.toNat ≤ maxItemCount
  etc : s.etcSlots.toNat ≤ maxItemCount

theorem Inventory.reset_eq {α : Type} {slotCount : UInt8} (h : slotCount.toNat ≤ maxItemCount)
    (inv : Inventory α) : ∃ inv', inv.reset slotCount = .ok inv' ∧
      inv'.slotCount = slotCount.toNat ∧ inv'.view = fun _ => none := by
  refine ⟨_, dif_pos h, rfl, ?_⟩
  funext i
  rw [Inventory.view]
  split
  · rename_i hi
    change Cell.get? (if i.val < slotCount.toNat then (inv.items i).emptied else inv.items i) = none
    rw [if_pos hi, Cell.get?_emptied]
  · rfl

/-- The login empties all slots, and fills them in three loops. -/
theorem loadHoldings_eq (env : Env) {s : SavedCharacter} (hs : SlotsFit s) (old : Character) :
    ∃ chr : Character, loadHoldings env s old = (do
        let chr ← s.equippedEquipment.foldlM (loadWorn env) chr
        let chr ← s.equipmentInventory.foldlM (loadCarried env) chr
        let chr ← s.inventoryItems.foldlM loadStack chr
        return loadProjectile chr) ∧
      chr.keptWorn = (fun _ => none) ∧ chr.keptCarried = (fun _ => none) ∧
      chr.keptStacks = (fun _ => none) ∧
      chr.equipmentInventory.slotCount = s.equipSlots.toNat ∧
      (fun k => (chr.inventory k).slotCount) = loadedSlots s := by
  obtain ⟨equip, he, hec, hev⟩ := old.equipmentInventory.reset_eq hs.equip
  obtain ⟨use, h₀, hc₀, hv₀⟩ := (old.inventory 0).reset_eq hs.use
  obtain ⟨setup, h₁, hc₁, hv₁⟩ := (old.inventory 1).reset_eq hs.setup
  obtain ⟨etc, h₂, hc₂, hv₂⟩ := (old.inventory 2).reset_eq hs.etc
  have hcash : (252 : UInt8).toNat ≤ maxItemCount := by decide
  obtain ⟨cash, h₃, hc₃, hv₃⟩ := (old.inventory 3).reset_eq hcash
  refine ⟨(((((loadStats s old).setEquipmentInventory equip).setInventory 0 use).setInventory 1
    setup).setInventory 2 etc).setInventory 3 cash, ?_, ?_, ?_, ?_, ?_, ?_⟩
  · rw [loadHoldings, he, h₀, h₁, h₂, h₃]
    rfl
  · rfl
  · funext i
    exact congrArg (Option.map Equipment.kept) (congrFun hev i)
  · funext ⟨k, i⟩
    rw [Character.keptStacks]
    have hv : ((((((loadStats s old).setEquipmentInventory equip).setInventory 0 use).setInventory 1
        setup).setInventory 2 etc).setInventory 3 cash |>.inventory k).view i = none := by
      match k with
      | 0 => exact congrFun hv₀ i
      | 1 => exact congrFun hv₁ i
      | 2 => exact congrFun hv₂ i
      | 3 => exact congrFun hv₃ i
    rw [hv]
    rfl
  · exact hec
  · funext k
    match k with
    | 0 => exact hc₀
    | 1 => exact hc₁
    | 2 => exact hc₂
    | 3 => exact hc₃

theorem loadProjectile_kept (chr : Character) : (loadProjectile chr).keptWorn = chr.keptWorn ∧
    (loadProjectile chr).keptCarried = chr.keptCarried ∧
    (loadProjectile chr).keptStacks = chr.keptStacks := by
  rw [loadProjectile]
  split
  · exact ⟨rfl, rfl, rfl⟩
  · exact ⟨rfl, rfl, rfl⟩

theorem keptWorn_congr (h : chr'.equippedEquipment = chr.equippedEquipment) :
    chr'.keptWorn = chr.keptWorn := by
  funext i
  rw [Character.keptWorn, Character.keptWorn, Character.worn_congr h]

theorem keptCarried_congr (h : chr'.equipmentInventory = chr.equipmentInventory) :
    chr'.keptCarried = chr.keptCarried := by
  funext i
  rw [Character.keptCarried, Character.keptCarried, h]

theorem keptStacks_congr (h : chr'.inventory = chr.inventory) :
    chr'.keptStacks = chr.keptStacks := by
  funext p
  rw [Character.keptStacks, Character.keptStacks, h]

/-- What is held after a login is what the three loops refill. -/
theorem loadHoldings_refill {s : SavedCharacter} (hs : SlotsFit s) (old : Character)
    {w : Fin equipSlotCount → Option Equipment} {c : Fin maxItemCount → Option Equipment}
    {t : Fin inventoryCount × Fin maxItemCount → Option InventoryItem} :
    (∃ chr', loadHoldings env s old = .ok chr' ∧ chr'.keptWorn = w ∧ chr'.keptCarried = c ∧
        chr'.keptStacks = t) ↔
      refill (wornPlace env) SavedEquipment.kept s.equippedEquipment (fun _ => none) = .ok w ∧
      refill (carriedPlace env s.equipSlots.toNat) (fun s => s.2.kept) s.equipmentInventory
        (fun _ => none) = .ok c ∧
      refill (stackPlace (loadedSlots s)) SavedItem.kept s.inventoryItems (fun _ => none) = .ok t := by
  obtain ⟨chr, heq, hw, hc, ht, hslots, hslots'⟩ := loadHoldings_eq env hs old
  have hworn := loadWorn_all env s.equippedEquipment chr
  rw [hw] at hworn
  -- The loops do not touch what the others fill.
  have hcarried {chr₁} (h₁ : s.equippedEquipment.foldlM (loadWorn env) chr = .ok chr₁) :
      Character.keptCarried <$> s.equipmentInventory.foldlM (loadCarried env) chr₁ =
        refill (carriedPlace env s.equipSlots.toNat) (fun s => s.2.kept) s.equipmentInventory
          (fun _ => none) := by
    rw [loadCarried_all, keptCarried_congr (loadWorn_frame h₁).1, hc, (loadWorn_frame h₁).1, hslots]
  have hstacks {chr₁ chr₂} (h₁ : s.equippedEquipment.foldlM (loadWorn env) chr = .ok chr₁)
      (h₂ : s.equipmentInventory.foldlM (loadCarried env) chr₁ = .ok chr₂) :
      Character.keptStacks <$> s.inventoryItems.foldlM loadStack chr₂ =
        refill (stackPlace (loadedSlots s)) SavedItem.kept s.inventoryItems (fun _ => none) := by
    have hinv := (loadCarried_frame h₂).2.trans (loadWorn_frame h₁).2
    rw [loadStack_all, keptStacks_congr hinv, ht, hinv, hslots']
  rw [heq]
  constructor
  · rintro ⟨chr', h, rfl, rfl, rfl⟩
    obtain ⟨chr₁, h₁, h⟩ := Exec.bind_eq_ok.1 h
    obtain ⟨chr₂, h₂, h⟩ := Exec.bind_eq_ok.1 h
    obtain ⟨chr₃, h₃, h⟩ := Exec.bind_eq_ok.1 h
    cases h
    obtain ⟨hp, hp', hp''⟩ := loadProjectile_kept chr₃
    rw [hp, hp', hp'', ← hworn, ← hcarried h₁, ← hstacks h₁ h₂, h₁, h₂, h₃]
    rw [keptWorn_congr ((loadStack_frame h₃).1.trans (loadCarried_frame h₂).1),
      keptCarried_congr (loadStack_frame h₃).2]
    exact ⟨rfl, rfl, rfl⟩
  · rintro ⟨hw', hc', ht'⟩
    rw [← hworn] at hw'
    obtain ⟨chr₁, h₁, rfl⟩ := Exec.map_eq_ok.1 hw'
    rw [← hcarried h₁] at hc'
    obtain ⟨chr₂, h₂, rfl⟩ := Exec.map_eq_ok.1 hc'
    rw [← hstacks h₁ h₂] at ht'
    obtain ⟨chr₃, h₃, rfl⟩ := Exec.map_eq_ok.1 ht'
    obtain ⟨hp, hp', hp''⟩ := loadProjectile_kept chr₃
    refine ⟨loadProjectile chr₃, ?_, ?_, ?_, hp''⟩
    · exact Exec.bind_eq_ok.2 ⟨chr₁, h₁, Exec.bind_eq_ok.2 ⟨chr₂, h₂,
        Exec.bind_eq_ok.2 ⟨chr₃, h₃, rfl⟩⟩⟩
    · rw [hp, keptWorn_congr ((loadStack_frame h₃).1.trans (loadCarried_frame h₂).1)]
    · rw [hp', keptCarried_congr (loadStack_frame h₃).2]

/-! ## The round trip -/

/-- What is held has been saved. -/
structure HoldingsSaved (chr : Character) (s : SavedCharacter) : Prop where
  equipSlots : s.equipSlots = UInt8.ofNat chr.equipmentInventory.slotCount
  useSlots : s.useSlots = UInt8.ofNat (chr.inventory 0).slotCount
  setupSlots : s.setupSlots = UInt8.ofNat (chr.inventory 1).slotCount
  etcSlots : s.etcSlots = UInt8.ofNat (chr.inventory 2).slotCount
  worn : s.equippedEquipment = chr.savedWorn Memory.zero.equippedEquipment
  carried : s.equipmentInventory = chr.savedCarried Memory.zero.equipmentInventory
  items : s.inventoryItems = chr.savedItems Memory.zero.inventoryItems

/-- What is worn and carried is in the slots that its ids tell. -/
structure HoldingsSurvive (env : Env) (chr : Character) : Prop where
  worn : ∀ i e, chr.worn i = some e → equipIndex (equipSlotFromId e.item.itemId) = .ok i ∧
    (env.equipInfo e.item.itemId).isSome ∧ e.item.FlagsFit
  carried : ∀ i e, chr.equipmentInventory.view i = some e →
    (env.equipInfo e.item.itemId).isSome ∧ e.item.FlagsFit
  items : ∀ k i it, (chr.inventory k).view i = some it →
    inventoryOfId it.item.itemId = .ok k ∧ it.item.FlagsFit

theorem slotByte_toNat {n : ℕ} (h : n ≤ maxItemCount) : (UInt8.ofNat n).toNat = n := by
  exact UInt8.toNat_ofNat_of_lt (h.trans_lt (by decide))

theorem itemIndex_slotByte (i : Fin maxItemCount) : itemIndex (slotByte i) = .ok i := by
  have hi : (slotByte i).toNat = i.val := slotByte_toNat i.isLt.le
  rw [itemIndex, dif_pos (by rw [hi]; exact i.isLt)]
  exact congrArg Except.ok (Fin.ext hi)

theorem HoldingsSaved.slotsFit {s : SavedCharacter} (h : HoldingsSaved chr s) : SlotsFit s := by
  refine ⟨?_, ?_, ?_, ?_⟩
  · rw [h.equipSlots, slotByte_toNat chr.equipmentInventory.slotCount_le]
    exact chr.equipmentInventory.slotCount_le
  · rw [h.useSlots, slotByte_toNat (chr.inventory 0).slotCount_le]
    exact (chr.inventory 0).slotCount_le
  · rw [h.setupSlots, slotByte_toNat (chr.inventory 1).slotCount_le]
    exact (chr.inventory 1).slotCount_le
  · rw [h.etcSlots, slotByte_toNat (chr.inventory 2).slotCount_le]
    exact (chr.inventory 2).slotCount_le

/-- Every slot that was in use is in use again. -/
theorem HoldingsSaved.slotCount_le {s : SavedCharacter} (h : HoldingsSaved chr s)
    (k : Fin inventoryCount) : (chr.inventory k).slotCount ≤ loadedSlots s k := by
  match k with
  | 0 => exact (h.useSlots ▸ slotByte_toNat (chr.inventory 0).slotCount_le).ge
  | 1 => exact (h.setupSlots ▸ slotByte_toNat (chr.inventory 1).slotCount_le).ge
  | 2 => exact (h.etcSlots ▸ slotByte_toNat (chr.inventory 2).slotCount_le).ge
  | 3 => exact (chr.inventory 3).slotCount_le

theorem mapIdx_const {α β : Type} (f : α → β) (l : List α) :
    (l.mapIdx fun _ a => f a) = l.map f :=
  List.ext_getElem (by simp) fun n _ _ => by simp

theorem keptWorn_eq_some {i : Fin equipSlotCount} {e : Equipment} :
    chr.keptWorn i = some e ↔ ∃ e', chr.worn i = some e' ∧ e'.kept = e := Option.map_eq_some_iff

theorem wornPlace_eq_ok {s : SavedEquipment} {i : Fin equipSlotCount} :
    wornPlace env s = .ok (some i) ↔
      equipIndex (equipSlotFromId s.itemId) = .ok i ∧ (env.equipInfo s.itemId).isSome := by
  rw [wornPlace]
  constructor
  · intro h
    obtain ⟨j, hj, h⟩ := Exec.bind_eq_ok.1 h
    obtain ⟨info, hinfo, h⟩ := Exec.bind_eq_ok.1 h
    cases h
    rw [Exec.deref_eq_ok] at hinfo
    exact ⟨hj, by rw [hinfo]; rfl⟩
  · rintro ⟨hi, hinfo⟩
    obtain ⟨info, hinfo⟩ := Option.isSome_iff_exists.1 hinfo
    exact Exec.bind_eq_ok.2 ⟨i, hi, Exec.bind_eq_ok.2 ⟨info, Exec.deref_eq_ok.2 hinfo, rfl⟩⟩

theorem worn_reload_iff :
    refill (wornPlace env) SavedEquipment.kept (chr.savedWorn Memory.zero.equippedEquipment)
        (fun _ => none) = .ok chr.keptWorn ↔
      ∀ i e, chr.worn i = some e → equipIndex (equipSlotFromId e.item.itemId) = .ok i ∧
        (env.equipInfo e.item.itemId).isSome ∧ e.item.FlagsFit := by
  have hlist : chr.savedWorn Memory.zero.equippedEquipment =
      chr.wornPlaces.map fun i => .save (chr.equippedEquipment i).val default :=
    mapIdx_const (fun i => SavedEquipment.save (chr.equippedEquipment i).val default) chr.wornPlaces
  have hval {i : Fin equipSlotCount} {e : Equipment} (h : chr.worn i = some e) :
      (chr.equippedEquipment i).val = e := (Cell.get?_eq_some.1 h).2
  have hW (i : Fin equipSlotCount) : i ∈ chr.wornPlaces ↔ (chr.keptWorn i).isSome := by
    rw [Character.wornPlaces, List.mem_filter, and_iff_right (List.mem_finRange i),
      Character.keptWorn, Option.isSome_map, Character.worn, Cell.get?]
    cases (chr.equippedEquipment i).isEmpty <;> simp
  rw [hlist, refill_eq_iff hW fun i j hp hj => ?_]
  · constructor
    · intro h i e he
      obtain ⟨hp, hk⟩ := h i _ (keptWorn_eq_some.2 ⟨e, he, rfl⟩)
      obtain ⟨hi, hinfo⟩ := wornPlace_eq_ok.1 hp
      rw [← hval he]
      rw [← hval he, SavedEquipment.kept_save_iff] at hk
      exact ⟨hi, hinfo, hk⟩
    · intro h i b hb
      obtain ⟨e, he, rfl⟩ := keptWorn_eq_some.1 hb
      obtain ⟨hi, hinfo, hflags⟩ := h i e he
      rw [hval he]
      exact ⟨wornPlace_eq_ok.2 ⟨hi, hinfo⟩, (SavedEquipment.kept_save_iff _ _).2 hflags⟩
  · -- The place depends on the id of the item only.
    obtain ⟨e, he, hkept⟩ := keptWorn_eq_some.1 hj
    have hid : (chr.equippedEquipment j).val.item.itemId =
        (chr.equippedEquipment i).val.item.itemId := by
      rw [hval he]
      have hsame : e.kept.item.itemId =
          (SavedEquipment.save (chr.equippedEquipment i).val default).kept.item.itemId := by
        rw [hkept]
      exact hsame
    rw [wornPlace_eq_ok] at hp ⊢
    change equipIndex (equipSlotFromId (chr.equippedEquipment j).val.item.itemId) = _ ∧
      (env.equipInfo (chr.equippedEquipment j).val.item.itemId).isSome
    rw [hid]
    exact hp

theorem carriedPlace_eq_ok {n : ℕ} {e : UInt8 × SavedEquipment} {i j : Fin maxItemCount}
    (hslot : itemIndex e.1 = .ok i) :
    carriedPlace env n e = .ok (some j) ↔
      i = j ∧ j.val < n ∧ (env.equipInfo e.2.itemId).isSome := by
  rw [carriedPlace, hslot]
  cases env.equipInfo e.2.itemId with
  | none => exact iff_of_false nofun fun h => nomatch h.2.2
  | some info =>
    change Except.ok (if i.val < n then some i else none) = Except.ok (some j) ↔ _
    rw [Except.ok.injEq, Option.ite_none_right_eq_some, Option.some.injEq]
    constructor
    · rintro ⟨hi, rfl⟩
      exact ⟨rfl, hi, rfl⟩
    · rintro ⟨rfl, hi, _⟩
      exact ⟨hi, rfl⟩

theorem carried_reload_iff {n : ℕ} (hn : n = chr.equipmentInventory.slotCount) :
    refill (carriedPlace env n) (fun s => s.2.kept)
        (chr.savedCarried Memory.zero.equipmentInventory) (fun _ => none) = .ok chr.keptCarried ↔
      ∀ i e, chr.equipmentInventory.view i = some e →
        (env.equipInfo e.item.itemId).isSome ∧ e.item.FlagsFit := by
  have hlist : chr.savedCarried Memory.zero.equipmentInventory = chr.carriedPlaces.map fun i =>
      (slotByte i, SavedEquipment.save (chr.equipmentInventory.items i).val default) :=
    mapIdx_const (fun i => (slotByte i, SavedEquipment.save (chr.equipmentInventory.items i).val
      default)) chr.carriedPlaces
  have hW (i : Fin maxItemCount) : i ∈ chr.carriedPlaces ↔ (chr.keptCarried i).isSome := by
    rw [Character.carriedPlaces, List.mem_filter, Inventory.mem_slots, Character.keptCarried,
      Option.isSome_map, Inventory.view]
    split
    · rename_i hi
      rw [and_iff_right hi, Cell.get?]
      cases (chr.equipmentInventory.items i).isEmpty <;> simp
    · rename_i hi
      exact iff_of_false (fun h => hi h.1) (by simp)
  rw [hlist, refill_eq_iff hW fun i j hp _ => ?_]
  · constructor
    · intro h i e he
      have hval := (Inventory.view_eq_some.1 he).2.2
      obtain ⟨hp, hk⟩ := h i e.kept (Option.map_eq_some_iff.2 ⟨e, he, rfl⟩)
      obtain ⟨-, -, hinfo⟩ := (carriedPlace_eq_ok (itemIndex_slotByte i)).1 hp
      rw [← hval]
      rw [← hval, SavedEquipment.kept_save_iff] at hk
      exact ⟨hinfo, hk⟩
    · intro h i b hb
      obtain ⟨e, he, rfl⟩ := Option.map_eq_some_iff.1 hb
      obtain ⟨hlt, _, hval⟩ := Inventory.view_eq_some.1 he
      obtain ⟨hinfo, hflags⟩ := h i e he
      rw [hval]
      exact ⟨(carriedPlace_eq_ok (itemIndex_slotByte i)).2 ⟨rfl, hn ▸ hlt, hinfo⟩,
        (SavedEquipment.kept_save_iff _ _).2 hflags⟩
  · obtain ⟨rfl, -⟩ := (carriedPlace_eq_ok (itemIndex_slotByte i)).1 hp
    exact hp

theorem stackPlace_eq_ok {n : Fin inventoryCount → ℕ} {s : SavedItem} {i : Fin maxItemCount}
    {q : Fin inventoryCount × Fin maxItemCount} (hslot : itemIndex s.slot = .ok i) :
    stackPlace n s = .ok (some q) ↔
      inventoryOfId s.itemId = .ok q.1 ∧ i = q.2 ∧ i.val < n q.1 := by
  rw [stackPlace]
  cases inventoryOfId s.itemId with
  | error e => exact iff_of_false nofun fun h => nomatch h.1
  | ok k =>
    rw [hslot]
    change Except.ok (if i.val < n k then some (k, i) else none) = Except.ok (some q) ↔ _
    rw [Except.ok.injEq, Option.ite_none_right_eq_some, Option.some.injEq, Except.ok.injEq]
    constructor
    · rintro ⟨hi, rfl⟩
      exact ⟨rfl, rfl, hi⟩
    · rintro ⟨rfl, rfl, hi⟩
      exact ⟨hi, rfl⟩

theorem stacks_reload_iff {n : Fin inventoryCount → ℕ} (hn : ∀ k, (chr.inventory k).slotCount ≤ n k) :
    refill (stackPlace n) SavedItem.kept (chr.savedItems Memory.zero.inventoryItems)
        (fun _ => none) = .ok chr.keptStacks ↔
      ∀ k i it, (chr.inventory k).view i = some it →
        inventoryOfId it.item.itemId = .ok k ∧ it.item.FlagsFit := by
  have hlist : chr.savedItems Memory.zero.inventoryItems = chr.filledPlaces.map fun p =>
      SavedItem.save (slotByte p.2) (chr.itemAt p).val default :=
    mapIdx_const (fun p : Fin inventoryCount × Fin maxItemCount =>
      SavedItem.save (slotByte p.2) (chr.itemAt p).val default) chr.filledPlaces
  have hW (p : Fin inventoryCount × Fin maxItemCount) :
      p ∈ chr.filledPlaces ↔ (chr.keptStacks p).isSome := by
    obtain ⟨k, i⟩ := p
    have hplaces : (k, i) ∈ chr.itemPlaces ↔ i.val < (chr.inventory k).slotCount := by
      rw [Character.itemPlaces, List.mem_flatMap]
      constructor
      · rintro ⟨k', -, h⟩
        obtain ⟨i', hi', heq⟩ := List.mem_map.1 h
        cases heq
        exact Inventory.mem_slots.1 hi'
      · intro hi
        exact ⟨k, List.mem_finRange k, List.mem_map.2 ⟨i, Inventory.mem_slots.2 hi, rfl⟩⟩
    rw [Character.filledPlaces, List.mem_filter, hplaces, Character.keptStacks, Option.isSome_map,
      Inventory.view, Character.itemAt]
    split
    · rename_i hi
      rw [and_iff_right hi, Cell.get?]
      cases ((chr.inventory k).items i).isEmpty <;> simp
    · rename_i hi
      exact iff_of_false (fun h => hi h.1) (by simp)
  have hslot (p : Fin inventoryCount × Fin maxItemCount) :
      itemIndex (SavedItem.save (slotByte p.2) (chr.itemAt p).val default).slot = .ok p.2 :=
    itemIndex_slotByte p.2
  rw [hlist, refill_eq_iff hW fun p q hp hq => ?_]
  · constructor
    · intro h k i it hit
      have hval : (chr.itemAt (k, i)).val = it := (Inventory.view_eq_some.1 hit).2.2
      obtain ⟨hp, hk⟩ := h (k, i) it.kept (Option.map_eq_some_iff.2 ⟨it, hit, rfl⟩)
      obtain ⟨hinv, -, -⟩ := (stackPlace_eq_ok (hslot (k, i))).1 hp
      rw [← hval]
      rw [← hval, SavedItem.kept_save_iff] at hk
      exact ⟨hinv, hk⟩
    · rintro h ⟨k, i⟩ b hb
      obtain ⟨it, hit, rfl⟩ := Option.map_eq_some_iff.1 hb
      obtain ⟨hlt, _, hval⟩ := Inventory.view_eq_some.1 hit
      obtain ⟨hinv, hflags⟩ := h k i it hit
      have hval' : (chr.itemAt (k, i)).val = it := hval
      rw [hval']
      exact ⟨(stackPlace_eq_ok (itemIndex_slotByte i)).2 ⟨hinv, rfl, hlt.trans_le (hn k)⟩,
        (SavedItem.kept_save_iff _ _ _).2 hflags⟩
  · -- The stack in the slot that is told is one of the same item.
    obtain ⟨it, hit, hkept⟩ := Option.map_eq_some_iff.1 hq
    obtain ⟨hinv, hi, hlt⟩ := (stackPlace_eq_ok (hslot p)).1 hp
    have hsame : it.kept.item.itemId =
        (SavedItem.save (slotByte p.2) (chr.itemAt p).val default).kept.item.itemId := by rw [hkept]
    have hval : (chr.itemAt q).val = it := (Inventory.view_eq_some.1 hit).2.2
    refine (stackPlace_eq_ok (hslot q)).2 ⟨?_, rfl, ?_⟩
    · change inventoryOfId (chr.itemAt q).val.item.itemId = _
      rw [hval]
      exact (congrArg inventoryOfId hsame).trans hinv
    · rw [← hi]
      exact hlt

/-- What is held is held again, in the same slots, after it has been saved and loaded, if and only if
    it has been in the slots that its ids tell, and its flags fit into a byte. -/
theorem loadHoldings_iff {s : SavedCharacter} (hs : HoldingsSaved chr s) (old : Character) :
    (∃ chr', loadHoldings env s old = .ok chr' ∧ chr'.keptWorn = chr.keptWorn ∧
        chr'.keptCarried = chr.keptCarried ∧ chr'.keptStacks = chr.keptStacks) ↔
      HoldingsSurvive env chr := by
  have hequip : s.equipSlots.toNat = chr.equipmentInventory.slotCount := by
    rw [hs.equipSlots, slotByte_toNat chr.equipmentInventory.slotCount_le]
  rw [loadHoldings_refill hs.slotsFit, hs.worn, hs.carried, hs.items, worn_reload_iff,
    carried_reload_iff hequip, stacks_reload_iff hs.slotCount_le]
  exact ⟨fun ⟨hw, hc, hi⟩ => ⟨hw, hc, hi⟩, fun ⟨hw, hc, hi⟩ => ⟨hw, hc, hi⟩⟩

end Syrup
