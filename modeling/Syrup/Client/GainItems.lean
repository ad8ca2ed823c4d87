import Syrup.Projectile

/-!
# `client_gain_items`

The function gives a list of items to a character, those with negative counts being
taken away, all or none: it works on copies of the inventories (`Gain`), first
taking away, then giving, and writes them back when it has got through the list.

Every loop over the slots of an inventory is a sweep, whose state is the amount
still to be handled and the changes to be sent to the client.

The changes are collected in an array that grows with `realloc`, the result of which
is not checked; here growing it never fails.
-/

namespace Syrup

open Sweep

/-- What the function works on. -/
structure Gain where
  invs : Fin inventoryCount → Inventory InventoryItem
  equipInv : Inventory Equipment
  activeProjectile : UInt8
  mods : List InventoryModify

/-- Rewrites the slots of an inventory of stacks. -/
def Gain.setInv (g : Gain) (k : Fin inventoryCount) (items : Fin maxItemCount → Cell InventoryItem) :
    Gain :=
  { g with invs := Function.update g.invs k ((g.invs k).withItems items) }

@[simp] theorem Gain.invs_setInv_self (g : Gain) (k : Fin inventoryCount)
    (items : Fin maxItemCount → Cell InventoryItem) :
    (g.setInv k items).invs k = (g.invs k).withItems items :=
  Function.update_self ..

theorem Gain.invs_setInv_of_ne (g : Gain) {k k' : Fin inventoryCount} (h : k' ≠ k)
    (items : Fin maxItemCount → Cell InventoryItem) : (g.setInv k items).invs k' = g.invs k' :=
  Function.update_of_ne h ..

/-- A list of requests: an id and an amount each. -/
abbrev Amounts := List (UInt32 × Int16)

/-! ## Taking away -/

/-- The loop taking away equipment. -/
def takeEquipBody (id : UInt32) (j : Fin maxItemCount) (c : Cell Equipment)
    (s : Int16 × List InventoryModify) :
    Exec (Out (Cell Equipment) (Int16 × List InventoryModify)) :=
  if !c.isEmpty && c.val.item.itemId == id then
    .ok { cell := c.emptied, state := (s.1 + 1, s.2 ++ [.remove 1 (slotNumber j)]),
          stop := s.1 + 1 == 0 }
  else .ok { cell := c, state := s, stop := false }

/-- The loop taking away from stacks. -/
def takeItemBody (id : UInt32) (k : Fin inventoryCount) (j : Fin maxItemCount)
    (c : Cell InventoryItem) (s : Int16 × List InventoryModify) :
    Exec (Out (Cell InventoryItem) (Int16 × List InventoryModify)) :=
  if !c.isEmpty && c.val.item.itemId == id then
    if c.val.quantity.toInt + s.1.toInt > 0 then
      let quantity := c.val.quantity + s.1
      .ok { cell := c.write (c.val.setQuantity quantity),
            state := (0, s.2 ++ [.modify (inventoryNumber k) (slotNumber j) quantity]),
            stop := true }
    else
      let amount := s.1 + c.val.quantity
      .ok { cell := c.emptied,
            state := (amount, s.2 ++ [.remove (inventoryNumber k) (slotNumber j)]),
            stop := amount == 0 }
  else .ok { cell := c, state := s, stop := s.1 == 0 }

/-- One round of the loop taking away: what is left of the amount, or `none` if
    the function returns because there is not enough equipment. -/
def takeOne (id : UInt32) (amount : Int16) (g : Gain) : Exec (Option (Int16 × Gain)) :=
  if amount < 0 then
    if isEquipId id then do
      let (items, amount', mods) ←
        sweep (takeEquipBody id) g.equipInv.slots g.equipInv.items (amount, g.mods)
      if amount' < 0 then return none
      else return some (amount', { g with equipInv := g.equipInv.withItems items, mods })
    else do
      let k ← inventoryOfId id
      let (items, amount', mods) ←
        sweep (takeItemBody id k) (g.invs k).slots (g.invs k).items (amount, g.mods)
      return some (amount', { g.setInv k items with mods })
  else return some (amount, g)

/-- The loop taking away: what is left of the amounts. -/
def takeAll : Amounts → Gain → Exec (Option (Amounts × Gain))
  | [], g => return some ([], g)
  | (id, amount) :: l, g => do
    match ← takeOne id amount g with
    | none => return none
    | some (amount', g') =>
      match ← takeAll l g' with
      | none => return none
      | some (l', g'') => return some ((id, amount') :: l', g'')

/-! ## Giving -/

/-- The loop giving equipment. -/
def giveEquipBody (env : Env) (id : UInt32) (j : Fin maxItemCount) (c : Cell Equipment)
    (s : Int16 × List InventoryModify) :
    Exec (Out (Cell Equipment) (Int16 × List InventoryModify)) :=
  if c.isEmpty then do
    let info ← Exec.deref (env.equipInfo id)
    let equip := equipmentFromInfo info
    return { cell := Cell.full equip,
             state := (s.1 - 1, s.2 ++ [.addEquip 1 (slotNumber j) equip]), stop := s.1 - 1 == 0 }
  else return { cell := c, state := s, stop := false }

/-- The loop filling up existing stacks. -/
def fillBody (env : Env) (id : UInt32) (k : Fin inventoryCount) (j : Fin maxItemCount)
    (c : Cell InventoryItem) (s : Int16 × List InventoryModify) :
    Exec (Out (Cell InventoryItem) (Int16 × List InventoryModify)) :=
  if !c.isEmpty && c.val.item.itemId == id then do
    let info ← Exec.deref (env.itemInfo id)
    let (quantity, amount) :=
      if c.val.quantity.toInt > info.slotMax.toInt - s.1.toInt then
        (info.slotMax, s.1 - (info.slotMax - c.val.quantity))
      else (c.val.quantity + s.1, 0)
    return { cell := c.write (c.val.setQuantity quantity),
             state := (amount, s.2 ++ [.modify (inventoryNumber k) (slotNumber j) quantity]),
             stop := amount == 0 }
  else return { cell := c, state := s, stop := s.1 == 0 }

/-- Filling up existing stacks, which rechargeable items do not do. -/
def fillStacks (env : Env) (id : UInt32) (k : Fin inventoryCount) (inv : Inventory InventoryItem)
    (s : Int16 × List InventoryModify) :
    Exec ((Fin maxItemCount → Cell InventoryItem) × Int16 × List InventoryModify) :=
  if itemIsRechargeable id then .ok (inv.items, s)
  else sweep (fillBody env id k) inv.slots inv.items s

/-- The state of the loop filling up empty slots. -/
structure Fresh where
  amount : Int16
  activeProjectile : UInt8
  mods : List InventoryModify

/-- The stack that is put into an empty slot: the fields of the slot that are not
    written keep what they were. -/
def freshItem (id : UInt32) (quantity : Int16) (old : InventoryItem) : InventoryItem where
  item := { old.item with id := 0, itemId := id, flags := 0, ownerLength := 0, giftFromLength := 0 }
  quantity := quantity

/-- The loop filling up empty slots, with the weapon id `wid`. -/
def freshBody (env : Env) (id : UInt32) (k : Fin inventoryCount) (wid : UInt32)
    (j : Fin maxItemCount) (c : Cell InventoryItem) (s : Fresh) :
    Exec (Out (Cell InventoryItem) Fresh) :=
  if c.isEmpty then do
    let info ← Exec.deref (env.itemInfo id)
    let (quantity, amount) :=
      if s.amount.toInt > info.slotMax.toInt then (info.slotMax, s.amount - info.slotMax)
      else (s.amount, 0)
    let item := freshItem id quantity c.val
    let activeProjectile :=
      if k = useInventory ∧ j.val < s.activeProjectile.toNat ∧ isProjectileId wid id then
        projectileSlot j
      else s.activeProjectile
    let mods := s.mods ++ [.addItem (inventoryNumber k) (slotNumber j) item]
    return { cell := Cell.full item, state := { amount, activeProjectile, mods },
             stop := amount == 0 }
  else return { cell := c, state := s, stop := s.amount == 0 }

/-- One round of the loop giving, or `none` if the function returns because there is
    not enough room. -/
def giveOne (env : Env) (wid id : UInt32) (amount : Int16) (g : Gain) : Exec (Option Gain) :=
  if 0 < amount then
    if isEquipId id then do
      let (items, amount', mods) ←
        sweep (giveEquipBody env id) g.equipInv.slots g.equipInv.items (amount, g.mods)
      if 0 < amount' then return none
      else return some { g with equipInv := g.equipInv.withItems items, mods }
    else do
      let k ← inventoryOfId id
      let (items, amount', mods) ← fillStacks env id k (g.invs k) (amount, g.mods)
      if amount' ≠ 0 then
        let (items, s) ← sweep (freshBody env id k wid) (g.invs k).slots items
          { amount := amount', activeProjectile := g.activeProjectile, mods }
        if 0 < s.amount then return none
        else
          return some { g.setInv k items with
            activeProjectile := s.activeProjectile, mods := s.mods }
      else return some { g.setInv k items with mods }
  else return some g

/-- The loop giving. -/
def giveAll (env : Env) (wid : UInt32) : Amounts → Gain → Exec (Option Gain)
  | [], g => return some g
  | (id, amount) :: l, g => do
    match ← giveOne env wid id amount g with
    | none => return none
    | some g' => giveAll env wid l g'

/-! ## The function -/

/-- The packets with the changes, at most 255 in each; every one of them starts at
    the first change. -/
def sendMods (mods : List InventoryModify) (n : ℕ) (c : Client) : Client :=
  if 255 < n then sendMods mods (n - 255) (c.send (.modifyItems (mods.take 255)))
  else c.send (.modifyItems (mods.take n))
termination_by n

/-- What the function starts to work on. -/
def Gain.ofCharacter (chr : Character) : Gain where
  invs := chr.inventory
  equipInv := chr.equipmentInventory
  activeProjectile := chr.activeProjectile
  mods := []

/-- The character with what the function has worked on written back. -/
def Gain.writeBack (g : Gain) (chr : Character) : Character :=
  { chr with inventory := g.invs, equipmentInventory := g.equipInv,
             activeProjectile := g.activeProjectile }

/-- `client_gain_items`: it returns `false` (`none`), or `true` with `*success`. -/
def clientGainItems (env : Env) (alloc : Bool) (c : Client) (items : Amounts) (reward : Bool) :
    Exec (Option Bool × Client) :=
  if alloc then do
    match ← takeAll items (Gain.ofCharacter c.character) with
    | none => return (some false, c)
    | some (rest, g) =>
      match ← giveAll env c.character.weaponId rest g with
      | none => return (some false, c)
      | some g =>
        if g.mods = [] then .error .assertion
        else
          let c := { c with character := g.writeBack c.character }
          let c := sendMods g.mods g.mods.length c
          let c := if reward then items.foldl (fun c r => c.send (.itemGainInChat r.1 r.2)) c else c
          return (some true, c)
  else return (none, c)

/-! ## What a call does -/

@[simp] theorem character_sendMods (mods : List InventoryModify) (n : ℕ) (c : Client) :
    (sendMods mods n c).character = c.character := by
  induction n using Nat.strong_induction_on generalizing c with
  | _ n ih =>
    rw [sendMods]
    split
    · rw [ih _ (by omega), Client.character_send]
    · rfl

theorem character_foldl_send (items : Amounts) (c : Client) :
    (items.foldl (fun c r => c.send (.itemGainInChat r.1 r.2)) c).character = c.character := by
  induction items generalizing c with
  | nil => rfl
  | cons r items ih => rw [List.foldl_cons, ih, Client.character_send]

/-- What a call that returns has done: nothing, or all of taking away and giving. -/
theorem clientGainItems_cases {env : Env} {alloc reward : Bool} {c c' : Client} {items : Amounts}
    {ret : Option Bool} (h : clientGainItems env alloc c items reward = .ok (ret, c')) :
    (ret ≠ some true ∧ c' = c) ∨
      (ret = some true ∧ ∃ rest g g', takeAll items (Gain.ofCharacter c.character) = .ok (some (rest, g)) ∧
        giveAll env c.character.weaponId rest g = .ok (some g') ∧
        c'.character = g'.writeBack c.character) := by
  rw [clientGainItems] at h
  split at h
  · obtain ⟨o, htake, h⟩ := Exec.bind_eq_ok.1 h
    cases o with
    | none =>
      cases h
      exact .inl ⟨by simp, rfl⟩
    | some o =>
      obtain ⟨rest, g⟩ := o
      obtain ⟨o, hgive, h⟩ := Exec.bind_eq_ok.1 h
      cases o with
      | none =>
        cases h
        exact .inl ⟨by simp, rfl⟩
      | some g' =>
        simp only at h
        split at h
        · cases h
        · cases h
          refine .inr ⟨rfl, rest, g, g', htake, hgive, ?_⟩
          split
          · rw [character_foldl_send, character_sendMods]
          · rw [character_sendMods]
  · cases h
    exact .inl ⟨by simp, rfl⟩

end Syrup
