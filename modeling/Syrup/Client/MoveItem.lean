import Syrup.Projectile

/-!
# `client_move_item`

The function moves what is in a slot of an inventory to another slot of it. If there is
something there already, the two are exchanged, but that stacks of one item are put
together as far as a slot takes them. The two slots may be the same.

The six cases have a function each, which gives the character and the changes to
be sent to the client.
-/

namespace Syrup

/-- The change of an inventory by moving a slot. -/
def moveMod (inventory : UInt8) (src dst : Fin maxItemCount) : InventoryModify :=
  .move inventory (slotNumber src) (slotNumber dst)

/-- `activeProjectile` after a stack has been moved to an empty slot of the use
    inventory. -/
def activeAfterMove (chr : Character) (src dst : Fin maxItemCount) : UInt8 :=
  if src.val = chr.activeProjectile.toNat then
    if dst.val < src.val then projectileSlot dst else rescan chr chr.weaponId (src.val + 1)
  else if dst.val < chr.activeProjectile.toNat ∧
      isProjectile chr.weaponId ((chr.inventory useInventory).items dst).val then
    projectileSlot dst
  else chr.activeProjectile

/-- The destination is empty. -/
def moveToEmpty (chr : Character) (k : Fin inventoryCount) (src dst : Fin maxItemCount) :
    Character × List InventoryModify :=
  let chr := chr.setInventory k ((chr.inventory k).moveCell src dst)
  let chr := if k = useInventory then chr.setActiveProjectile (activeAfterMove chr src dst) else chr
  (chr, [moveMod (inventoryNumber k) src dst])

/-- The destination is full with the same item. -/
def moveToFull (chr : Character) (k : Fin inventoryCount) (src dst : Fin maxItemCount) :
    Character × List InventoryModify :=
  (chr.setInventory k ((chr.inventory k).swapVals src dst), [moveMod (inventoryNumber k) src dst])

/-- The inventory with another quantity in a slot. -/
def Inventory.setQuantity (inv : Inventory InventoryItem) (i : Fin maxItemCount) (q : Int16) :
    Inventory InventoryItem :=
  inv.set i ((inv.items i).write ((inv.items i).val.setQuantity q))

/-- The quantity in a slot. -/
def Inventory.quantity (inv : Inventory InventoryItem) (i : Fin maxItemCount) : Int16 :=
  (inv.items i).val.quantity

/-- The inventory with all of a stack put on another one. -/
def Inventory.mergeAll (inv : Inventory InventoryItem) (src dst : Fin maxItemCount) :
    Inventory InventoryItem :=
  let inv := inv.setQuantity dst (inv.quantity dst + inv.quantity src)
  inv.set src (inv.items src).emptied

/-- The inventory with an amount of a stack put on another one. -/
def Inventory.mergeSome (inv : Inventory InventoryItem) (src dst : Fin maxItemCount)
    (amount : Int16) : Inventory InventoryItem :=
  let inv := inv.setQuantity dst (inv.quantity dst + amount)
  inv.setQuantity src (inv.quantity src - amount)

/-- The destination takes all of the source. -/
def moveAllOnto (chr : Character) (k : Fin inventoryCount) (src dst : Fin maxItemCount) :
    Character × List InventoryModify :=
  let chr := chr.setInventory k ((chr.inventory k).mergeAll src dst)
  let chr :=
    if k = useInventory ∧ src.val < dst.val ∧ src.val = chr.activeProjectile.toNat then
      chr.setActiveProjectile (rescan chr chr.weaponId (src.val + 1))
    else chr
  (chr, [.remove (inventoryNumber k) (slotNumber src),
    .modify (inventoryNumber k) (slotNumber dst) ((chr.inventory k).quantity dst)])

/-- The destination takes a part of the source. -/
def moveSomeOnto (chr : Character) (k : Fin inventoryCount) (src dst : Fin maxItemCount)
    (amount : Int16) : Character × List InventoryModify :=
  let chr := chr.setInventory k ((chr.inventory k).mergeSome src dst amount)
  (chr, [.modify (inventoryNumber k) (slotNumber src) ((chr.inventory k).quantity src),
    .modify (inventoryNumber k) (slotNumber dst) ((chr.inventory k).quantity dst)])

/-- The destination has the same item. -/
def moveOnto (info : ItemInfo) (chr : Character) (k : Fin inventoryCount)
    (src dst : Fin maxItemCount) : Character × List InventoryModify :=
  if (chr.inventory k).quantity dst = info.slotMax then moveToFull chr k src dst
  else
    let amount := info.slotMax - (chr.inventory k).quantity dst
    if (chr.inventory k).quantity src < amount then moveAllOnto chr k src dst
    else moveSomeOnto chr k src dst amount

/-- `activeProjectile` after two stacks of the use inventory have been exchanged, the
    first of them in the slot `lo`, the second in the slot `hi`. -/
def activeAfterSwap (chr : Character) (lo hi : Fin maxItemCount) : UInt8 :=
  if lo.val ≤ chr.activeProjectile.toNat ∧ chr.activeProjectile.toNat ≤ hi.val then
    if chr.activeProjectile.toNat = lo.val then rescan chr chr.weaponId lo.val
    else if chr.activeProjectile.toNat = hi.val then projectileSlot lo
    else if isProjectile chr.weaponId ((chr.inventory useInventory).items lo).val then
      projectileSlot lo
    else chr.activeProjectile
  else chr.activeProjectile

/-- The destination has another item, or a rechargeable one. -/
def moveSwap (chr : Character) (k : Fin inventoryCount) (src dst : Fin maxItemCount) :
    Character × List InventoryModify :=
  let chr := chr.setInventory k ((chr.inventory k).swapVals src dst)
  if k = useInventory then
    let lo := min src dst
    let hi := max src dst
    (chr.setActiveProjectile (activeAfterSwap chr lo hi), [moveMod (inventoryNumber k) lo hi])
  else (chr, [moveMod (inventoryNumber k) src dst])

/-- Moving a stack. -/
def moveStack (env : Env) (chr : Character) (k : Fin inventoryCount) (src dst : Fin maxItemCount) :
    Exec (Character × List InventoryModify) :=
  let source := (chr.inventory k).items src
  let target := (chr.inventory k).items dst
  if target.isEmpty then .ok (moveToEmpty chr k src dst)
  else if target.val.item.itemId = source.val.item.itemId ∧
      !itemIsRechargeable target.val.item.itemId then do
    let info ← Exec.deref (env.itemInfo target.val.item.itemId)
    return moveOnto info chr k src dst
  else .ok (moveSwap chr k src dst)

/-- Moving a piece of equipment. If there is one at the destination, what is exchanged is
    in `chr->inventory[inventory]`, with `inventory` still being `1`. -/
def moveEquip (chr : Character) (src dst : Fin maxItemCount) : Character × List InventoryModify :=
  if (chr.equipmentInventory.items dst).isEmpty then
    (chr.setEquipmentInventory (chr.equipmentInventory.moveCell src dst), [moveMod 1 src dst])
  else (chr.setInventory 1 ((chr.inventory 1).swapVals src dst), [moveMod 1 src dst])

/-- `client_move_item`. -/
def clientMoveItem (env : Env) (c : Client) (inventory src dst : UInt8) : Exec (Bool × Client) :=
  let chr := c.character
  if c.shop ≠ noShop then .ok (true, c)
  else if inventory = 1 then
    let inv := chr.equipmentInventory
    match inv.index? (src - 1).toNat, inv.index? (dst - 1).toNat with
    | some src, some dst =>
      if (inv.items src).isEmpty then .ok (true, c)
      else
        let (chr, mods) := moveEquip chr src dst
        .ok (true, (c.setCharacter chr).send (.modifyItems mods))
    | _, _ => .ok (false, c)
  else
    match inventoryOfNumber inventory with
    | none => .ok (false, c)
    | some k =>
      let inv := chr.inventory k
      match inv.index? (src - 1).toNat, inv.index? (dst - 1).toNat with
      | some src, some dst =>
        if (inv.items src).isEmpty then .ok (true, c)
        else do
          let (chr, mods) ← moveStack env chr k src dst
          return (true, (c.setCharacter chr).send (.modifyItems mods))
      | _, _ => .ok (false, c)

/-! ## What a move of a stack changes -/

/-- Only one inventory of stacks, and `activeProjectile`, have changed. -/
def OnlyStacks (k : Fin inventoryCount) (chr chr' : Character) : Prop :=
  chr' = (chr.setInventory k (chr'.inventory k)).setActiveProjectile chr'.activeProjectile

section Moves

variable {env : Env} {info : ItemInfo} {chr : Character} {k : Fin inventoryCount}
  {src dst : Fin maxItemCount}

theorem onlyStacks_setInventory (inv : Inventory InventoryItem) :
    OnlyStacks k chr (chr.setInventory k inv) := by
  rw [OnlyStacks, Character.inventory_setInventory_self]
  rfl

theorem onlyStacks_setActiveProjectile (inv : Inventory InventoryItem) (a : UInt8) :
    OnlyStacks k chr ((chr.setInventory k inv).setActiveProjectile a) := by
  rw [OnlyStacks, Character.inventory_setActiveProjectile, Character.inventory_setInventory_self]
  rfl

theorem onlyStacks_moveToEmpty : OnlyStacks k chr (moveToEmpty chr k src dst).1 := by
  rw [moveToEmpty]
  simp only
  split
  · exact onlyStacks_setActiveProjectile ..
  · exact onlyStacks_setInventory ..

theorem onlyStacks_moveOnto : OnlyStacks k chr (moveOnto info chr k src dst).1 := by
  rw [moveOnto]
  split
  · exact onlyStacks_setInventory ..
  · simp only
    split
    · rw [moveAllOnto]
      simp only
      split
      · exact onlyStacks_setActiveProjectile ..
      · exact onlyStacks_setInventory ..
    · exact onlyStacks_setInventory ..

theorem onlyStacks_moveSwap : OnlyStacks k chr (moveSwap chr k src dst).1 := by
  rw [moveSwap]
  simp only
  split
  · exact onlyStacks_setActiveProjectile ..
  · exact onlyStacks_setInventory ..

theorem inventory_moveToEmpty :
    (moveToEmpty chr k src dst).1.inventory k = (chr.inventory k).moveCell src dst := by
  rw [moveToEmpty]
  simp only
  split <;> simp

theorem inventory_moveSwap :
    (moveSwap chr k src dst).1.inventory k = (chr.inventory k).swapVals src dst := by
  rw [moveSwap]
  simp only
  split <;> simp

/-- What putting a stack on another one of the same item makes of the inventory. -/
theorem inventory_moveOnto : ((moveOnto info chr k src dst).1).inventory k =
    if (chr.inventory k).quantity dst = info.slotMax then (chr.inventory k).swapVals src dst
    else if (chr.inventory k).quantity src < info.slotMax - (chr.inventory k).quantity dst then
      (chr.inventory k).mergeAll src dst
    else (chr.inventory k).mergeSome src dst (info.slotMax - (chr.inventory k).quantity dst) := by
  rw [moveOnto]
  split
  · rw [moveToFull, Character.inventory_setInventory_self]
  · simp only
    split
    · rw [moveAllOnto]
      simp only
      split <;> simp
    · rw [moveSomeOnto, Character.inventory_setInventory_self]

end Moves

/-! ## What a call does -/

/-- A call that returns has done nothing, or moved equipment, or a stack. -/
theorem clientMoveItem_cases {env : Env} {c c' : Client} {inventory src dst : UInt8} {b : Bool}
    (h : clientMoveItem env c inventory src dst = .ok (b, c')) :
    c' = c ∨
      (inventory = 1 ∧ ∃ i j, c.character.equipmentInventory.index? (src - 1).toNat = some i ∧
        c.character.equipmentInventory.index? (dst - 1).toNat = some j ∧
        (c.character.equipmentInventory.items i).isEmpty = false ∧
        c'.character = (moveEquip c.character i j).1) ∨
      ∃ k i j mods, inventoryOfNumber inventory = some k ∧
        (c.character.inventory k).index? (src - 1).toNat = some i ∧
        (c.character.inventory k).index? (dst - 1).toNat = some j ∧
        ((c.character.inventory k).items i).isEmpty = false ∧
        moveStack env c.character k i j = .ok (c'.character, mods) := by
  rw [clientMoveItem] at h
  simp only at h
  split at h
  · cases h
    exact .inl rfl
  · split at h
    · rename_i hone
      split at h
      · rename_i i j hi hj
        split at h
        · cases h
          exact .inl rfl
        · rename_i he
          cases h
          exact .inr (.inl ⟨hone, i, j, hi, hj, by simpa using he, rfl⟩)
      · cases h
        exact .inl rfl
    · split at h
      · cases h
        exact .inl rfl
      · rename_i k hk
        split at h
        · rename_i i j hi hj
          split at h
          · cases h
            exact .inl rfl
          · rename_i he
            obtain ⟨⟨chr, mods⟩, hmove, h⟩ := Exec.bind_eq_ok.1 h
            cases h
            exact .inr (.inr ⟨k, i, j, mods, hk, hi, hj, by simpa using he, hmove⟩)
        · cases h
          exact .inl rfl

/-- How a stack is moved. -/
theorem moveStack_cases {env : Env} {chr chr' : Character} {k : Fin inventoryCount}
    {src dst : Fin maxItemCount} {mods : List InventoryModify}
    (h : moveStack env chr k src dst = .ok (chr', mods)) :
    (((chr.inventory k).items dst).isEmpty = true ∧ chr' = (moveToEmpty chr k src dst).1) ∨
      ((chr.inventory k).items dst).isEmpty = false ∧
        ((((chr.inventory k).items dst).val.item.itemId =
              ((chr.inventory k).items src).val.item.itemId ∧
            itemIsRechargeable ((chr.inventory k).items dst).val.item.itemId = false ∧
            ∃ info, env.itemInfo ((chr.inventory k).items dst).val.item.itemId = some info ∧
              chr' = (moveOnto info chr k src dst).1) ∨
          ((((chr.inventory k).items dst).val.item.itemId =
              ((chr.inventory k).items src).val.item.itemId →
            itemIsRechargeable ((chr.inventory k).items dst).val.item.itemId = true) ∧
          chr' = (moveSwap chr k src dst).1)) := by
  rw [moveStack] at h
  split at h
  · rename_i he
    exact .inl ⟨he, (congrArg Prod.fst (Except.ok.inj h)).symm⟩
  · rename_i he
    refine .inr ⟨by simpa using he, ?_⟩
    split at h
    · rename_i hsame
      obtain ⟨hid, hr⟩ := hsame
      obtain ⟨info, hinfo, h⟩ := Exec.bind_eq_ok.1 h
      exact .inl ⟨hid, by simpa using hr, info, Exec.deref_eq_ok.1 hinfo,
        (congrArg Prod.fst (Exec.pure_eq_ok.1 h)).symm⟩
    · rename_i hsame
      refine .inr ⟨fun hid => ?_, (congrArg Prod.fst (Except.ok.inj h)).symm⟩
      by_contra hr
      exact hsame ⟨hid, by simpa using hr⟩

end Syrup
