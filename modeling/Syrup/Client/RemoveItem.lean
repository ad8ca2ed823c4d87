import Syrup.Client.GainItem

/-!
# `client_remove_item`, `client_use_projectile`

Removing takes an amount from a stack, or a rechargeable stack as a whole. Shooting takes an amount
from the first slot from `activeProjectile` on whose quantity is enough, whether
or not it is empty, or holds a projectile.

Where the stack at `activeProjectile` is used up, the next projectile is looked for in the slots
after it.
-/

namespace Syrup

open Sweep

/-- What is left in a slot of which an amount is taken, nothing being left of a rechargeable
    stack. -/
def removeFrom (c : Cell InventoryItem) (amount : Int16) : Cell InventoryItem :=
  if itemIsRechargeable c.val.item.itemId || c.val.quantity == amount then c.emptied
  else c.write (c.val.setQuantity (c.val.quantity - amount))

/-- What is taken from a slot. -/
def removedItem (it : InventoryItem) (amount : Int16) : InventoryItem :=
  if itemIsRechargeable it.item.itemId then it
  else if it.quantity == amount then it.setQuantity amount
  else { item := { it.item with id := 0 }, quantity := amount }

/-- A slot that is empty, or has a quantity of `0`. -/
def usedUp (c : Cell InventoryItem) : Bool := c.isEmpty || c.val.quantity == 0

/-- Puts a quest item among the items that are to be found. (The outcome of the insertion is not
    checked.) -/
def startItemQuest (env : Env) (alloc : Bool) (chr : Character) (id : UInt32) :
    Exec Character := do
  let info ← Exec.deref (env.itemInfo id)
  if info.quest && (hashSetGet env.itemQuests chr.itemQuests id).isNone then do
    let (_, set) ← hashSetInsert env.itemQuests alloc chr.itemQuests id
    return chr.setItemQuests set
  else return chr

/-- The change of a slot from which something has been taken. -/
def removeMod (k : Fin inventoryCount) (i : Fin maxItemCount) (c : Cell InventoryItem) :
    InventoryModify :=
  if c.isEmpty then .remove (inventoryNumber k) (slotNumber i)
  else .modify (inventoryNumber k) (slotNumber i) c.val.quantity

/-- Takes an amount from a stack, and looks for the next projectile. -/
def removeStack (chr : Character) (k : Fin inventoryCount) (src : Fin maxItemCount)
    (amount : Int16) : Character :=
  let c := removeFrom ((chr.inventory k).items src) amount
  let chr := chr.setItem k src c
  if k = useInventory ∧ chr.activeProjectile.toNat = src.val ∧ usedUp c then
    chr.setActiveProjectile (research chr chr.weaponId (src.val + 1))
  else chr

/-- `client_remove_item`: it returns `false` (`none`), or `true` with `*success`. What has been
    removed (`*item`) is given too. -/
def clientRemoveItem (env : Env) (alloc : Bool) (c : Client) (inventory src : UInt8)
    (amount : Int16) : Exec (Option (Bool × Option InventoryItem) × Client) :=
  let chr := c.character
  match inventoryOfNumber inventory with
  | none => .ok (none, c)
  | some k =>
    match (chr.inventory k).index? (src - 1).toNat with
    | none => .ok (none, c)
    | some src =>
      let cell := (chr.inventory k).items src
      if cell.isEmpty then .ok (some (false, none), c)
      else if !itemIsRechargeable cell.val.item.itemId && cell.val.quantity < amount then
        .ok (some (false, some cell.val), c)
      else do
        let item := removedItem cell.val amount
        let chr ← startItemQuest env alloc (removeStack chr k src amount) item.item.itemId
        let mod := removeMod k src ((chr.inventory k).items src)
        return (some (true, some item), (c.setCharacter chr).send (.modifyItems [mod]))

/-- The slot from which a projectile is taken: the loop goes on from `activeProjectile` to
    the first slot with a quantity of at least the amount, or to the end. -/
def projectileSource (chr : Character) (amount : Int16) : Option (Fin maxItemCount) :=
  let inv := chr.inventory useInventory
  firstFrom (fun i => amount ≤ (inv.items i).val.quantity) chr.activeProjectile.toNat inv.slotCount

/-- What is left in a slot from which projectiles have been shot. -/
def shootFrom (c : Cell InventoryItem) (amount : Int16) : Cell InventoryItem :=
  if !itemIsRechargeable c.val.item.itemId && c.val.quantity == amount then c.emptied
  else c.write (c.val.setQuantity (c.val.quantity - amount))

/-- `activeProjectile` after projectiles have been shot. The loops that look for the next
    one set it to `-1` if they get to the end, which they go past if they start beyond it. -/
def activeAfterShot (chr : Character) : UInt8 :=
  let inv := chr.inventory useInventory
  let next := chr.activeProjectile.toNat + 1
  if inv.slotCount < next then chr.activeProjectile else research chr chr.weaponId next

/-- Looks for the next projectile if there is none left in the slot `active`, and sends what
    is left in the slot `slot`. -/
def finishShot (c : Client) (chr : Character) (active slot : Fin maxItemCount) : Client :=
  let chr :=
    if usedUp ((chr.inventory useInventory).items active) then
      chr.setActiveProjectile (activeAfterShot chr)
    else chr
  (c.setCharacter chr).send
    (.modifyItems [removeMod useInventory slot ((chr.inventory useInventory).items slot)])

/-- `client_use_projectile`: it returns `true` with `*success`. -/
def clientUseProjectile (c : Client) (amount : Int16) : Exec (Bool × Client) :=
  let chr := c.character
  let inv := chr.inventory useInventory
  if chr.activeProjectile = noProjectile then .ok (false, c)
  else
    match projectileSource chr amount with
    | none =>
      if chr.activeProjectile.toNat ≤ inv.slotCount then .ok (false, c)
      else do
        -- The loop stops where it starts, which is beyond the end.
        let active ← itemIndex chr.activeProjectile
        return (true, finishShot c chr active active)
    | some slot => do
      let active ← itemIndex chr.activeProjectile
      let chr := chr.setItem useInventory slot (shootFrom (inv.items slot) amount)
      return (true, finishShot c chr active slot)

/-! ## What the calls do -/

/-- From a slot in use, the next projectile is looked for. -/
theorem activeAfterShot_eq {chr : Character}
    (h : chr.activeProjectile.toNat < (chr.inventory useInventory).slotCount) :
    activeAfterShot chr = research chr chr.weaponId (chr.activeProjectile.toNat + 1) :=
  if_neg (Nat.not_lt.2 h)

theorem startItemQuest_cases {env : Env} {alloc : Bool} {chr chr' : Character} {id : UInt32}
    (h : startItemQuest env alloc chr id = .ok chr') : ∃ set, chr' = chr.setItemQuests set := by
  obtain ⟨info, _, h⟩ := Exec.bind_eq_ok.1 h
  simp only at h
  split at h
  · obtain ⟨⟨_, set⟩, _, h⟩ := Exec.bind_eq_ok.1 h
    cases h
    exact ⟨set, rfl⟩
  · cases h
    exact ⟨chr.itemQuests, rfl⟩

/-- A call that returns has done nothing, and reports no success, or taken an amount from a
    stack, and reports it. -/
theorem clientRemoveItem_result {env : Env} {alloc : Bool} {c c' : Client}
    {inventory src : UInt8} {amount : Int16} {r : Option (Bool × Option InventoryItem)}
    (h : clientRemoveItem env alloc c inventory src amount = .ok (r, c')) :
    ((∀ it, r ≠ some (true, it)) ∧ c' = c) ∨ ∃ k i set, inventoryOfNumber inventory = some k ∧
      (c.character.inventory k).index? (src - 1).toNat = some i ∧
      ((c.character.inventory k).items i).isEmpty = false ∧
      (itemIsRechargeable ((c.character.inventory k).items i).val.item.itemId = false →
        amount ≤ ((c.character.inventory k).items i).val.quantity) ∧
      r = some (true, some (removedItem ((c.character.inventory k).items i).val amount)) ∧
      c'.character = (removeStack c.character k i amount).setItemQuests set := by
  rw [clientRemoveItem] at h
  simp only at h
  split at h
  · cases h
    exact .inl ⟨nofun, rfl⟩
  · rename_i k hk
    split at h
    · cases h
      exact .inl ⟨nofun, rfl⟩
    · rename_i i hi
      split at h
      · cases h
        exact .inl ⟨nofun, rfl⟩
      · rename_i he
        split at h
        · cases h
          exact .inl ⟨nofun, rfl⟩
        · rename_i hq
          obtain ⟨chr, hchr, h⟩ := Exec.bind_eq_ok.1 h
          obtain ⟨set, rfl⟩ := startItemQuest_cases hchr
          cases h
          refine .inr ⟨k, i, set, hk, hi, by simpa using he, fun hr => ?_, rfl, rfl⟩
          rw [hr] at hq
          simpa using hq

/-- A call that returns has done nothing, or taken an amount from a stack. -/
theorem clientRemoveItem_cases {env : Env} {alloc : Bool} {c c' : Client}
    {inventory src : UInt8} {amount : Int16} {r : Option (Bool × Option InventoryItem)}
    (h : clientRemoveItem env alloc c inventory src amount = .ok (r, c')) :
    c' = c ∨ ∃ k i set, (c.character.inventory k).index? (src - 1).toNat = some i ∧
      ((c.character.inventory k).items i).isEmpty = false ∧
      (itemIsRechargeable ((c.character.inventory k).items i).val.item.itemId = false →
        amount ≤ ((c.character.inventory k).items i).val.quantity) ∧
      c'.character = (removeStack c.character k i amount).setItemQuests set :=
  (clientRemoveItem_result h).imp And.right
    fun ⟨k, i, set, _, hi, he, hq, _, hc⟩ => ⟨k, i, set, hi, he, hq, hc⟩

/-- A call that returns has done nothing, or taken an amount from a slot, or it started beyond
    the end of the inventory. -/
theorem clientUseProjectile_cases {c c' : Client} {amount : Int16} {b : Bool}
    (h : clientUseProjectile c amount = .ok (b, c')) :
    c' = c ∨ c.character.activeProjectile ≠ noProjectile ∧
      ∃ active, active.val = c.character.activeProjectile.toNat ∧
        ((projectileSource c.character amount = none ∧
            (c.character.inventory useInventory).slotCount < active.val ∧
            c' = finishShot c c.character active active) ∨
          ∃ slot, projectileSource c.character amount = some slot ∧
            c' = finishShot c (c.character.setItem useInventory slot
              (shootFrom ((c.character.inventory useInventory).items slot) amount)) active slot) := by
  have hindex {a : UInt8} {i : Fin maxItemCount} (hi : itemIndex a = .ok i) : i.val = a.toNat := by
    rw [itemIndex] at hi
    split at hi
    · cases hi
      rfl
    · cases hi
  rw [clientUseProjectile] at h
  simp only at h
  split at h
  · cases h
    exact .inl rfl
  · rename_i ha
    split at h
    · rename_i hsource
      split at h
      · cases h
        exact .inl rfl
      · rename_i hlt
        obtain ⟨active, hactive, h⟩ := Exec.bind_eq_ok.1 h
        cases h
        have hval := hindex hactive
        exact .inr ⟨ha, active, hval, .inl ⟨hsource, by omega, rfl⟩⟩
    · rename_i slot hslot
      obtain ⟨active, hactive, h⟩ := Exec.bind_eq_ok.1 h
      cases h
      exact .inr ⟨ha, active, hindex hactive, .inr ⟨slot, hslot, rfl⟩⟩

end Syrup
