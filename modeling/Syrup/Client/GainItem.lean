import Syrup.Client.Equip
import Syrup.Client.GainItems

/-!
# `client_gain_inventory_item`

The function gives one stack to a character, which has been picked up: it fills up the stacks of
the item first, and then puts what is left into *one* empty slot. Quest items can only be picked
up while they are still to be found.

The changes are collected in an array that grows with `realloc`; `room` tells how many changes
there is memory for. If one more is to be made, the function returns `false`, and what it has
put into its copy of the inventory is lost.
-/

namespace Syrup

open Sweep

/-- The inventory of the stacks of an item, `inventory[id / 1000000 - 2]`. -/
def inventoryAt (id : UInt32) : Exec (Fin inventoryCount) :=
  if h : (id / 1000000 - 2).toNat < inventoryCount then .ok ⟨_, h⟩ else .error .outOfBounds

/-- `check_quest_item`: how many of an item a quest wants, if it does. -/
def checkQuestItem (env : Env) (id : UInt32) (quest : Quest) (max : Int16) :
    Exec (Quest × Int16) := do
  let info ← Exec.deref (env.questInfo quest.id)
  let wanted := info.endRequirements.findSome? fun
    | .item reqId count => if reqId = id then some count else none
    | _ => none
  return (quest, (wanted.map Int32.toInt16).getD max)

/-- Ends the search for an item, if it is a quest item and there are as many as are
    wanted. -/
def endItemQuest (env : Env) (alloc : Bool) (chr : Character) (info : ItemInfo) (id : UInt32)
    (total : ℤ) (set : HashSet UInt32) : Exec (HashSet UInt32) := do
  let (_, max) ← hashSetU16Foreach (checkQuestItem env id) chr.quests 0
  if info.quest && total == max.toInt then hashSetRemove env.itemQuests alloc set id else return set

/-- The state of the loops: the quantity left, the items still to be found, the changes, and
    whether there has been no memory for a change. -/
structure PickUp where
  quantity : Int16
  itemQuests : HashSet UInt32
  mods : List InventoryModify
  failed : Bool

/-- A stack of which some is put on another one of the item, which takes it all. It gets an
    id if it has none. -/
def stackOnto (item : InventoryItem) (quantity : Int16) (stack : InventoryItem) : InventoryItem where
  item := if stack.item.id = 0 then { stack.item with id := item.item.id } else stack.item
  quantity := stack.quantity + quantity

/-- The loop filling up stacks. -/
def pickUpBody (env : Env) (alloc : Bool) (room : ℕ) (chr : Character) (info : ItemInfo)
    (item : InventoryItem) (k : Fin inventoryCount) (j : Fin maxItemCount) (c : Cell InventoryItem)
    (s : PickUp) : Exec (Out (Cell InventoryItem) PickUp) :=
  if !c.isEmpty && c.val.item.itemId == item.item.itemId then do
    let set ← endItemQuest env alloc chr info item.item.itemId
      (c.val.quantity.toInt + item.quantity.toInt) s.itemQuests
    let (stack, quantity) :=
      if c.val.quantity.toInt > info.slotMax.toInt - s.quantity.toInt then
        (c.val.setQuantity info.slotMax, s.quantity - (info.slotMax - c.val.quantity))
      else (stackOnto item s.quantity c.val, 0)
    let mods := s.mods ++ [.modify (inventoryNumber k) (slotNumber j) stack.quantity]
    let failed := decide (room ≤ s.mods.length)
    return { cell := c.write stack, state := ⟨quantity, set, mods, failed⟩,
             stop := failed || quantity == 0 }
  else return { cell := c, state := s, stop := s.quantity == 0 }

/-- The first empty slot of an inventory. -/
def firstEmpty {α : Type*} (inv : Inventory α) : Option (Fin maxItemCount) :=
  firstFrom (fun i => (inv.items i).isEmpty) 0 inv.slotCount

/-- `activeProjectile` after a stack has been put into an empty slot: of arrows for a bow or a
    crossbow, or of a rechargeable item for a claw or a gun. -/
def activeAfterPickUp (chr : Character) (item : InventoryItem) (j : Fin maxItemCount) : UInt8 :=
  if !(chr.equippedEquipment weaponIndex).isEmpty ∧ j.val < chr.activeProjectile.toNat ∧
      isProjectile chr.weaponId item then
    projectileSlot j
  else chr.activeProjectile

/-- The character with an inventory and what else has been written to. -/
def pickedUp (chr : Character) (k : Fin inventoryCount) (inv : Inventory InventoryItem)
    (a : UInt8) : Character :=
  (chr.setInventory k inv).setActiveProjectile a

/-- The branch for a rechargeable item, which does not stack. If there is no empty slot, nothing
    is given. -/
def pickUpRechargeable (c : Client) (item : InventoryItem) (k : Fin inventoryCount) :
    Option InventoryGainResult × Client :=
  let chr := c.character
  match firstEmpty (chr.inventory k) with
  | none => (some .success, sendMods [] 0 c)
  | some j =>
    let a := activeAfterPickUp chr item j
    let chr := pickedUp chr k ((chr.inventory k).set j (.full item)) a
    (some .success, sendMods [.addItem 2 (slotNumber j) item] 1 (c.setCharacter chr))

/-- What has been left after filling up stacks is put into an empty slot. -/
def pickUpRest (env : Env) (alloc : Bool) (room : ℕ) (c : Client) (info : ItemInfo)
    (item : InventoryItem) (k : Fin inventoryCount) (inv : Inventory InventoryItem) (s : PickUp) :
    Exec (Option InventoryGainResult × Client) :=
  let chr := c.character
  match firstEmpty inv with
  | none =>
    .ok (some .full, ((c.setCharacter (chr.setItemQuests s.itemQuests)).send
      .inventoryFullNotification).send (.modifyItems []))
  | some j => do
    let set ← endItemQuest env alloc chr info item.item.itemId item.quantity.toInt s.itemQuests
    let stack := item.setQuantity s.quantity
    let mods := s.mods ++ [.addItem (inventoryNumber k) (slotNumber j) stack]
    let found := chr.setItemQuests set
    if room ≤ s.mods.length then return (none, c.setCharacter found)
    else
      let a := activeAfterPickUp chr stack j
      return (some .success, sendMods mods mods.length
        (c.setCharacter (pickedUp found k (inv.set j (.full stack)) a)))

/-- The branch for an item that stacks. -/
def pickUpStack (env : Env) (alloc : Bool) (room : ℕ) (c : Client) (info : ItemInfo)
    (item : InventoryItem) (k : Fin inventoryCount) : Exec (Option InventoryGainResult × Client) := do
  let chr := c.character
  let inv := chr.inventory k
  let (items, s) ← sweep (pickUpBody env alloc room chr info item k) inv.slots inv.items
    { quantity := item.quantity, itemQuests := chr.itemQuests, mods := [], failed := false }
  if s.failed then return (none, c.setCharacter (chr.setItemQuests s.itemQuests))
  else if s.quantity ≠ 0 then pickUpRest env alloc room c info item k (inv.withItems items) s
  else
    let chr := (chr.setItemQuests s.itemQuests).setInventory k (inv.withItems items)
    return (some .success, sendMods s.mods s.mods.length (c.setCharacter chr))

/-- `client_gain_inventory_item`: it returns `false` (`none`), or `true` with `*result`. -/
def clientGainInventoryItem (env : Env) (alloc : Bool) (room : ℕ) (c : Client)
    (item : InventoryItem) : Exec (Option InventoryGainResult × Client) := do
  let id := item.item.itemId
  let info ← Exec.deref (env.itemInfo id)
  if info.quest && (hashSetGet env.itemQuests c.character.itemQuests id).isNone then
    return (some .unavailable, c)
  else if room = 0 then return (none, c)
  else do
    let k ← inventoryAt id
    if itemIsRechargeable id then return pickUpRechargeable c item k
    else pickUpStack env alloc room c info item k

/-! ## What a call does -/

/-- What a step of the loop that fills up stacks does. -/
theorem pickUpBody_cases {env : Env} {alloc : Bool} {room : ℕ} {chr : Character} {info : ItemInfo}
    {item : InventoryItem} {k : Fin inventoryCount} {j : Fin maxItemCount} {c : Cell InventoryItem}
    {s : PickUp} {out : Out (Cell InventoryItem) PickUp}
    (h : pickUpBody env alloc room chr info item k j c s = .ok out) :
    (out.cell = c ∧ out.state = s ∧ out.stop = (s.quantity == 0)) ∨
      c.isEmpty = false ∧ c.val.item.itemId = item.item.itemId ∧
        ((info.slotMax.toInt - s.quantity.toInt < c.val.quantity.toInt ∧
            out.cell = c.write (c.val.setQuantity info.slotMax) ∧
            out.state.quantity = s.quantity - (info.slotMax - c.val.quantity)) ∨
          c.val.quantity.toInt ≤ info.slotMax.toInt - s.quantity.toInt ∧
            out.cell = c.write (stackOnto item s.quantity c.val) ∧ out.state.quantity = 0 ∧
            out.stop = true) := by
  rw [pickUpBody] at h
  split at h
  · rename_i hm
    obtain ⟨he, hid⟩ : c.isEmpty = false ∧ c.val.item.itemId = item.item.itemId := by simpa using hm
    refine .inr ⟨he, hid, ?_⟩
    obtain ⟨set, _, h⟩ := Exec.bind_eq_ok.1 h
    split at h
    rename_i heq
    cases h
    split at heq
    · rename_i hlt
      cases heq
      exact .inl ⟨hlt, rfl, rfl⟩
    · rename_i hle
      cases heq
      exact .inr ⟨not_lt.1 hle, rfl, rfl, Bool.or_true _⟩
  · cases h
    exact .inl ⟨rfl, rfl, rfl⟩

/-- What is given of an item that stacks: what is left after stacks have been filled up, in a sweep,
    is put into an empty slot. -/
def PickedUpStack (env : Env) (alloc : Bool) (room : ℕ) (chr chr' : Character)
    (item : InventoryItem) : Prop :=
  ∃ info k items s set, env.itemInfo item.item.itemId = some info ∧
    inventoryAt item.item.itemId = .ok k ∧
    sweep (pickUpBody env alloc room chr info item k) (chr.inventory k).slots
      (chr.inventory k).items ⟨item.quantity, chr.itemQuests, [], false⟩ = .ok (items, s) ∧
    s.failed = false ∧
    ((s.quantity = 0 ∧
        chr' = (chr.setItemQuests set).setInventory k ((chr.inventory k).withItems items)) ∨
      s.quantity ≠ 0 ∧ ∃ j, firstEmpty ((chr.inventory k).withItems items) = some j ∧
        chr' = pickedUp (chr.setItemQuests set) k
          (((chr.inventory k).withItems items).set j (.full (item.setQuantity s.quantity)))
          (activeAfterPickUp chr (item.setQuantity s.quantity) j))

/-- A call that returns has given nothing, or a rechargeable stack, or an item that
    stacks. -/
theorem clientGainInventoryItem_cases {env : Env} {alloc : Bool} {room : ℕ} {c c' : Client}
    {item : InventoryItem} {r : Option InventoryGainResult}
    (h : clientGainInventoryItem env alloc room c item = .ok (r, c')) :
    (∃ set, c'.character = c.character.setItemQuests set) ∨
      (itemIsRechargeable item.item.itemId = true ∧ (∃ info, env.itemInfo item.item.itemId = some info) ∧
        ∃ k j, inventoryAt item.item.itemId = .ok k ∧ firstEmpty (c.character.inventory k) = some j ∧
          c'.character = pickedUp c.character k ((c.character.inventory k).set j (.full item))
            (activeAfterPickUp c.character item j)) ∨
      (itemIsRechargeable item.item.itemId = false ∧
        PickedUpStack env alloc room c.character c'.character item) := by
  obtain ⟨info, hinfo, h⟩ := Exec.bind_eq_ok.1 h
  rw [Exec.deref_eq_ok] at hinfo
  split at h
  · cases h
    exact .inl ⟨_, rfl⟩
  · split at h
    · cases h
      exact .inl ⟨_, rfl⟩
    · obtain ⟨k, hk, h⟩ := Exec.bind_eq_ok.1 h
      split at h
      · rename_i hr
        rw [Exec.pure_eq_ok, pickUpRechargeable] at h
        simp only at h
        split at h
        · cases h
          rw [character_sendMods]
          exact .inl ⟨_, rfl⟩
        · rename_i j hj
          cases h
          rw [character_sendMods]
          exact .inr (.inl ⟨hr, ⟨info, hinfo⟩, k, j, hk, hj, rfl⟩)
      · rename_i hr
        rw [Bool.not_eq_true] at hr
        obtain ⟨⟨items, s⟩, hsweep, h⟩ := Exec.bind_eq_ok.1 h
        simp only at h
        split at h
        · cases h
          exact .inl ⟨_, rfl⟩
        · rename_i hf
          rw [Bool.not_eq_true] at hf
          split at h
          · rename_i hq
            rw [pickUpRest] at h
            simp only at h
            split at h
            · cases h
              exact .inl ⟨_, rfl⟩
            · rename_i j hj
              obtain ⟨set, _, h⟩ := Exec.bind_eq_ok.1 h
              split at h
              · cases h
                exact .inl ⟨_, rfl⟩
              · cases h
                refine .inr (.inr ⟨hr, info, k, items, s, set, hinfo, hk, hsweep, hf,
                  .inr ⟨hq, j, hj, ?_⟩⟩)
                rw [character_sendMods]
                rfl
          · rename_i hq
            rw [ne_eq, not_not] at hq
            cases h
            refine .inr (.inr ⟨hr, info, k, items, s, s.itemQuests, hinfo, hk, hsweep, hf,
              .inl ⟨hq, ?_⟩⟩)
            rw [character_sendMods]
            rfl

end Syrup
