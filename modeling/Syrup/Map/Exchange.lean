import Syrup.Client.Action
import Syrup.Client.HitPoints
import Syrup.Map.Run

/-!
# Dropping and picking up

What the players of a room do with its map: the handlers of `ITEM_MOVE` (for what is dropped),
`MESO_DROP` and `PICKUP`, and the timers of drops, by which a player with auto pickup picks up what has
been dropped for him.

A handler that kicks the session ends there (`session_kick` does not return); what it has done to the
client stays. Whether auto pickup is enabled is an argument, and so are the outcomes of allocations.
-/

namespace Syrup

/-- What a room looks up. -/
structure ExchangeEnv extends MapEnv where
  /-- `wz_get_consumable_info(id)->consumeOnPickup`, if there is such a consumable. -/
  consumeOnPickup : UInt32 → Option Bool

/-- A room: its map, and the clients of the players; a client is known to the map by its index. -/
structure ExchangeRoom where
  map : Map
  clients : List Client

/-- `client_is_in_shop`. -/
def clientIsInShop (c : Client) : Bool := c.shop != noShop

/-! ## Drops -/

namespace Map

/-- The drop of an object: `map->dropBatches[object->index]->drops[object->index2]`, or the like for one
    that is dropping. -/
def dropAt (m : Map) (object : MapObject) : Option Drop :=
  if object.type = .drop then
    ((m.dropBatches object.index).bind m.batch).bind fun b => b.drops[object.index2]?
  else (m.dropping (m.droppingBatches object.index)).bind fun b => b.drops[object.index2]?

/-- Whether there is room for another batch, of the owner's too. -/
def hasRoom (o : Outcomes) (m : Map) (r : PlayerRef) : Exec Bool :=
  match m.growBatches (o.alloc 2) with
  | none => return false
  | some m => do
    let grown ← m.growDrops (o.alloc 3) r
    return grown.isSome

/-- Whether `on_next_drop` gets to where the owner of the batch may pick up the drop. -/
def pickUpReached (o : Outcomes) (m : Map) (batch : DroppingBatch) (r : PlayerRef) : Exec Bool :=
  if batch.current + 1 < batch.drops.length then return true else m.hasRoom o r

end Map

/-- `map_player_can_pick_up_drop`, for the object of the drop. -/
def mapPlayerCanPickUpDrop (m : Map) (r : PlayerRef) (object : MapObject) : Exec Bool := do
  let player ← m.getPlayer r
  if object.type = .dropping then
    let batch ← Exec.deref (m.dropping (m.droppingBatches object.index))
    return batch.ownerId == player.charId
  else
    let id ← Exec.deref (m.dropBatches object.index)
    let batch ← Exec.deref (m.batch id)
    return batch.ownerId == player.charId || !batch.exclusive

/-! ## Clients -/

/-- Whether an item is consumed as it is picked up: `itemId / 1000000 == 2 &&
    wz_get_consumable_info(itemId)->consumeOnPickup`. -/
def isConsumed (env : ExchangeEnv) (id : UInt32) : Exec Bool :=
  if id / 1000000 = 2 then Exec.deref (env.consumeOnPickup id) else return false

/-- What picking up a drop does to the client, by `PICKUP` or by auto pickup: the outcome is that of
    `client_gain_inventory_item` or `client_gain_equipment` (`none` if it fails); mesos, and what is
    consumed at once, are always picked up. -/
def pickUpDrop (env : ExchangeEnv) (alloc : Bool) (room : ℕ) (c : Client) :
    DropItem → Exec (Option InventoryGainResult × Client)
  | .meso amount => return (some .success, clientCommitStats (clientGainMeso c amount true false))
  | .item _ item => do
    let id := item.item.itemId
    let consumed ← isConsumed env id
    if consumed then
      let (_, c) ← clientUseItemImmediate env.toEnv alloc c id
      return (some .success, c)
    else clientGainInventoryItem env.toEnv alloc room c item
  | .equip equip => do
    let (result, c) ← clientGainEquipment env.toEnv alloc c equip false
    return (some result, c)

/-- A stack, or a part of it, is taken from the client to be dropped. -/
def takeStack (env : Env) (alloc : Bool) (c : Client) (inventory : UInt8) (src quantity : Int16) :
    Exec (Option DropItem × Client) := do
  match ← clientRemoveItem env alloc c inventory src.toUInt16.toUInt8 quantity with
  | (some (true, some item), c) => return (some (.item 0 item), c)
  | (_, c) => return (none, c)

/-- What is dropped after a call of `client_remove_equip`. -/
def equipToDrop : Option (Bool × Option Equipment) × Client → Option DropItem × Client
  | (some (true, some equip), c) => (some (.equip equip), c)
  | (_, c) => (none, c)

/-- A piece of equipment is taken from the client to be dropped, one that is worn if the slot is negative. -/
def takeEquip (c : Client) (src : Int16) : Option DropItem × Client :=
  equipToDrop (if src < 0 then clientRemoveEquip c true (-src).toUInt16.toUInt8
    else clientRemoveEquip c false src.toUInt16.toUInt8)

/-- The first half of `ITEM_MOVE` with a destination of `0`: what is taken from the client to be dropped,
    if anything. -/
def takeToDrop (env : Env) (alloc : Bool) (c : Client) (inventory : UInt8) (src quantity : Int16) :
    Exec (Option DropItem × Client) :=
  if clientIsInShop c || quantity ≤ 0 then return (none, c)
  else if inventory ≠ 1 then takeStack env alloc c inventory src quantity
  else if 1 < quantity then return (none, c)
  else return takeEquip c src

/-- The first half of `MESO_DROP`. -/
def takeMesos (c : Client) (amount : Int32) : Option DropItem × Client :=
  if amount < 10 || 50000 < amount then (none, c)
  else if c.character.mesos < amount then (none, c)
  else (some (.meso amount), clientCommitStats (clientGainMeso c (-amount) false false))

/-! ## The room -/

namespace ExchangeRoom

variable (s : ExchangeRoom)

/-- A client is changed. -/
def setClient (i : ℕ) (c : Client) : ExchangeRoom := { s with clients := s.clients.set i c }

/-- The second half of `ITEM_MOVE` and `MESO_DROP`: what has been taken from a client is put onto the
    map. -/
def putDown (env : Env) (o : Outcomes) (i : ℕ) (taken : Option DropItem × Client) :
    Exec ExchangeRoom :=
  let s := s.setClient i taken.2
  match taken.1 with
  | none => return s
  | some item => do
    let player ← Exec.deref (s.map.container i)
    let m ← mapAddPlayerDrop env o s.map player item
    return { s with map := m }

/-- `PICKUP`. -/
def pickup (env : ExchangeEnv) (alloc : Bool) (room : ℕ) (removal : ℕ → Bool) (i : ℕ) (oid : UInt32) :
    Exec ExchangeRoom := do
  let c ← Exec.deref s.clients[i]?
  if !mapHasDrop env.toEnv s.map oid then return s
  else
    let object ← s.map.getObject env.toEnv oid
    let drop ← Exec.deref (s.map.dropAt object)
    let player ← Exec.deref (s.map.container i)
    let allowed ← mapPlayerCanPickUpDrop s.map player object
    if !allowed then return s
    else
      let (result, c) ← pickUpDrop env alloc room c drop.item
      let s := s.setClient i c
      if result = some .success then
        let m ← mapRemoveDrop env.toEnv removal s.map oid
        return { s with map := m }
      else return s

/-- The owner of a batch may have auto pickup enabled, and then the drop that `on_next_drop` drops is picked
    up if the client can take it. -/
def autoPickup (env : ExchangeEnv) (o : Outcomes) (alloc : Bool) (room : ℕ) (auto : Bool)
    (batch : DroppingBatch) (drop : Drop) : Exec (Bool × ExchangeRoom) :=
  match batch.owner with
  | none => return (false, s)
  | some r => do
    let reached ← s.map.pickUpReached o batch r
    if auto && reached then
      let player ← s.map.getPlayer r
      let c ← Exec.deref s.clients[player.container]?
      let (result, c) ← pickUpDrop env alloc room c drop.item
      return (decide (result = some .success), s.setClient player.container c)
    else return (false, s)

/-- `on_next_drop`. -/
def nextDrop (env : ExchangeEnv) (o : Outcomes) (alloc : Bool) (room : ℕ) (auto : Bool) (id : ℕ) :
    Exec ExchangeRoom := do
  let batch ← Exec.deref (s.map.dropping id)
  let drop ← Exec.deref batch.drops[batch.current]?
  let (picksUp, s) ← s.autoPickup env o alloc room auto batch drop
  let m ← onNextDrop env.toEnv { o with picksUp := picksUp } s.map id
  return { s with map := m }

end ExchangeRoom

/-- What can happen to the drops of a room. -/
inductive ExchangeAction
  | itemMove (o : Outcomes) (alloc : Bool) (i : ℕ) (inventory : UInt8) (src quantity : Int16)
  | mesoDrop (o : Outcomes) (i : ℕ) (amount : Int32)
  | pickup (alloc : Bool) (room : ℕ) (removal : ℕ → Bool) (i : ℕ) (oid : UInt32)
  | timer (o : Outcomes) (alloc : Bool) (room : ℕ) (auto : Bool) (t : ℕ)

/-- The room after something has happened. -/
def ExchangeAction.step (env : ExchangeEnv) : ExchangeAction → ExchangeRoom → Exec ExchangeRoom
  | itemMove o alloc i inventory src quantity, s => do
    let c ← Exec.deref s.clients[i]?
    let taken ← takeToDrop env.toEnv alloc c inventory src quantity
    s.putDown env.toEnv o i taken
  | mesoDrop o i amount, s => do
    let c ← Exec.deref s.clients[i]?
    s.putDown env.toEnv o i (takeMesos c amount)
  | pickup alloc room removal i oid, s => s.pickup env alloc room removal i oid
  | timer o alloc room auto t, s =>
    match s.map.timers t with
    | none => return s
    | some task =>
      let m := { s.map with timers := Function.update s.map.timers t none }
      match task with
      | .nextDrop id => ExchangeRoom.nextDrop { s with map := m } env o alloc room auto id
      | .exclusiveDropTimeExpired => do
        let m ← onExclusiveDropTimeExpired (o.alloc 0) m
        return { s with map := m }
      | .dropTimeExpired => do
        let m ← onDropTimeExpired env.toEnv o.alloc m
        return { s with map := m }

end Syrup
