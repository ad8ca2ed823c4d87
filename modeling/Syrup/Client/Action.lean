import Syrup.Client.Equip
import Syrup.Client.GainItem
import Syrup.Client.MoveItem
import Syrup.Client.RemoveItem
import Syrup.Client.UseItem
import Syrup.Lib.Run

/-!
# The client as a system

The calls that change what a character holds, as the steps of one system. A run of it starts with
a character, as a rule with one that has just logged in.
-/

namespace Syrup

/-- A call, with its arguments, and with the outcome of its allocations. -/
inductive Action
  | gainItems (alloc : Bool) (items : Amounts) (reward : Bool)
  | gainInventoryItem (alloc : Bool) (room : ℕ) (item : InventoryItem)
  | gainEquipment (alloc : Bool) (item : Equipment) (now : Bool)
  | removeItem (alloc : Bool) (inventory src : UInt8) (amount : Int16)
  | useProjectile (amount : Int16)
  | removeEquip (equipped : Bool) (src : UInt8)
  | moveItem (inventory src dst : UInt8)
  | equip (src : UInt8) (slot : UInt32)
  | unequip (slot : UInt32) (dst : UInt8)
  | useItem (slot : UInt8) (id : UInt32)
  | recharge (slot : UInt16)

/-- The client after a call that returns. -/
def Action.step (env : Env) : Action → Client → Exec Client
  | gainItems alloc items reward, c => do
    let (_, c) ← clientGainItems env alloc c items reward
    return c
  | gainInventoryItem alloc room item, c => do
    let (_, c) ← clientGainInventoryItem env alloc room c item
    return c
  | gainEquipment alloc item now, c => do
    let (_, c) ← clientGainEquipment env alloc c item now
    return c
  | removeItem alloc inventory src amount, c => do
    let (_, c) ← clientRemoveItem env alloc c inventory src amount
    return c
  | useProjectile amount, c => do
    let (_, c) ← clientUseProjectile c amount
    return c
  | removeEquip equipped src, c => return (clientRemoveEquip c equipped src).2
  | moveItem inventory src dst, c => do
    let (_, c) ← clientMoveItem env c inventory src dst
    return c
  | equip src slot, c => do
    let (_, c) ← clientEquip c src slot
    return c
  | unequip slot dst, c => do
    let (_, c) ← clientUnequip c slot dst
    return c
  | useItem slot id, c => return (clientUseItem env c slot id).2
  | recharge slot, c => do
    let (_, c) ← clientRecharge env c slot
    return c

end Syrup
