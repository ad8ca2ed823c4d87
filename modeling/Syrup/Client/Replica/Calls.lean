import Syrup.Client.MoveItem.Conserve
import Syrup.Client.Replica

/-!
# What the player is told by the calls

Every call that gives, takes or moves something tells the player so, but for two: moving a piece of
equipment onto another one exchanges, of another inventory, what is in the slots of these numbers
(`clientMoveItem_told`); and taking off what is not worn makes equipment of what has been worn there
(`clientUnequip_told`). (What `client_gain_items` and `client_gain_inventory_item` tell is in
`Syrup.Client.Replica.Gains`.)
-/

namespace Syrup

open Replica Sweep

variable {env : Env} {c c' : Client}

/-! ## Stacks -/

section Stacks

variable {chr : Character} {k : Fin inventoryCount} {i : Fin maxItemCount}

/-- Another quantity of what is in a slot. -/
theorem apply_alter_stack (hi : i.val < (chr.inventory k).slotCount)
    (he : ((chr.inventory k).items i).isEmpty = false) (q : Int16) :
    (Change.alter (.stack k i) fun v : Shown => (v.1, q)).apply chr.shown =
      Function.update chr.shown (.stack k i)
        (some (((chr.inventory k).items i).val.item.itemId, q)) := by
  rw [Change.apply, shown_stack hi, Cell.get?_of_not_isEmpty he]
  rfl

/-- The change of a slot from which something has been taken is what has become of it. -/
theorem removeMod_replays {c : Cell InventoryItem} (hi : i.val < (chr.inventory k).slotCount)
    (hc : c.isEmpty = false → ((chr.inventory k).items i).isEmpty = false ∧
      c.val.item.itemId = ((chr.inventory k).items i).val.item.itemId) :
    ∃ m, (removeMod k i c).change = some m ∧ m.apply chr.shown = (chr.setItem k i c).shown := by
  rw [shown_setItem hi, removeMod]
  split
  · rename_i he
    refine ⟨.clear (.stack k i), by rw [InventoryModify.change, placeOf_stack]; rfl, ?_⟩
    rw [Cell.get?_of_isEmpty he]
    rfl
  · rename_i he
    rw [Bool.not_eq_true] at he
    obtain ⟨he', hid⟩ := hc he
    refine ⟨.alter (.stack k i) fun v => (v.1, c.val.quantity),
      by rw [InventoryModify.change, placeOf_stack]; rfl, ?_⟩
    rw [apply_alter_stack hi he', Cell.get?_of_not_isEmpty he, ← hid]
    rfl

/-- A slot from which something has been taken, with a packet that says so. -/
theorem Told.removeMod {chr' : Character} {cell : Cell InventoryItem}
    (hi : i.val < (c.character.inventory k).slotCount)
    (hcell : cell.isEmpty = false → ((c.character.inventory k).items i).isEmpty = false ∧
      cell.val.item.itemId = ((c.character.inventory k).items i).val.item.itemId)
    (hchr : chr'.shown = (c.character.setItem k i cell).shown) :
    Told c ((c.setCharacter chr').send (.modifyItems [removeMod k i cell])) := by
  obtain ⟨m, hm, happly⟩ := removeMod_replays hi hcell
  exact Told.modify_one hm (happly.trans hchr.symm)

end Stacks

section Moves

variable {chr : Character} {k : Fin inventoryCount} {src dst : Fin maxItemCount}

section Merge

variable (hs : src.val < (chr.inventory k).slotCount) (hd : dst.val < (chr.inventory k).slotCount)
  (hes : ((chr.inventory k).items src).isEmpty = false)
  (hed : ((chr.inventory k).items dst).isEmpty = false)

include hs hd hed

include hes

end Merge

section Stack

variable (hs : src.val < (chr.inventory k).slotCount) (hd : dst.val < (chr.inventory k).slotCount)
  (hes : ((chr.inventory k).items src).isEmpty = false)
include hs hd hes

section Onto

variable (hed : ((chr.inventory k).items dst).isEmpty = false)
include hed

end Onto

end Stack

end Moves

section Wear

variable {chr : Character} {i : Fin maxItemCount} {j : Fin equipSlotCount}

end Wear

end Syrup
