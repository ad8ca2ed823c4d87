import Syrup.Item
import Syrup.Lib.Slots
import Syrup.Lib.Sweep

/-!
# Inventories

A slot of an inventory is a flag and a payload (`Cell`): emptying a slot sets the
flag and leaves the payload, which is stale from then on. An inventory is an array
of `maxItemCount` slots of which the first `slotCount` are in use. What it *shows*
is its `view`: the payload of each slot in use that is not empty. Every account of
what a character holds is about views; the code reads flags and payloads.
-/

namespace Syrup

/-- `MAX_ITEM_COUNT`. -/
abbrev maxItemCount : ℕ := 252

instance : NeZero maxItemCount := ⟨Nat.succ_ne_zero 251⟩

/-- A slot: `struct { bool isEmpty; α val; }`. -/
structure Cell (α : Type*) where
  isEmpty : Bool
  val : α
  deriving DecidableEq, Inhabited

namespace Cell

variable {α : Type*}

/-- What a slot shows. -/
def get? (c : Cell α) : Option α := if c.isEmpty then none else some c.val

/-- A slot filled with a value. -/
def full (a : α) : Cell α := ⟨false, a⟩

/-- A slot that has been emptied. -/
def emptied (c : Cell α) : Cell α := { c with isEmpty := true }

/-- A slot with its payload written over. -/
def write (c : Cell α) (a : α) : Cell α := { c with val := a }

@[simp] theorem isEmpty_write (c : Cell α) (a : α) : (c.write a).isEmpty = c.isEmpty := rfl

@[simp] theorem val_write (c : Cell α) (a : α) : (c.write a).val = a := rfl

theorem get?_write {c : Cell α} (h : c.isEmpty = false) (a : α) : (c.write a).get? = some a := by
  rw [get?, isEmpty_write, h]
  rfl

@[simp] theorem get?_full (a : α) : (full a).get? = some a := rfl

@[simp] theorem get?_emptied (c : Cell α) : c.emptied.get? = none := rfl

@[simp] theorem get?_of_isEmpty {c : Cell α} (h : c.isEmpty = true) : c.get? = none := by
  rw [get?, if_pos h]

@[simp] theorem get?_of_not_isEmpty {c : Cell α} (h : c.isEmpty = false) :
    c.get? = some c.val := by
  rw [get?, h]
  rfl

theorem get?_eq_none {c : Cell α} : c.get? = none ↔ c.isEmpty = true := by
  cases h : c.isEmpty <;> simp [h]

theorem get?_eq_some {c : Cell α} {a : α} : c.get? = some a ↔ c.isEmpty = false ∧ c.val = a := by
  cases h : c.isEmpty <;> simp [h]

end Cell

/-- `struct Inventory`, and its like for equipment. -/
structure Inventory (α : Type*) where
  slotCount : ℕ
  slotCount_le : slotCount ≤ maxItemCount
  items : Fin maxItemCount → Cell α

namespace Inventory

variable {α : Type*} (inv : Inventory α)

/-- An inventory of 24 slots, as a new character has, all of them empty. -/
def empty [Inhabited α] : Inventory α := ⟨24, by decide, fun _ => ⟨true, default⟩⟩

instance [Inhabited α] : Inhabited (Inventory α) := ⟨empty⟩

/-- What the slots in use show. -/
def view (i : Fin maxItemCount) : Option α :=
  if i.val < inv.slotCount then (inv.items i).get? else none

/-- The slots in use, in the order in which the loops go through them. -/
def slots : List (Fin maxItemCount) :=
  (List.finRange maxItemCount).filter fun i => i.val < inv.slotCount

/-- The inventory with one slot rewritten. -/
def set (i : Fin maxItemCount) (c : Cell α) : Inventory α :=
  { inv with items := Function.update inv.items i c }

/-- The inventory with all slots rewritten. -/
def withItems (items : Fin maxItemCount → Cell α) : Inventory α := { inv with items := items }

/-- The inventory with a slot copied to another one and then emptied. -/
def moveCell (src dst : Fin maxItemCount) : Inventory α :=
  let inv := inv.set dst (inv.items src)
  inv.set src (inv.items src).emptied

/-- The inventory with the payloads of two slots exchanged. -/
def swapVals (src dst : Fin maxItemCount) : Inventory α :=
  let temp := (inv.items dst).val
  let inv := inv.set dst ((inv.items dst).write (inv.items src).val)
  inv.set src ((inv.items src).write temp)

/-- A slot number that a client sent, from which `1` has been subtracted, as an
    index: there is one if it is below `slotCount`. -/
def index? (slot : ℕ) : Option (Fin maxItemCount) :=
  if h : slot < inv.slotCount then some ⟨slot, h.trans_le inv.slotCount_le⟩ else none

variable {inv}

@[simp] theorem mem_slots {i : Fin maxItemCount} : i ∈ inv.slots ↔ i.val < inv.slotCount := by
  simp [slots]

theorem nodup_slots : inv.slots.Nodup := (List.nodup_finRange _).filter _

@[simp] theorem slotCount_set (i : Fin maxItemCount) (c : Cell α) :
    (inv.set i c).slotCount = inv.slotCount := rfl

@[simp] theorem slotCount_withItems (items : Fin maxItemCount → Cell α) :
    (inv.withItems items).slotCount = inv.slotCount := rfl

@[simp] theorem items_withItems (items : Fin maxItemCount → Cell α) :
    (inv.withItems items).items = items := rfl

@[simp] theorem slots_set (i : Fin maxItemCount) (c : Cell α) : (inv.set i c).slots = inv.slots :=
  rfl

@[simp] theorem items_set_self (i : Fin maxItemCount) (c : Cell α) : (inv.set i c).items i = c :=
  Function.update_self ..

theorem items_set_of_ne {i j : Fin maxItemCount} (h : j ≠ i) (c : Cell α) :
    (inv.set i c).items j = inv.items j :=
  Function.update_of_ne h ..

theorem index?_eq_some {slot : ℕ} {i : Fin maxItemCount} :
    inv.index? slot = some i ↔ i.val = slot ∧ slot < inv.slotCount := by
  rw [index?]
  split
  · rename_i h
    rw [Option.some.injEq, Fin.ext_iff]
    exact ⟨fun e => ⟨e.symm, h⟩, fun e => e.1.symm⟩
  · rename_i h
    exact ⟨nofun, fun e => absurd e.2 h⟩

theorem lt_of_index? {slot : ℕ} {i : Fin maxItemCount} (h : inv.index? slot = some i) :
    i.val < inv.slotCount := by
  obtain ⟨hi, hs⟩ := index?_eq_some.1 h
  omega

theorem view_of_lt {i : Fin maxItemCount} (h : i.val < inv.slotCount) :
    inv.view i = (inv.items i).get? := if_pos h

theorem view_eq_some {i : Fin maxItemCount} {a : α} :
    inv.view i = some a ↔
      i.val < inv.slotCount ∧ (inv.items i).isEmpty = false ∧ (inv.items i).val = a := by
  rw [view]
  split
  · rename_i h
    rw [Cell.get?_eq_some]
    exact ⟨fun e => ⟨h, e⟩, fun e => e.2⟩
  · rename_i h
    exact ⟨nofun, fun e => absurd e.1 h⟩

/-- Rewriting a slot in use rewrites what it shows. -/
theorem view_set {i : Fin maxItemCount} (h : i.val < inv.slotCount) (c : Cell α) :
    (inv.set i c).view = Function.update inv.view i c.get? := by
  funext j
  by_cases hj : j = i
  · subst hj
    rw [@view_of_lt _ (inv.set j c) _ h, items_set_self, Function.update_self]
  · rw [Function.update_of_ne hj, view, view, items_set_of_ne hj]
    rfl

@[simp] theorem slotCount_moveCell (src dst : Fin maxItemCount) :
    (inv.moveCell src dst).slotCount = inv.slotCount := rfl

@[simp] theorem slotCount_swapVals (src dst : Fin maxItemCount) :
    (inv.swapVals src dst).slotCount = inv.slotCount := rfl

theorem items_swapVals (src dst : Fin maxItemCount) :
    (inv.swapVals src dst).items =
      Function.update (Function.update inv.items dst ((inv.items dst).write (inv.items src).val)) src
        ((inv.items src).write (inv.items dst).val) := by
  by_cases h : src = dst
  · subst h
    simp [swapVals, set]
    rfl
  · rw [swapVals, set, items_set_of_ne h]
    rfl

/-- Exchanging the payloads of a slot with themselves changes nothing. -/
theorem swapVals_of_eq {src dst : Fin maxItemCount} (h : (inv.items src).val = (inv.items dst).val) :
    inv.swapVals src dst = inv := by
  have hw {i : Fin maxItemCount} {a : α} (ha : a = (inv.items i).val) : (inv.items i).write a =
      inv.items i := by
    rw [ha]
    rfl
  have hitems := @items_swapVals _ inv src dst
  rw [hw h, hw h.symm, Function.update_eq_self, Function.update_eq_self] at hitems
  cases inv
  simp only [swapVals, set] at hitems ⊢
  rw [hitems]

theorem view_moveCell {src dst : Fin maxItemCount} (hs : src.val < inv.slotCount)
    (hd : dst.val < inv.slotCount) :
    (inv.moveCell src dst).view =
      Function.update (Function.update inv.view dst (inv.view src)) src none := by
  rw [moveCell, @view_set _ (inv.set dst _) _ hs, view_set hd, view_of_lt hs, Cell.get?_emptied]

/-- Exchanging the payloads of two slots exchanges what they show, if both show
    something. -/
theorem view_swapVals {src dst : Fin maxItemCount} (hs : src.val < inv.slotCount)
    (hd : dst.val < inv.slotCount) (hes : (inv.items src).isEmpty = false)
    (hed : (inv.items dst).isEmpty = false) :
    (inv.swapVals src dst).view = inv.view ∘ Equiv.swap src dst := by
  have hvs : inv.view src = some (inv.items src).val := view_eq_some.2 ⟨hs, hes, rfl⟩
  have hvd : inv.view dst = some (inv.items dst).val := view_eq_some.2 ⟨hd, hed, rfl⟩
  funext i
  rw [view, slotCount_swapVals, items_swapVals, Function.comp_apply]
  by_cases his : i = src
  · subst his
    rw [if_pos hs, Function.update_self, Cell.get?_write hes, Equiv.swap_apply_left, hvd]
  · rw [Function.update_of_ne his]
    by_cases hid : i = dst
    · subst hid
      rw [if_pos hd, Function.update_self, Cell.get?_write hed, Equiv.swap_apply_right, hvs]
    · rw [Function.update_of_ne hid, Equiv.swap_apply_of_ne_of_ne his hid, view]

/-- The sum of a weight over what is shown. -/
def weigh {M : Type*} [AddCommMonoid M] (inv : Inventory α) (w : α → M) : M :=
  Slots.weigh w inv.view

/-- What is shown, as a multiset. -/
def contents (inv : Inventory α) : Multiset α := Slots.contents inv.view

section Weigh

variable {M : Type*} [AddCommGroup M] (w : α → M)

/-- Rewriting a slot in use changes a weight by the difference of its weights. -/
theorem weigh_set {i : Fin maxItemCount} (h : i.val < inv.slotCount) (c : Cell α) :
    (inv.set i c).weigh w =
      inv.weigh w - Slots.one w (inv.items i).get? + Slots.one w c.get? := by
  rw [weigh, weigh, view_set h, Slots.weigh_update_eq, view_of_lt h]

end Weigh

section Moves

variable {M : Type*} [AddCancelCommMonoid M] (w : α → M) {src dst : Fin maxItemCount}

/-- Moving a value to an empty slot keeps every weight. -/
theorem weigh_moveCell (hs : src.val < inv.slotCount) (hd : dst.val < inv.slotCount)
    (hes : (inv.items src).isEmpty = false) (hed : (inv.items dst).isEmpty = true) :
    (inv.moveCell src dst).weigh w = inv.weigh w := by
  have hne : src ≠ dst := by
    rintro rfl
    rw [hes] at hed
    cases hed
  have hvs : inv.view src = some (inv.items src).val := view_eq_some.2 ⟨hs, hes, rfl⟩
  have hvd : inv.view dst = none := by rw [view_of_lt hd, Cell.get?_of_isEmpty hed]
  have hfill := Slots.weigh_fill w hvd (inv.items src).val
  have hempty := Slots.weigh_empty w (v := Function.update inv.view dst (inv.view src)) (i := src)
    (by rw [Function.update_of_ne hne, hvs])
  rw [weigh, weigh, view_moveCell hs hd]
  rw [hvs] at hempty ⊢
  exact add_right_cancel (hempty.trans hfill)

/-- Exchanging two values keeps every weight. -/
theorem weigh_swapVals (hs : src.val < inv.slotCount) (hd : dst.val < inv.slotCount)
    (hes : (inv.items src).isEmpty = false) (hed : (inv.items dst).isEmpty = false) :
    (inv.swapVals src dst).weigh w = inv.weigh w := by
  rw [weigh, weigh, view_swapVals hs hd hes hed, Slots.weigh_swap]

end Moves

end Inventory

end Syrup
