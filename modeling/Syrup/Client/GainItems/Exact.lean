import Syrup.Client.GainItems
import Syrup.Holdings

/-!
# What `client_gain_items` gives and takes
-/

namespace Syrup

open Sweep Slots Machine

/-- A stack holds no more than a slot takes, and not less than nothing. -/
def StackFits (env : Env) (it : InventoryItem) : Prop :=
  0 ≤ it.quantity.toInt ∧
    ∀ info, env.itemInfo it.item.itemId = some info → it.quantity.toInt ≤ info.slotMax.toInt

/-- If a slot shows a stack of one of the items, the stack fits. -/
def CellFits (env : Env) (ids : List UInt32) (c : Cell InventoryItem) : Prop :=
  ∀ it, c.get? = some it → it.item.itemId ∈ ids → StackFits env it

section Bodies

variable {env : Env} {ids : List UInt32} {id : UInt32} {k : Fin inventoryCount}

/-- A slot shows none of an item that it is not found to hold. -/
theorem one_stackCount_of_not {c : Cell InventoryItem}
    (h : ¬ (!c.isEmpty && c.val.item.itemId == id) = true) : one (stackCount id) c.get? = 0 :=
  one_stackCount.trans (if_neg h)

/-- Taking from a slot keeps the books, and a slot that is passed shows none of the
    item. -/
theorem takeItemBody_step (hid : id ∈ ids) {i : Fin maxItemCount} {c : Cell InventoryItem}
    {s : Int16 × List InventoryModify} {out : Out (Cell InventoryItem) _}
    (h : takeItemBody id k i c s = .ok out) (hL : CellFits env ids c) (hQ : s.1.toInt < 0)
    (x : UInt32) :
    CellFits env ids out.cell ∧
      one (stackCount x) out.cell.get? + (if x = id then out.state.1.toInt else 0) =
        one (stackCount x) c.get? + (if x = id then s.1.toInt else 0) ∧
      (out.stop = true → out.state.1.toInt = 0) ∧
      (out.stop = false → (s.1.toInt ≤ out.state.1.toInt ∧ out.state.1.toInt < 0) ∧
        one (stackCount id) out.cell.get? = 0) := by
  rw [takeItemBody] at h
  split at h
  · rename_i hm
    obtain ⟨he, hi⟩ : c.isEmpty = false ∧ c.val.item.itemId = id := by simpa using hm
    have hget := Cell.get?_of_not_isEmpty he
    have hfit := hL c.val hget (hi ▸ hid)
    have hq := hfit.1
    have hb := bounds16 c.val.quantity
    have ha := bounds16 s.1
    split at h
    · rename_i hpos
      cases h
      -- The stack is larger than what is to be taken.
      have hadd := add16 (a := c.val.quantity) (b := s.1) (by omega) (by omega)
      refine ⟨fun it hit _ => ?_, ?_, fun _ => zero16, (by simp)⟩
      · rw [Cell.get?_write he, Option.some.injEq] at hit
        subst hit
        rw [StackFits, InventoryItem.quantity_setQuantity, hadd]
        refine ⟨by omega, fun info hinfo => ?_⟩
        have := hfit.2 info hinfo
        omega
      · rw [Cell.get?_write he, hget, one_some, one_some, stackCount, stackCount]
        simp only [InventoryItem.item_setQuantity, InventoryItem.quantity_setQuantity, hi, hadd,
          zero16, eq_comm (a := id)]
        split <;> omega
    · rename_i hpos
      cases h
      have hadd := add16 (a := s.1) (b := c.val.quantity) (by omega) (by omega)
      refine ⟨fun it hit => (by cases hit), ?_, fun hs => ?_, fun hs => ⟨?_, rfl⟩⟩
      · rw [hget, one_some, stackCount, Cell.get?_emptied, one_none]
        simp only [hi, hadd, eq_comm (a := id)]
        split <;> omega
      · rw [beq_iff_eq.1 hs]
        rfl
      · have : (s.1 + c.val.quantity).toInt ≠ 0 := fun e => by
          simp [eq16.2 (e.trans zero16.symm)] at hs
        change s.1.toInt ≤ (s.1 + c.val.quantity).toInt ∧ (s.1 + c.val.quantity).toInt < 0
        omega
  · rename_i hm
    cases h
    refine ⟨hL, rfl, fun hs => ?_, fun _ => ⟨⟨le_rfl, hQ⟩, one_stackCount_of_not hm⟩⟩
    rw [beq_iff_eq.1 hs]
    rfl

/-- Giving equipment keeps the books. -/
theorem giveEquipBody_step {i : Fin maxItemCount} {c : Cell Equipment}
    {s : Int16 × List InventoryModify} {out : Out (Cell Equipment) _}
    (h : giveEquipBody env id i c s = .ok out) (hQ : 0 < s.1.toInt) (x : UInt32) :
    one (equipCount x) out.cell.get? + (if x = id then out.state.1.toInt else 0) =
        one (equipCount x) c.get? + (if x = id then s.1.toInt else 0) ∧
      (out.stop = true → out.state.1.toInt = 0) ∧ (out.stop = false → 0 < out.state.1.toInt) := by
  rw [giveEquipBody] at h
  split at h
  · rename_i he
    obtain ⟨info, hinfo, h⟩ := Exec.bind_eq_ok.1 h
    have hid := env.equipInfo_id (Exec.deref_eq_ok.1 hinfo)
    have ha := bounds16 s.1
    have hsub := sub16 (a := s.1) (b := 1) (by rw [one16]; omega) (by rw [one16]; omega)
    rw [one16] at hsub
    cases h
    refine ⟨?_, fun hs => ?_, fun hs => ?_⟩
    · rw [Cell.get?_of_isEmpty he, one_none, Cell.get?_full, one_some, equipCount,
        equipmentFromInfo]
      simp only [hid, hsub, eq_comm (a := id)]
      split <;> omega
    · rw [beq_iff_eq.1 hs]
      rfl
    · have : (s.1 - 1).toInt ≠ 0 := fun e => by simp [eq16.2 (e.trans zero16.symm)] at hs
      change 0 < (s.1 - 1).toInt
      omega
  · cases h
    exact ⟨rfl, (by simp), fun _ => hQ⟩

/-- Filling up a stack keeps the books. -/
theorem fillBody_step (hid : id ∈ ids) {i : Fin maxItemCount} {c : Cell InventoryItem}
    {s : Int16 × List InventoryModify} {out : Out (Cell InventoryItem) _}
    (h : fillBody env id k i c s = .ok out) (hL : CellFits env ids c) (hQ : 0 < s.1.toInt)
    (x : UInt32) :
    CellFits env ids out.cell ∧
      one (stackCount x) out.cell.get? + (if x = id then out.state.1.toInt else 0) =
        one (stackCount x) c.get? + (if x = id then s.1.toInt else 0) ∧
      (out.stop = true → out.state.1.toInt = 0) ∧ (out.stop = false → 0 < out.state.1.toInt) := by
  rw [fillBody] at h
  split at h
  · rename_i hm
    obtain ⟨he, hi⟩ : c.isEmpty = false ∧ c.val.item.itemId = id := by simpa using hm
    obtain ⟨info, hinfo, h⟩ := Exec.bind_eq_ok.1 h
    rw [Exec.deref_eq_ok] at hinfo
    have hget := Cell.get?_of_not_isEmpty he
    have hfit := hL c.val hget (hi ▸ hid)
    have hq := hfit.1
    have hmax := hfit.2 info (hi ▸ hinfo)
    have hM := bounds16 info.slotMax
    have ha := bounds16 s.1
    have hkeep {quantity : Int16} (h₀ : 0 ≤ quantity.toInt)
        (h₁ : quantity.toInt ≤ info.slotMax.toInt) :
        CellFits env ids (c.write (c.val.setQuantity quantity)) := by
      intro it hit _
      rw [Cell.get?_write he, Option.some.injEq] at hit
      subst hit
      refine ⟨h₀, fun info' hinfo' => ?_⟩
      rw [InventoryItem.item_setQuantity, hi, hinfo] at hinfo'
      cases hinfo'
      exact h₁
    split at h
    · rename_i heq
      cases h
      split at heq
      · rename_i hgt
        -- The stack gets full.
        cases heq
        have hroom := sub16 (a := info.slotMax) (b := c.val.quantity) (by omega) (by omega)
        have hsub := sub16 (a := s.1) (b := info.slotMax - c.val.quantity) (by omega) (by omega)
        refine ⟨hkeep (by omega) le_rfl, ?_, fun hs => ?_, fun _ => ?_⟩
        · rw [Cell.get?_write he, hget, one_some, one_some, stackCount, stackCount]
          simp only [InventoryItem.item_setQuantity, InventoryItem.quantity_setQuantity, hi, hsub,
            hroom, eq_comm (a := id)]
          split <;> omega
        · rw [beq_iff_eq.1 hs]
          rfl
        · change 0 < (s.1 - (info.slotMax - c.val.quantity)).toInt
          omega
      · rename_i hle
        cases heq
        have hadd := add16 (a := c.val.quantity) (b := s.1) (by omega) (by omega)
        refine ⟨hkeep (by omega) (by omega), ?_, fun _ => zero16, (by simp)⟩
        rw [Cell.get?_write he, hget, one_some, one_some, stackCount, stackCount]
        simp only [InventoryItem.item_setQuantity, InventoryItem.quantity_setQuantity, hi, hadd,
          zero16, eq_comm (a := id)]
        split <;> omega
  · cases h
    refine ⟨hL, rfl, fun hs => ?_, fun _ => hQ⟩
    rw [beq_iff_eq.1 hs]
    rfl

/-- Filling an empty slot keeps the books. -/
theorem freshBody_step {wid : UInt32}
    (hM : ∀ info, env.itemInfo id = some info → 0 ≤ info.slotMax.toInt) {i : Fin maxItemCount}
    {c : Cell InventoryItem} {s : Fresh} {out : Out (Cell InventoryItem) _}
    (h : freshBody env id k wid i c s = .ok out) (hL : CellFits env ids c)
    (hQ : 0 < s.amount.toInt) (x : UInt32) :
    CellFits env ids out.cell ∧
      one (stackCount x) out.cell.get? + (if x = id then out.state.amount.toInt else 0) =
        one (stackCount x) c.get? + (if x = id then s.amount.toInt else 0) ∧
      (out.stop = true → out.state.amount.toInt = 0) ∧
      (out.stop = false → 0 < out.state.amount.toInt) := by
  rw [freshBody] at h
  split at h
  · rename_i he
    obtain ⟨info, hinfo, h⟩ := Exec.bind_eq_ok.1 h
    rw [Exec.deref_eq_ok] at hinfo
    have hmax := hM info hinfo
    have hM := bounds16 info.slotMax
    have ha := bounds16 s.amount
    have hkeep {quantity : Int16} (h₀ : 0 ≤ quantity.toInt)
        (h₁ : quantity.toInt ≤ info.slotMax.toInt) :
        CellFits env ids (Cell.full (freshItem id quantity c.val)) := by
      intro it hit _
      cases hit
      refine ⟨h₀, fun info' hinfo' => ?_⟩
      cases hinfo.symm.trans hinfo'
      exact h₁
    split at h
    · rename_i heq
      cases h
      split at heq
      · rename_i hgt
        -- The slot gets full.
        cases heq
        have hsub := sub16 (a := s.amount) (b := info.slotMax) (by omega) (by omega)
        refine ⟨hkeep hmax le_rfl, ?_, fun hs => ?_, fun _ => ?_⟩
        · rw [Cell.get?_of_isEmpty he, one_none, Cell.get?_full, one_some, stackCount, freshItem]
          simp only [hsub, eq_comm (a := id)]
          split <;> omega
        · rw [beq_iff_eq.1 hs]
          rfl
        · change 0 < (s.amount - info.slotMax).toInt
          omega
      · rename_i hle
        cases heq
        refine ⟨hkeep hQ.le (by omega), ?_, fun _ => zero16, (by simp)⟩
        rw [Cell.get?_of_isEmpty he, one_none, Cell.get?_full, one_some, stackCount, freshItem]
        simp only [zero16, eq_comm (a := id)]
        split <;> omega
  · cases h
    refine ⟨hL, rfl, fun hs => ?_, fun _ => hQ⟩
    rw [beq_iff_eq.1 hs]
    rfl

end Bodies

/-! ## One request -/

section One

variable {env : Env} {ids : List UInt32} {id : UInt32}

namespace Gain

/-- How much of an item is held. -/
def held (g : Gain) (x : UInt32) : ℤ := heldIn g.invs g.equipInv x

/-- The stacks of the items fit. -/
def Fits (env : Env) (ids : List UInt32) (g : Gain) : Prop :=
  ∀ k i, i.val < (g.invs k).slotCount → CellFits env ids ((g.invs k).items i)

theorem Fits.setInv {g : Gain} (hg : g.Fits env ids) {k : Fin inventoryCount}
    {items : Fin maxItemCount → Cell InventoryItem}
    (hi : ∀ i, i.val < (g.invs k).slotCount → CellFits env ids (items i)) :
    (g.setInv k items).Fits env ids := by
  intro k' i hlt
  by_cases hk : k' = k
  · subst hk
    rw [invs_setInv_self] at hlt ⊢
    exact hi i hlt
  · rw [invs_setInv_of_ne g hk] at hlt ⊢
    exact hg k' i hlt

end Gain

/-- What is filled into existing stacks is held. -/
theorem fillStacks_spec {k : Fin inventoryCount} {inv : Inventory InventoryItem} {amount amount' : Int16}
    {mods mods' : List InventoryModify} {items : Fin maxItemCount → Cell InventoryItem}
    (h : fillStacks env id k inv (amount, mods) = .ok (items, amount', mods'))
    (hid : id ∈ ids) (hfits : ∀ i, i.val < inv.slotCount → CellFits env ids (inv.items i))
    (hpos : 0 < amount.toInt) :
    (∀ i, i.val < inv.slotCount → CellFits env ids (items i)) ∧
      (∀ x, (inv.withItems items).weigh (stackCount x) = inv.weigh (stackCount x) +
        if x = id then amount.toInt - amount'.toInt else 0) ∧
      0 ≤ amount'.toInt := by
  rw [fillStacks] at h
  split at h
  · cases h
    exact ⟨hfits, fun x => by simp [Inventory.withItems], hpos.le⟩
  · have hrule (x : UInt32) := sweep_inventory h (stackCount x)
      (fun s => if x = id then s.1.toInt else 0) (L := CellFits env ids) (R := fun _ => True)
      (Q := fun s => 0 < s.1.toInt) (B := fun s => s.1.toInt = 0)
      (fun i c s out hL hQ hout => by
        obtain ⟨hL', hw, hB, hgo⟩ := fillBody_step hid hout hL hQ x
        exact ⟨hL', hw, hB, fun hs => ⟨hgo hs, trivial⟩⟩) hfits hpos
    refine ⟨(hrule id).1, fun x => books (hrule x).2.1, ?_⟩
    rcases (hrule id).2.2 with hB | ⟨hQ, _⟩
    · exact hB.ge
    · exact hQ.le

/-- What is given by a request is held. -/
theorem giveOne_spec {wid : UInt32} {amount : Int16} {g g' : Gain}
    (h : giveOne env wid id amount g = .ok (some g')) (hid : id ∈ ids) (hg : g.Fits env ids)
    (hM : ∀ info, env.itemInfo id = some info → 0 ≤ info.slotMax.toInt) :
    g'.Fits env ids ∧ ∀ x, g'.held x = g.held x + if x = id then max amount.toInt 0 else 0 := by
  rw [giveOne] at h
  split at h
  · rename_i hpos
    rw [lt16, zero16] at hpos
    rw [max_eq_left hpos.le]
    split at h
    · rename_i he
      obtain ⟨⟨items, a, mods⟩, hs, h⟩ := Exec.bind_eq_ok.1 h
      simp only at h
      split at h
      · cases h
      · rename_i ha
        rw [lt16, zero16] at ha
        cases h
        have hrule (x : UInt32) := sweep_inventory hs (equipCount x)
          (fun s => if x = id then s.1.toInt else 0) (L := fun _ => True) (R := fun _ => True)
          (Q := fun s => 0 < s.1.toInt) (B := fun s => s.1.toInt = 0)
          (fun i c s out _ hQ hout => by
            obtain ⟨hw, hB, hgo⟩ := giveEquipBody_step hout hQ x
            exact ⟨trivial, hw, hB, fun hs => ⟨hgo hs, trivial⟩⟩)
          (fun _ _ => trivial) hpos
        have hzero : a.toInt = 0 := by
          rcases (hrule id).2.2 with hB | ⟨hQ, _⟩
          · exact hB
          · exact absurd hQ ha
        refine ⟨hg, heldIn_equip he fun x => ?_⟩
        have := books (hrule x).2.1
        rwa [hzero, sub_zero] at this
    · rename_i he
      rw [Bool.not_eq_true] at he
      obtain ⟨k, hk, h⟩ := Exec.bind_eq_ok.1 h
      obtain ⟨⟨items, a, mods⟩, hs, h⟩ := Exec.bind_eq_ok.1 h
      obtain ⟨hfits, hbooks, ha⟩ := fillStacks_spec hs hid (hg k) hpos
      simp only at h
      split at h
      · rename_i hne
        have ha' : 0 < a.toInt := lt_of_le_of_ne ha fun e => hne (eq16.2 (zero16.trans e)).symm
        obtain ⟨⟨items', s⟩, hs', h⟩ := Exec.bind_eq_ok.1 h
        simp only at h
        split at h
        · cases h
        · rename_i hs
          rw [lt16, zero16] at hs
          cases h
          have hrule (x : UInt32) := @sweep_inventory _ _ ((g.invs k).withItems items) _ _ _ _ hs'
            (stackCount x) (fun s => if x = id then s.amount.toInt else 0) (L := CellFits env ids)
            (R := fun _ => True) (Q := fun s => 0 < s.amount.toInt) (B := fun s => s.amount.toInt = 0)
            (fun i c s out hL hQ hout => by
              obtain ⟨hL', hw, hB, hgo⟩ := freshBody_step hM hout hL hQ x
              exact ⟨hL', hw, hB, fun hs => ⟨hgo hs, trivial⟩⟩) hfits ha'
          have hzero : s.amount.toInt = 0 := by
            rcases (hrule id).2.2 with hB | ⟨hQ, _⟩
            · exact hB
            · exact absurd hQ hs
          refine ⟨hg.setInv (hrule id).1, heldIn_update_inv he hk fun x => ?_⟩
          have hbooks' := books (hrule x).2.1
          simp only [hzero] at hbooks'
          calc ((g.invs k).withItems items').weigh (stackCount x)
              = ((g.invs k).withItems items).weigh (stackCount x) +
                  if x = id then a.toInt - 0 else 0 := hbooks'
            _ = (g.invs k).weigh (stackCount x) + if x = id then amount.toInt else 0 := by
                rw [hbooks x]
                split <;> omega
      · rename_i hz
        cases h
        rw [ne_eq, not_not, eq16, zero16] at hz
        refine ⟨hg.setInv hfits, heldIn_update_inv he hk fun x => ?_⟩
        rw [hbooks x, hz, sub_zero]
  · rename_i hneg
    rw [lt16, zero16] at hneg
    cases h
    rw [max_eq_right (by omega)]
    exact ⟨hg, fun x => by simp⟩

end One

/-! ## The whole list -/

/-- The sum of the counts of an item. -/
def requested (l : Amounts) (x : UInt32) : ℤ :=
  (l.map fun r => if x = r.1 then r.2.toInt else 0).sum

/-- The sum of the negative counts of an item. -/
def takenAway (l : Amounts) (x : UInt32) : ℤ :=
  (l.map fun r => if x = r.1 then min r.2.toInt 0 else 0).sum

section All

variable {env : Env} {ids : List UInt32}

@[simp] theorem takenAway_cons (r : UInt32 × Int16) (l : Amounts) (x : UInt32) :
    takenAway (r :: l) x = (if x = r.1 then min r.2.toInt 0 else 0) + takenAway l x := rfl

end All

/-! ## The function -/

/-- The stacks of the requested items fit, and their slots can hold something. -/
structure Requestable (env : Env) (chr : Character) (items : Amounts) : Prop where
  fits : ∀ k i it, (chr.inventory k).view i = some it → it.item.itemId ∈ items.map Prod.fst →
    StackFits env it
  slotMax_nonneg : ∀ id ∈ items.map Prod.fst, ∀ info, env.itemInfo id = some info →
    0 ≤ info.slotMax.toInt

end Syrup
