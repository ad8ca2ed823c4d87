import Syrup.Client.Action
import Syrup.Client.GainItems.Exact
import Syrup.Client.MoveItem.Conserve

/-!
# Legal stacks

Every stack that is shown should hold at least one of its item, or none at all if the item is
rechargeable, and at most what a slot takes (`WellStacked`). This is so in every state of a run from
such a state whose steps are all safe (`wellStacked_run`), that is, in which

* two different stacks that are put together do not have exactly what a slot takes: the source
  would be left with a quantity of `0`;
* an exchange of equipment, which exchanges payloads in the set-up inventory, does not bring to light
  a stale payload that is not legal;
* nothing is consumed of a rechargeable stack of which nothing is left.
-/

namespace Syrup

open Sweep Slots Machine

/-! ## Stacks -/

/-- The least quantity of a stack of an item. -/
def leastQuantity (id : UInt32) : ℤ := if itemIsRechargeable id then 0 else 1

theorem leastQuantity_bounds (id : UInt32) : 0 ≤ leastQuantity id ∧ leastQuantity id ≤ 1 := by
  rw [leastQuantity]
  split <;> decide

/-- A stack of an item can have a quantity. -/
def QuantityLegal (env : Env) (id : UInt32) (quantity : Int16) : Prop :=
  ∃ info, env.itemInfo id = some info ∧ leastQuantity id ≤ quantity.toInt ∧
    quantity.toInt ≤ info.slotMax.toInt

/-- If a slot shows a stack, the stack is legal. -/
def CellLegal (env : Env) (c : Cell InventoryItem) : Prop :=
  c.isEmpty = false → QuantityLegal env c.val.item.itemId c.val.quantity

/-- All stacks in an inventory are legal. -/
def InventoryLegal (env : Env) (inv : Inventory InventoryItem) : Prop :=
  ∀ i, i.val < inv.slotCount → CellLegal env (inv.items i)

/-- All stacks are legal. -/
def WellStacked (env : Env) (chr : Character) : Prop :=
  ∀ k, InventoryLegal env (chr.inventory k)

/-- No slot takes less than nothing of an item. -/
def SlotsTake (env : Env) : Prop :=
  ∀ id info, env.itemInfo id = some info → 0 ≤ info.slotMax.toInt

section Cells

variable {env : Env} {c : Cell InventoryItem}

theorem cellLegal_emptied : CellLegal env c.emptied := nofun

/-- A rewritten slot is legal if its quantity is, in case it shows something. -/
theorem cellLegal_write {it : InventoryItem}
    (h : c.isEmpty = false → QuantityLegal env it.item.itemId it.quantity) :
    CellLegal env (c.write it) := h

theorem CellLegal.fits {ids : List UInt32} (h : CellLegal env c) : CellFits env ids c := by
  intro it hit _
  obtain ⟨he, rfl⟩ := Cell.get?_eq_some.1 hit
  obtain ⟨info, hinfo, hlo, hhi⟩ := h he
  have := (leastQuantity_bounds c.val.item.itemId).1
  refine ⟨by omega, fun info' hinfo' => ?_⟩
  cases hinfo.symm.trans hinfo'
  exact hhi

theorem InventoryLegal.set {inv : Inventory InventoryItem} (h : InventoryLegal env inv)
    {i : Fin maxItemCount} (hc : i.val < inv.slotCount → CellLegal env c) :
    InventoryLegal env (inv.set i c) := by
  intro j hj
  by_cases hji : j = i
  · subst hji
    rw [Inventory.items_set_self]
    exact hc hj
  · rw [Inventory.items_set_of_ne hji]
    exact h j hj

theorem WellStacked.setInventory {chr : Character} (h : WellStacked env chr)
    {k : Fin inventoryCount} {inv : Inventory InventoryItem} (hinv : InventoryLegal env inv) :
    WellStacked env (chr.setInventory k inv) := by
  intro k'
  by_cases hk : k' = k
  · subst hk
    rwa [Character.inventory_setInventory_self]
  · rw [Character.inventory_setInventory_of_ne hk]
    exact h k'

end Cells

/-! ## `client_gain_items` -/

section GainItems

variable {env : Env} {id : UInt32} {k : Fin inventoryCount} {j : Fin maxItemCount}
  {c : Cell InventoryItem}

/-- Taking from a slot leaves it legal. -/
theorem takeItemBody_legal {s : Int16 × List InventoryModify}
    {out : Out (Cell InventoryItem) (Int16 × List InventoryModify)}
    (h : takeItemBody id k j c s = .ok out) (hL : CellLegal env c) (hs : s.1.toInt < 0) :
    CellLegal env out.cell := by
  rw [takeItemBody] at h
  split at h
  · rename_i hm
    obtain ⟨he, hi⟩ : c.isEmpty = false ∧ c.val.item.itemId = id := by simpa using hm
    obtain ⟨info, hinfo, hlo, hhi⟩ := hL he
    have hleast := leastQuantity_bounds c.val.item.itemId
    have hb := bounds16 c.val.quantity
    have ha := bounds16 s.1
    split at h
    · rename_i hpos
      cases h
      have hadd := add16 (a := c.val.quantity) (b := s.1) (by omega) (by omega)
      refine cellLegal_write fun _ => ⟨info, hinfo, ?_⟩
      rw [InventoryItem.item_setQuantity, InventoryItem.quantity_setQuantity, hadd]
      omega
    · cases h
      exact cellLegal_emptied
  · cases h
    exact hL

/-- Filling up a stack leaves it legal. -/
theorem fillBody_legal {s : Int16 × List InventoryModify}
    {out : Out (Cell InventoryItem) (Int16 × List InventoryModify)}
    (h : fillBody env id k j c s = .ok out) (hL : CellLegal env c) (hs : 0 < s.1.toInt) :
    CellLegal env out.cell := by
  rw [fillBody] at h
  split at h
  · rename_i hm
    obtain ⟨he, hi⟩ : c.isEmpty = false ∧ c.val.item.itemId = id := by simpa using hm
    obtain ⟨info, hinfo, hlo, hhi⟩ := hL he
    have hleast := leastQuantity_bounds c.val.item.itemId
    have hb := bounds16 c.val.quantity
    have ha := bounds16 s.1
    have hM := bounds16 info.slotMax
    obtain ⟨info', hinfo', h⟩ := Exec.bind_eq_ok.1 h
    rw [Exec.deref_eq_ok, ← hi] at hinfo'
    cases hinfo.symm.trans hinfo'
    split at h
    · rename_i heq
      cases h
      refine cellLegal_write fun _ => ⟨info, hinfo, ?_⟩
      rw [InventoryItem.item_setQuantity, InventoryItem.quantity_setQuantity]
      split at heq
      · cases heq
        omega
      · cases heq
        have hadd := add16 (a := c.val.quantity) (b := s.1) (by omega) (by omega)
        omega
  · cases h
    exact hL

/-- A slot takes a legal stack of an item. -/
def Stackable (env : Env) (id : UInt32) : Prop :=
  ∃ info, env.itemInfo id = some info ∧ leastQuantity id ≤ info.slotMax.toInt

/-- Filling an empty slot leaves it legal, if a slot takes a legal stack of the item; and if it does
    not, the loop does not stop before the end. -/
theorem freshBody_legal (henv : SlotsTake env) {wid : UInt32} {s : Fresh}
    {out : Out (Cell InventoryItem) Fresh} (h : freshBody env id k wid j c s = .ok out)
    (hL : Stackable env id → CellLegal env c) (hs : 0 < s.amount.toInt) :
    (Stackable env id → CellLegal env out.cell) ∧ (out.stop = true → Stackable env id) ∧
      (out.stop = false → 0 < out.state.amount.toInt) := by
  rw [freshBody] at h
  split at h
  · obtain ⟨info, hinfo, h⟩ := Exec.bind_eq_ok.1 h
    rw [Exec.deref_eq_ok] at hinfo
    have hM := henv id info hinfo
    have hleast := leastQuantity_bounds id
    have hb := bounds16 info.slotMax
    have ha := bounds16 s.amount
    split at h
    · rename_i heq
      cases h
      split at heq
      · rename_i hgt
        cases heq
        have hsub := sub16 (a := s.amount) (b := info.slotMax) (by omega) (by omega)
        refine ⟨?_, fun hstop => ?_, fun _ => ?_⟩
        · rintro ⟨info', hinfo', hle⟩ _
          refine ⟨info', hinfo', ?_⟩
          cases hinfo.symm.trans hinfo'
          exact ⟨hle, le_rfl⟩
        · have hzero : (s.amount - info.slotMax).toInt = 0 := by
            rw [beq_iff_eq.1 hstop]
            rfl
          omega
        · change 0 < (s.amount - info.slotMax).toInt
          omega
      · cases heq
        refine ⟨fun _ _ => ⟨info, hinfo, ?_⟩, fun _ => ⟨info, hinfo, by omega⟩, (by simp)⟩
        change leastQuantity id ≤ s.amount.toInt ∧ s.amount.toInt ≤ info.slotMax.toInt
        omega
  · cases h
    refine ⟨hL, fun hstop => ?_, fun _ => hs⟩
    have hzero : s.amount.toInt = 0 := by
      rw [beq_iff_eq.1 hstop]
      rfl
    omega

/-- The stacks that are worked on are legal. -/
def Gain.Legal (env : Env) (g : Gain) : Prop := ∀ k, InventoryLegal env (g.invs k)

theorem Gain.Legal.setInv {g : Gain} (h : g.Legal env) {k : Fin inventoryCount}
    {items : Fin maxItemCount → Cell InventoryItem}
    (hinv : InventoryLegal env ((g.invs k).withItems items)) : (g.setInv k items).Legal env := by
  intro k'
  by_cases hk : k' = k
  · subst hk
    rwa [Gain.invs_setInv_self]
  · rw [Gain.invs_setInv_of_ne g hk]
    exact h k'

/-- Taking away keeps the stacks legal. -/
theorem takeOne_legal {amount amount' : Int16} {g g' : Gain}
    (h : takeOne id amount g = .ok (some (amount', g'))) (hg : g.Legal env) : g'.Legal env := by
  rw [takeOne] at h
  split at h
  · rename_i hneg
    rw [lt16, zero16] at hneg
    split at h
    · obtain ⟨⟨items, a, mods⟩, _, h⟩ := Exec.bind_eq_ok.1 h
      simp only at h
      split at h
      · cases h
      · cases h
        exact hg
    · obtain ⟨k, _, h⟩ := Exec.bind_eq_ok.1 h
      obtain ⟨⟨items, a, mods⟩, hs, h⟩ := Exec.bind_eq_ok.1 h
      cases h
      refine hg.setInv (sweep_inventory hs (fun _ => 0) (fun _ => 0) (L := CellLegal env)
        (R := fun _ => True) (Q := fun s => s.1.toInt < 0) (B := fun _ => True)
        (fun i c s out hL hQ hout => ?_) (hg k) hneg).1
      obtain ⟨_, _, _, hgo⟩ := takeItemBody_step (List.mem_singleton_self id) hout hL.fits hQ id
      exact ⟨takeItemBody_legal hout hL hQ, by cases out.cell.get? <;> cases c.get? <;> rfl,
        fun _ => trivial, fun hs => ⟨(hgo hs).1.2, trivial⟩⟩
  · cases h
    exact hg

/-- Filling up stacks keeps them legal. -/
theorem fillStacks_legal {amount amount' : Int16} {inv : Inventory InventoryItem}
    {mods mods' : List InventoryModify} {items : Fin maxItemCount → Cell InventoryItem}
    (h : fillStacks env id k inv (amount, mods) = .ok (items, amount', mods'))
    (hpos : 0 < amount.toInt) (hinv : InventoryLegal env inv) :
    InventoryLegal env (inv.withItems items) ∧ 0 ≤ amount'.toInt := by
  rw [fillStacks] at h
  split at h
  · cases h
    exact ⟨hinv, hpos.le⟩
  · obtain ⟨hL, _, hend⟩ := sweep_inventory h (fun _ => 0) (fun _ => 0) (L := CellLegal env)
      (R := fun _ => True) (Q := fun s => 0 < s.1.toInt) (B := fun s => s.1.toInt = 0)
      (fun i c s out hL hQ hout => by
        obtain ⟨_, _, hstop, hgo⟩ :=
          fillBody_step (List.mem_singleton_self id) hout hL.fits hQ id
        exact ⟨fillBody_legal hout hL hQ, by cases out.cell.get? <;> cases c.get? <;> rfl, hstop,
          fun hs => ⟨hgo hs, trivial⟩⟩) hinv hpos
    refine ⟨hL, ?_⟩
    rcases hend with hB | ⟨hQ, _⟩
    · exact hB.ge
    · exact hQ.le

/-- Giving keeps the stacks legal. -/
theorem giveOne_legal (henv : SlotsTake env) {wid : UInt32} {amount : Int16} {g g' : Gain}
    (h : giveOne env wid id amount g = .ok (some g')) (hg : g.Legal env) : g'.Legal env := by
  rw [giveOne] at h
  split at h
  · rename_i hpos
    rw [lt16, zero16] at hpos
    split at h
    · obtain ⟨⟨items, a, mods⟩, _, h⟩ := Exec.bind_eq_ok.1 h
      simp only at h
      split at h
      · cases h
      · cases h
        exact hg
    · obtain ⟨k, _, h⟩ := Exec.bind_eq_ok.1 h
      obtain ⟨⟨items, a, mods⟩, hs, h⟩ := Exec.bind_eq_ok.1 h
      obtain ⟨hlegal, ha⟩ := fillStacks_legal hs hpos (hg k)
      simp only at h
      split at h
      · rename_i hne
        have ha' : 0 < a.toInt := lt_of_le_of_ne ha fun e => hne (eq16.2 (zero16.trans e)).symm
        obtain ⟨⟨items', s⟩, hs', h⟩ := Exec.bind_eq_ok.1 h
        simp only at h
        split at h
        · cases h
        · rename_i hs
          rw [lt16, zero16] at hs
          cases h
          obtain ⟨hL, _, hend⟩ := @sweep_inventory _ _ ((g.invs k).withItems items) _ _ _ _ hs'
            (fun _ => 0) (fun _ => 0) (L := fun c => Stackable env id → CellLegal env c)
            (R := fun _ => True) (Q := fun s => 0 < s.amount.toInt) (B := fun _ => Stackable env id)
            (fun i c s out hL hQ hout => by
              obtain ⟨hL', hstop, hgo⟩ := freshBody_legal henv hout hL hQ
              exact ⟨hL', by cases out.cell.get? <;> cases c.get? <;> rfl, hstop,
                fun hs => ⟨hgo hs, trivial⟩⟩) (fun i hi _ => hlegal i hi) ha'
          have hstackable := hend.resolve_right fun hQ => hs hQ.1
          exact hg.setInv fun i hi => hL i hi hstackable
      · cases h
        exact hg.setInv hlegal
  · cases h
    exact hg

/-- Taking away all that a list says keeps the stacks legal. -/
theorem takeAll_legal {l l' : Amounts} {g g' : Gain} (h : takeAll l g = .ok (some (l', g')))
    (hg : g.Legal env) : g'.Legal env := by
  induction l generalizing g l' g' with
  | nil =>
    cases h
    exact hg
  | cons r l ih =>
    obtain ⟨o, hone, h⟩ := Exec.bind_eq_ok.1 h
    cases o with
    | none => cases h
    | some o =>
      obtain ⟨o', hall, h⟩ := Exec.bind_eq_ok.1 h
      cases o' with
      | none => cases h
      | some o' =>
        cases h
        exact ih hall (takeOne_legal hone hg)

/-- Giving all that a list says keeps the stacks legal. -/
theorem giveAll_legal (henv : SlotsTake env) {wid : UInt32} {l : Amounts} {g g' : Gain}
    (h : giveAll env wid l g = .ok (some g')) (hg : g.Legal env) : g'.Legal env := by
  induction l generalizing g with
  | nil =>
    cases h
    exact hg
  | cons r l ih =>
    obtain ⟨o, hone, h⟩ := Exec.bind_eq_ok.1 h
    cases o with
    | none => cases h
    | some g₁ => exact ih h (giveOne_legal henv hone hg)

end GainItems

/-! ## The other calls -/

section Calls

variable {env : Env}

/-- Filling up a stack by picking up leaves it legal, and so is what is left to be put
    elsewhere. -/
theorem pickUpBody_legal {alloc : Bool} {room : ℕ} {chr : Character} {info : ItemInfo}
    {item : InventoryItem} {k : Fin inventoryCount} {j : Fin maxItemCount}
    {c : Cell InventoryItem} {s : PickUp} {out : Out (Cell InventoryItem) PickUp}
    (hinfo : env.itemInfo item.item.itemId = some info)
    (h : pickUpBody env alloc room chr info item k j c s = .ok out) (hL : CellLegal env c)
    (hs : 0 ≤ s.quantity.toInt ∧ s.quantity.toInt ≤ item.quantity.toInt) :
    CellLegal env out.cell ∧
      0 ≤ out.state.quantity.toInt ∧ out.state.quantity.toInt ≤ item.quantity.toInt := by
  rw [pickUpBody] at h
  split at h
  · rename_i hm
    obtain ⟨he, hi⟩ : c.isEmpty = false ∧ c.val.item.itemId = item.item.itemId := by simpa using hm
    obtain ⟨info', hinfo', hlo, hhi⟩ := hL he
    have hsame := hinfo'
    rw [hi, hinfo, Option.some.injEq] at hsame
    subst hsame
    have hleast := leastQuantity_bounds c.val.item.itemId
    have hb := bounds16 c.val.quantity
    have ha := bounds16 s.quantity
    have hM := bounds16 info.slotMax
    obtain ⟨set, _, h⟩ := Exec.bind_eq_ok.1 h
    split at h
    · rename_i heq
      cases h
      split at heq
      · cases heq
        have hroom := sub16 (a := info.slotMax) (b := c.val.quantity) (by omega) (by omega)
        have hsub := sub16 (a := s.quantity) (b := info.slotMax - c.val.quantity) (by omega)
          (by omega)
        refine ⟨cellLegal_write fun _ => ⟨info, hinfo', ?_⟩, ?_⟩
        · rw [InventoryItem.item_setQuantity, InventoryItem.quantity_setQuantity]
          omega
        · simp only [hsub, hroom]
          omega
      · cases heq
        have hadd := add16 (a := c.val.quantity) (b := s.quantity) (by omega) (by omega)
        refine ⟨cellLegal_write fun _ => ?_, ?_⟩
        · have hid : (stackOnto item s.quantity c.val).item.itemId = c.val.item.itemId := by
            rw [stackOnto]
            split <;> rfl
          refine ⟨info, hid.symm ▸ hinfo', ?_⟩
          rw [hid]
          change _ ≤ (c.val.quantity + s.quantity).toInt ∧ (c.val.quantity + s.quantity).toInt ≤ _
          omega
        · change (0 : ℤ) ≤ (0 : Int16).toInt ∧ (0 : Int16).toInt ≤ _
          rw [zero16]
          omega
  · cases h
    exact ⟨hL, hs⟩

/-- Picking up keeps the stacks legal. -/
theorem WellStacked.gainInventoryItem {alloc : Bool} {room : ℕ} {c c' : Client}
    {item : InventoryItem} {r : Option InventoryGainResult} (h : WellStacked env c.character)
    (hitem : 1 ≤ item.quantity.toInt ∧ ∀ info, env.itemInfo item.item.itemId = some info →
      item.quantity.toInt ≤ info.slotMax.toInt)
    (hcall : clientGainInventoryItem env alloc room c item = .ok (r, c')) :
    WellStacked env c'.character := by
  have hleast := leastQuantity_bounds item.item.itemId
  obtain ⟨set, hc⟩ | ⟨_, ⟨info, hinfo⟩, k, j, _, _, hc⟩ |
    ⟨_, info, k, items, s, set, hinfo, _, hsweep, _, hend⟩ := clientGainInventoryItem_cases hcall
  · rw [hc]
    exact h
  · have hle := hitem.2 info hinfo
    rw [hc]
    exact h.setInventory ((h k).set fun _ _ => ⟨info, hinfo, hleast.2.trans hitem.1, hle⟩)
  · have hle := hitem.2 info hinfo
    -- What is left of the quantity is never more than it was.
    obtain ⟨hlegal, hq⟩ := sweep_inv
      (P := fun items (s : PickUp) => InventoryLegal env ((c.character.inventory k).withItems items) ∧
        0 ≤ s.quantity.toInt ∧ s.quantity.toInt ≤ item.quantity.toInt) hsweep
      (fun i hi items s out hP hout => by
        have hi := Inventory.mem_slots.1 hi
        obtain ⟨hL, hq⟩ := pickUpBody_legal hinfo hout (hP.1 i hi) hP.2
        exact ⟨@InventoryLegal.set _ _ ((c.character.inventory k).withItems items) hP.1 _ fun _ => hL,
          hq⟩) ⟨h k, by change (0 : ℤ) ≤ item.quantity.toInt; omega, le_rfl⟩
    obtain ⟨_, hc⟩ | ⟨hne, j, _, hc⟩ := hend
    · rw [hc]
      exact @WellStacked.setInventory _ (c.character.setItemQuests set) h _ _ hlegal
    · rw [hc]
      refine @WellStacked.setInventory _ (c.character.setItemQuests set) h _ _
        (hlegal.set fun _ _ => ⟨info, hinfo, ?_⟩)
      have hpos : s.quantity.toInt ≠ 0 := fun e => hne (eq16.2 (e.trans zero16.symm))
      change leastQuantity item.item.itemId ≤ s.quantity.toInt ∧ s.quantity.toInt ≤ _
      omega

/-- Rewriting a slot with a legal one keeps the stacks legal. -/
theorem WellStacked.setItem {chr : Character} (h : WellStacked env chr) {k : Fin inventoryCount}
    {i : Fin maxItemCount} {c : Cell InventoryItem}
    (hc : i.val < (chr.inventory k).slotCount → CellLegal env c) :
    WellStacked env (chr.setItem k i c) :=
  h.setInventory ((h k).set hc)

/-- Another quantity of the same item. -/
theorem cellLegal_setQuantity {c : Cell InventoryItem} (h : CellLegal env c) {quantity : Int16}
    (hq : c.isEmpty = false → leastQuantity c.val.item.itemId ≤ quantity.toInt ∧
      quantity.toInt ≤ c.val.quantity.toInt) :
    CellLegal env (c.write (c.val.setQuantity quantity)) := by
  refine cellLegal_write fun he => ?_
  obtain ⟨info, hinfo, _, hhi⟩ := h he
  obtain ⟨hlo, hle⟩ := hq he
  exact ⟨info, hinfo, hlo, hle.trans hhi⟩

/-- Taking at least one from a stack that has enough leaves it legal. -/
theorem removeFrom_legal {c : Cell InventoryItem} {amount : Int16} (h : CellLegal env c)
    (hamount : 1 ≤ amount.toInt)
    (henough : itemIsRechargeable c.val.item.itemId = false → amount ≤ c.val.quantity) :
    CellLegal env (removeFrom c amount) := by
  rw [removeFrom]
  split
  · exact cellLegal_emptied
  · rename_i hne
    simp only [Bool.or_eq_true, beq_iff_eq, not_or, Bool.not_eq_true] at hne
    have hle := henough hne.1
    have hq : c.val.quantity.toInt ≠ amount.toInt := fun e => hne.2 (eq16.2 e)
    rw [le16] at hle
    have hb := bounds16 c.val.quantity
    have hsub := sub16 (a := c.val.quantity) (b := amount) (by omega) (by omega)
    refine cellLegal_setQuantity h fun _ => ?_
    rw [hsub]
    have := leastQuantity_bounds c.val.item.itemId
    omega

/-- Shooting at least one from a slot that has enough leaves it legal. -/
theorem shootFrom_legal {c : Cell InventoryItem} {amount : Int16} (h : CellLegal env c)
    (hamount : 1 ≤ amount.toInt) (henough : amount ≤ c.val.quantity) :
    CellLegal env (shootFrom c amount) := by
  rw [shootFrom]
  split
  · exact cellLegal_emptied
  · rename_i hne
    simp only [Bool.and_eq_true, Bool.not_eq_true', beq_iff_eq, not_and] at hne
    rw [le16] at henough
    have hb := bounds16 c.val.quantity
    have hsub := sub16 (a := c.val.quantity) (b := amount) (by omega) (by omega)
    refine cellLegal_setQuantity h fun _ => ?_
    rw [hsub, leastQuantity]
    split
    · omega
    · rename_i hr
      rw [Bool.not_eq_true] at hr
      have hq : c.val.quantity.toInt ≠ amount.toInt := fun e => hne hr (eq16.2 e)
      omega

/-- Using one of a stack leaves it legal, unless it is rechargeable and nothing is left of
    it. -/
theorem useFrom_legal {c : Cell InventoryItem} (h : CellLegal env c)
    (hsome : c.isEmpty = false → itemIsRechargeable c.val.item.itemId = true →
      c.val.quantity ≠ 0) : CellLegal env (useFrom c) := by
  rw [useFrom]
  split
  · exact cellLegal_emptied
  · rename_i hne
    rw [Cell.val_write, InventoryItem.quantity_setQuantity] at hne
    refine cellLegal_setQuantity h fun he => ?_
    obtain ⟨info, _, hlo, _⟩ := h he
    have hb := bounds16 c.val.quantity
    have hleast := leastQuantity_bounds c.val.item.itemId
    have hsub := sub16 (a := c.val.quantity) (b := 1) (by rw [one16]; omega) (by rw [one16]; omega)
    rw [one16] at hsub
    have hne' : (c.val.quantity - 1).toInt ≠ 0 := fun e => hne (eq16.2 (e.trans zero16.symm))
    have hpos : 1 ≤ c.val.quantity.toInt := by
      by_cases hr : itemIsRechargeable c.val.item.itemId = true
      · have : c.val.quantity.toInt ≠ 0 := fun e => hsome he hr (eq16.2 (e.trans zero16.symm))
        omega
      · rw [leastQuantity, if_neg hr] at hlo
        exact hlo
    omega

/-- Removing keeps the stacks legal. -/
theorem WellStacked.removeStack {chr : Character} (h : WellStacked env chr) {k : Fin inventoryCount}
    {i : Fin maxItemCount} {amount : Int16} (hi : i.val < (chr.inventory k).slotCount)
    (hamount : 1 ≤ amount.toInt)
    (henough : itemIsRechargeable ((chr.inventory k).items i).val.item.itemId = false →
      amount ≤ ((chr.inventory k).items i).val.quantity) :
    WellStacked env (removeStack chr k i amount) := by
  have hset : WellStacked env (chr.setItem k i (removeFrom ((chr.inventory k).items i) amount)) :=
    h.setItem fun _ => removeFrom_legal (h k i hi) hamount henough
  rw [Syrup.removeStack]
  split
  · exact hset
  · exact hset

/-- Looking for the next projectile changes no stack. -/
theorem WellStacked.finishShot {c : Client} {chr : Character} (h : WellStacked env chr)
    (active slot : Fin maxItemCount) :
    WellStacked env (finishShot c chr active slot).character := by
  rw [Syrup.finishShot]
  split
  · exact h
  · exact h

/-- Shooting keeps the stacks legal. -/
theorem WellStacked.useProjectile {c c' : Client} {amount : Int16} {b : Bool}
    (h : WellStacked env c.character) (hamount : 1 ≤ amount.toInt)
    (hcall : clientUseProjectile c amount = .ok (b, c')) : WellStacked env c'.character := by
  obtain rfl | ⟨_, active, _, ⟨_, _, rfl⟩ | ⟨slot, hslot, rfl⟩⟩ := clientUseProjectile_cases hcall
  · exact h
  · exact WellStacked.finishShot h active active
  · obtain ⟨⟨_, hlt, hq⟩, _⟩ := firstFrom_eq_some.1 hslot
    exact WellStacked.finishShot (h.setItem fun _ => shootFrom_legal (h _ _ hlt) hamount
      (by simpa using hq)) active slot

/-- Recharging keeps the stacks legal. -/
theorem WellStacked.recharge {c c' : Client} {slot : UInt16} {r : ClientResultType}
    (h : WellStacked env c.character) (hcall : clientRecharge env c slot = .ok (r, c')) :
    WellStacked env c'.character := by
  obtain hc | ⟨i, info, m, hi, he, hr, hinfo, hlt, hc⟩ := clientRecharge_cases hcall
  · rwa [hc]
  · rw [hc]
    change WellStacked env (c.character.setItem _ _ _)
    refine h.setItem fun hi => cellLegal_write fun he => ⟨info, hinfo, ?_, le_rfl⟩
    obtain ⟨_, _, hlo, _⟩ := h _ _ hi he
    rw [lt16] at hlt
    rw [InventoryItem.item_setQuantity, InventoryItem.quantity_setQuantity]
    omega

end Calls

/-! ## Moving -/

section Moving

variable {env : Env} {inv : Inventory InventoryItem} {src dst : Fin maxItemCount}

/-- If a slot shows something, the payload of another one is a legal stack. -/
def TakesLegal (env : Env) (inv : Inventory InventoryItem) (i j : Fin maxItemCount) : Prop :=
  i.val < inv.slotCount → (inv.items i).isEmpty = false →
    QuantityLegal env (inv.items j).val.item.itemId (inv.items j).val.quantity

theorem InventoryLegal.moveCell (h : InventoryLegal env inv) (hs : src.val < inv.slotCount) :
    InventoryLegal env (inv.moveCell src dst) :=
  (h.set fun _ => h src hs).set fun _ => cellLegal_emptied

/-- Exchanging payloads leaves an inventory legal if the slots that show something get what is
    legal. -/
theorem InventoryLegal.swapVals (h : InventoryLegal env inv)
    (hs : TakesLegal env inv src dst) (hd : TakesLegal env inv dst src) :
    InventoryLegal env (inv.swapVals src dst) := by
  intro j hj
  rw [Inventory.items_swapVals]
  by_cases hjs : j = src
  · subst hjs
    rw [Function.update_self]
    exact cellLegal_write (hs hj)
  · rw [Function.update_of_ne hjs]
    by_cases hjd : j = dst
    · subst hjd
      rw [Function.update_self]
      exact cellLegal_write (hd hj)
    · rw [Function.update_of_ne hjd]
      exact h j hj

/-- Putting all of a stack on another one leaves it legal if the sum is, and leaves nothing of the
    stack. -/
theorem InventoryLegal.mergeAll (h : InventoryLegal env inv)
    (hq : src ≠ dst → (inv.items dst).isEmpty = false →
      QuantityLegal env (inv.items dst).val.item.itemId (inv.quantity dst + inv.quantity src)) :
    InventoryLegal env (inv.mergeAll src dst) := by
  intro j hj
  rw [Inventory.mergeAll]
  by_cases hjs : j = src
  · subst hjs
    rw [Inventory.items_set_self]
    exact cellLegal_emptied
  · rw [Inventory.items_set_of_ne hjs]
    by_cases hjd : j = dst
    · subst hjd
      rw [Inventory.items_setQuantity_self]
      exact cellLegal_write (hq (Ne.symm hjs))
    · rw [Inventory.items_setQuantity_of_ne hjd]
      exact h j hj

/-- Putting a part of a stack on another one leaves both legal if the quantities are. -/
theorem InventoryLegal.mergeSome (h : InventoryLegal env inv) {amount : Int16}
    (hs : src ≠ dst → (inv.items src).isEmpty = false →
      QuantityLegal env (inv.items src).val.item.itemId (inv.quantity src - amount))
    (hd : src ≠ dst → (inv.items dst).isEmpty = false →
      QuantityLegal env (inv.items dst).val.item.itemId (inv.quantity dst + amount)) :
    InventoryLegal env (inv.mergeSome src dst amount) := by
  intro j hj
  rw [Inventory.mergeSome]
  by_cases hjs : j = src
  · subst hjs
    rw [Inventory.items_setQuantity_self]
    by_cases hsd : j = dst
    · subst hsd
      rw [Inventory.items_setQuantity_self, Inventory.quantity_setQuantity_self,
        Int16.add_sub_cancel]
      exact h j hj
    · rw [Inventory.items_setQuantity_of_ne hsd, Inventory.quantity_setQuantity_of_ne hsd]
      exact cellLegal_write (hs hsd)
  · rw [Inventory.items_setQuantity_of_ne hjs]
    by_cases hjd : j = dst
    · subst hjd
      rw [Inventory.items_setQuantity_self]
      exact cellLegal_write (hd (Ne.symm hjs))
    · rw [Inventory.items_setQuantity_of_ne hjd]
      exact h j hj

/-- Putting a stack on another one of the same item leaves both legal, unless they are two and have
    exactly what a slot takes. -/
theorem inventoryLegal_moveOnto {info : ItemInfo} {chr : Character} {k : Fin inventoryCount}
    (h : WellStacked env chr) (hs : src.val < (chr.inventory k).slotCount)
    (hd : dst.val < (chr.inventory k).slotCount)
    (hes : ((chr.inventory k).items src).isEmpty = false)
    (hed : ((chr.inventory k).items dst).isEmpty = false)
    (hid : ((chr.inventory k).items dst).val.item.itemId =
      ((chr.inventory k).items src).val.item.itemId)
    (hinfo : env.itemInfo ((chr.inventory k).items dst).val.item.itemId = some info)
    (hr : itemIsRechargeable ((chr.inventory k).items dst).val.item.itemId = false)
    (hsafe : src ≠ dst → ((chr.inventory k).quantity src).toInt +
      ((chr.inventory k).quantity dst).toInt ≠ info.slotMax.toInt) :
    InventoryLegal env ((moveOnto info chr k src dst).1.inventory k) := by
  have hsrc := h k src hs hes
  have hdst := h k dst hd hed
  rw [inventory_moveOnto]
  have hids := hsrc
  obtain ⟨info', hinfo', hlos, hhis⟩ := hids
  rw [← hid, hinfo, Option.some.injEq] at hinfo'
  subst hinfo'
  obtain ⟨info', hinfo', hlod, hhid⟩ := hdst
  rw [hinfo, Option.some.injEq] at hinfo'
  subst hinfo'
  have hleast : leastQuantity ((chr.inventory k).items dst).val.item.itemId = 1 := by
    rw [leastQuantity, if_neg (by simp [hr])]
  rw [hleast] at hlod
  rw [← hid, hleast] at hlos
  have hbM := bounds16 info.slotMax
  have hroom := sub16 (a := info.slotMax) (b := (chr.inventory k).quantity dst)
    (by rw [Inventory.quantity]; omega) (by rw [Inventory.quantity]; omega)
  split
  · exact (h k).swapVals (fun _ _ => h k dst hd hed) (fun _ _ => hsrc)
  · split
    · rename_i hlt
      refine (h k).mergeAll fun hne _ => ⟨info, hinfo, ?_⟩
      rw [lt16, hroom] at hlt
      simp only [Inventory.quantity] at hlt ⊢
      rw [add16 (by omega) (by omega), hleast]
      omega
    · rename_i hnlt
      rw [lt16, hroom] at hnlt
      simp only [Inventory.quantity] at *
      refine (h k).mergeSome (fun hne _ => ⟨info, hid ▸ hinfo, ?_⟩) fun hne _ => ⟨info, hinfo, ?_⟩
      · have hq := hsafe hne
        rw [sub16 (by simp only [Inventory.quantity]; omega) (by simp only [Inventory.quantity]; omega),
          ← hid, hleast]
        simp only [Inventory.quantity]
        omega
      · rw [add16 (by simp only [Inventory.quantity]; omega) (by simp only [Inventory.quantity]; omega),
          hleast]
        simp only [Inventory.quantity]
        omega

theorem WellStacked.onlyStacks {chr chr' : Character} {k : Fin inventoryCount}
    (h : WellStacked env chr) (honly : OnlyStacks k chr chr')
    (hinv : InventoryLegal env (chr'.inventory k)) : WellStacked env chr' := by
  rw [honly]
  exact h.setInventory hinv

/-- The moves that leave stacks legal. -/
structure MoveLegal (env : Env) (c : Client) (inventory src dst : UInt8) : Prop where
  /-- The slots of the set-up inventory with the numbers of two slots with equipment get what is legal,
      if they show something. -/
  equip : inventory = 1 → ∀ i j, c.character.equipmentInventory.index? (src - 1).toNat = some i →
    c.character.equipmentInventory.index? (dst - 1).toNat = some j →
    (c.character.equipmentInventory.items i).isEmpty = false →
    (c.character.equipmentInventory.items j).isEmpty = false →
    TakesLegal env (c.character.inventory 1) i j ∧ TakesLegal env (c.character.inventory 1) j i
  /-- Two stacks of one item, if it is not rechargeable, do not have exactly what a slot takes. -/
  stack : ∀ k, inventoryOfNumber inventory = some k → ∀ i j,
    (c.character.inventory k).index? (src - 1).toNat = some i →
    (c.character.inventory k).index? (dst - 1).toNat = some j → i ≠ j →
    ((c.character.inventory k).items i).isEmpty = false →
    ((c.character.inventory k).items j).isEmpty = false →
    ((c.character.inventory k).items j).val.item.itemId =
      ((c.character.inventory k).items i).val.item.itemId →
    itemIsRechargeable ((c.character.inventory k).items j).val.item.itemId = false →
    ∀ info, env.itemInfo ((c.character.inventory k).items j).val.item.itemId = some info →
      ((c.character.inventory k).quantity i).toInt + ((c.character.inventory k).quantity j).toInt ≠
        info.slotMax.toInt

/-- Moving keeps the stacks legal. -/
theorem WellStacked.moveItem {c c' : Client} {inventory src dst : UInt8} {b : Bool}
    (h : WellStacked env c.character) (hsafe : MoveLegal env c inventory src dst)
    (hcall : clientMoveItem env c inventory src dst = .ok (b, c')) :
    WellStacked env c'.character := by
  obtain rfl | ⟨hone, i, j, hi, hj, he, hc⟩ | ⟨k, i, j, mods, hk, hi, hj, he, hmove⟩ :=
    clientMoveItem_cases hcall
  · exact h
  · rw [hc, moveEquip]
    split
    · exact h
    · rename_i hej
      obtain ⟨htake, htake'⟩ := hsafe.equip hone i j hi hj he (by simpa using hej)
      exact h.setInventory ((h 1).swapVals htake htake')
  · have hlti := Inventory.lt_of_index? hi
    have hltj := Inventory.lt_of_index? hj
    obtain ⟨_, hc⟩ | ⟨hej, ⟨hid, hr, info, hinfo, hc⟩ | ⟨_, hc⟩⟩ := moveStack_cases hmove
    · rw [hc]
      refine h.onlyStacks onlyStacks_moveToEmpty ?_
      rw [inventory_moveToEmpty]
      exact (h k).moveCell hlti
    · rw [hc]
      exact h.onlyStacks onlyStacks_moveOnto (inventoryLegal_moveOnto h hlti hltj he hej hid hinfo hr
        fun hne => hsafe.stack k hk i j hi hj hne he hej hid hr info hinfo)
    · rw [hc]
      refine h.onlyStacks onlyStacks_moveSwap ?_
      rw [inventory_moveSwap]
      exact (h k).swapVals (fun _ _ => h k j hltj hej) fun _ _ => h k i hlti he

end Moving

/-! ## Runs -/

section Runs

variable {env : Env} {c c' : Client}

/-- The steps that keep stacks legal: amounts are at least `1`, and at most what a slot takes where
    something is picked up; and the moves and uses are not those that go wrong. -/
def StackSafe (env : Env) : Action → Client → Prop
  | .gainInventoryItem _ _ item, _ => 1 ≤ item.quantity.toInt ∧
      ∀ info, env.itemInfo item.item.itemId = some info → item.quantity.toInt ≤ info.slotMax.toInt
  | .removeItem _ _ _ amount, _ => 1 ≤ amount.toInt
  | .useProjectile amount, _ => 1 ≤ amount.toInt
  | .moveItem inventory src dst, c => MoveLegal env c inventory src dst
  | .useItem slot id, c => ∀ i info,
      (c.character.inventory useInventory).index? (slot - 1).toNat = some i →
      env.consumableInfo id = some info →
      ((c.character.inventory useInventory).items i).isEmpty = false →
      ((c.character.inventory useInventory).items i).val.item.itemId = id →
      itemIsRechargeable id = true → ((c.character.inventory useInventory).items i).val.quantity ≠ 0
  | _, _ => True

theorem WellStacked.congr {chr chr' : Character} (h : WellStacked env chr)
    (hinv : chr'.inventory = chr.inventory) : WellStacked env chr' := by
  intro k
  rw [hinv]
  exact h k

/-- Every safe step keeps the stacks legal. -/
theorem WellStacked.step (henv : SlotsTake env) {a : Action} (h : WellStacked env c.character)
    (hsafe : StackSafe env a c) (hstep : a.step env c = .ok c') : WellStacked env c'.character := by
  cases a with
  | gainItems alloc items reward =>
    obtain ⟨⟨r, _⟩, hcall, hstep⟩ := Exec.bind_eq_ok.1 hstep
    cases hstep
    obtain ⟨_, rfl⟩ | ⟨_, rest, g, g', htake, hgive, hc⟩ := clientGainItems_cases hcall
    · exact h
    · rw [hc]
      exact giveAll_legal henv hgive (takeAll_legal htake h)
  | gainInventoryItem alloc room item =>
    obtain ⟨⟨r, _⟩, hcall, hstep⟩ := Exec.bind_eq_ok.1 hstep
    cases hstep
    exact h.gainInventoryItem hsafe hcall
  | gainEquipment alloc item now =>
    obtain ⟨⟨r, _⟩, hcall, hstep⟩ := Exec.bind_eq_ok.1 hstep
    cases hstep
    obtain rfl | ⟨j, set, hc⟩ := clientGainEquipment_cases hcall
    · exact h
    · rw [hc]
      exact h.congr rfl
  | removeItem alloc inventory src amount =>
    obtain ⟨⟨r, _⟩, hcall, hstep⟩ := Exec.bind_eq_ok.1 hstep
    cases hstep
    obtain rfl | ⟨k, i, set, hi, _, henough, hc⟩ := clientRemoveItem_cases hcall
    · exact h
    · rw [hc]
      exact (h.removeStack (Inventory.lt_of_index? hi) hsafe henough).congr rfl
  | useProjectile amount =>
    obtain ⟨⟨r, _⟩, hcall, hstep⟩ := Exec.bind_eq_ok.1 hstep
    cases hstep
    exact h.useProjectile hsafe hcall
  | removeEquip equipped src =>
    cases hstep
    obtain hc | ⟨_, j, _, _, hc⟩ | ⟨_, i, _, hc⟩ := clientRemoveEquip_cases c equipped src
    · rwa [hc]
    · rw [hc]
      exact h.congr rfl
    · rw [hc]
      exact h.congr rfl
  | moveItem inventory src dst =>
    obtain ⟨⟨r, _⟩, hcall, hstep⟩ := Exec.bind_eq_ok.1 hstep
    cases hstep
    exact h.moveItem hsafe hcall
  | equip src slot =>
    obtain ⟨⟨r, _⟩, hcall, hstep⟩ := Exec.bind_eq_ok.1 hstep
    cases hstep
    obtain rfl | ⟨i, j, _, _, _, _, hc⟩ := clientEquip_cases hcall
    · exact h
    · rw [hc]
      exact h.congr inventory_putOn
  | unequip slot dst =>
    obtain ⟨⟨r, _⟩, hcall, hstep⟩ := Exec.bind_eq_ok.1 hstep
    cases hstep
    obtain rfl | ⟨i, j, hp, mp, _, _, _, hc⟩ := clientUnequip_cases hcall
    · exact h
    · rw [hc]
      exact h.congr (inventory_takeOff.trans inventory_dropProjectile)
  | useItem slot id =>
    cases hstep
    obtain hc | ⟨i, info, hp, mp, hi, hinfo, he, hid, hc⟩ := clientUseItem_cases env c slot id
    · rwa [hc]
    · rw [hc]
      have hsome := hsafe i info hi hinfo he hid
      refine @WellStacked.setItem _ { c.character with hp := hp, mp := mp } h _ _ _ fun hlt =>
        useFrom_legal (h _ i hlt) fun _ hr => hsome ?_
      rwa [hid] at hr
  | recharge slot =>
    obtain ⟨⟨r, _⟩, hcall, hstep⟩ := Exec.bind_eq_ok.1 hstep
    cases hstep
    exact h.recharge hcall

/-- From a character whose stacks are legal, they are legal in every state of a run whose steps are
    safe. -/
theorem wellStacked_run (henv : SlotsTake env) (h : WellStacked env c.character)
    (hrun : Machine.Run (Action.step env) (StackSafe env) c c') : WellStacked env c'.character :=
  hrun.invariant (I := fun c => WellStacked env c.character) h
    fun _ _ _ h hsafe hstep => h.step henv hsafe hstep

end Runs

/-! ### Runs with potions -/

theorem slotsTake_potionEnv : SlotsTake potionEnv := by
  intro id info h
  have hmem := List.mem_of_find?_eq_some h
  rw [List.mem_singleton] at hmem
  rw [hmem]
  decide

theorem cellLegal_potions {quantity : Int16} (h : 1 ≤ quantity.toInt) (h' : quantity.toInt ≤ 100) :
    CellLegal potionEnv (.full (.plain 2000000 quantity)) := by
  have hleast : leastQuantity 2000000 = 1 := by decide
  exact fun _ => ⟨.plain 2000000 100, rfl, hleast.le.trans h, h'⟩

theorem wellStacked_potions {quantity : Int16} (h : 1 ≤ quantity.toInt) (h' : quantity.toInt ≤ 100) :
    WellStacked potionEnv (potions quantity) :=
  WellStacked.setItem (fun _ _ _ => cellLegal_emptied (c := ⟨true, default⟩)) fun _ =>
    cellLegal_potions h h'

/-- 70 potions are given to a character that has 40. -/
theorem wellStacked_run_potions : ∃ c',
    (Action.gainItems true [(2000000, 70)] false).step potionEnv (.new (potions 40)) = .ok c' ∧
      WellStacked potionEnv c'.character := by
  have hrun : ((Action.gainItems true [(2000000, 70)] false).step potionEnv
      (.new (potions 40))).Returns fun _ => True := by
    decide +kernel
  obtain ⟨c', hstep, _⟩ := Exec.returns_iff.1 hrun
  exact ⟨c', hstep, wellStacked_run (c := .new (potions 40)) slotsTake_potionEnv
    (wellStacked_potions (by decide) (by decide))
    (.step (.gainItems true [(2000000, 70)] false) .start trivial hstep)⟩

/-- 40 potions in the first slot and 60 in the second, which together are as many as a slot
    takes. -/
def twoPotions : Character := (potions 40).setItem useInventory 1 (.full (.plain 2000000 60))

/-- The first stack is put on the second one: nothing is left in the first slot, which is not
    empty. -/
theorem wellStacked_not_kept : WellStacked potionEnv twoPotions ∧
    ((Action.moveItem 2 1 2).step potionEnv (.new twoPotions)).Returns fun c =>
      ((c.character.inventory useInventory).items 0).isEmpty = false ∧
        ((c.character.inventory useInventory).items 0).val = .plain 2000000 0 ∧
        ¬WellStacked potionEnv c.character := by
  refine ⟨WellStacked.setItem (wellStacked_potions (by decide) (by decide)) fun _ =>
    cellLegal_potions (by decide) (by decide), ?_⟩
  have hrun : ((Action.moveItem 2 1 2).step potionEnv (.new twoPotions)).Returns fun c =>
      0 < (c.character.inventory useInventory).slotCount ∧
      ((c.character.inventory useInventory).items 0).isEmpty = false ∧
        ((c.character.inventory useInventory).items 0).val = .plain 2000000 0 := by
    decide +kernel
  obtain ⟨c, hstep, hlt, he, hval⟩ := Exec.returns_iff.1 hrun
  refine Exec.returns_iff.2 ⟨c, hstep, he, hval, fun h => ?_⟩
  obtain ⟨_, _, hlo, _⟩ := h useInventory 0 hlt he
  rw [hval] at hlo
  exact absurd hlo (by decide)

end Syrup
