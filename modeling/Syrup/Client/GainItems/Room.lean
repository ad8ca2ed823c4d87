import Syrup.Client.GainItems.Exact

/-!
# Room for what `client_gain_items` gives

An empty slot has room for one piece of equipment, or for a full stack; a stack has room for what it
lacks of a full one, unless it is of a rechargeable item. Where there is room for what is
to be given, it is given.
-/

namespace Syrup

open Sweep Machine

/-- How many pieces of equipment go into a slot. -/
def equipRoom (c : Cell Equipment) : ℤ := if c.isEmpty then 1 else 0

/-- How many of an item go into a stack in a slot. -/
def stackRoom (id : UInt32) (slotMax : Int16) (c : Cell InventoryItem) : ℤ :=
  if !itemIsRechargeable id && (!c.isEmpty && c.val.item.itemId == id) then
    slotMax.toInt - c.val.quantity.toInt
  else 0

/-- How many of an item go into an empty slot. -/
def freshRoom (slotMax : Int16) (c : Cell InventoryItem) : ℤ := if c.isEmpty then slotMax.toInt else 0

/-- The room in the slots of an inventory. -/
def Inventory.room {α : Type*} (inv : Inventory α) (w : Cell α → ℤ) : ℤ :=
  (inv.slots.map fun i => w (inv.items i)).sum

/-- The room for an item in inventories, in the one the item goes into. -/
def roomIn (env : Env) (invs : Fin inventoryCount → Inventory InventoryItem)
    (equipInv : Inventory Equipment) (id : UInt32) : ℤ :=
  if isEquipId id then equipInv.room equipRoom
  else
    match inventoryOfId id, env.itemInfo id with
    | .ok k, some info =>
      (invs k).room (stackRoom id info.slotMax) + (invs k).room (freshRoom info.slotMax)
    | _, _ => 0

/-- The room a character has for an item. -/
def roomFor (env : Env) (chr : Character) (id : UInt32) : ℤ :=
  roomIn env chr.inventory chr.equipmentInventory id

section

variable {env : Env} {id : UInt32} {k : Fin inventoryCount}

/-- A piece of equipment goes into an empty slot. -/
theorem giveEquipBody_room {i : Fin maxItemCount} {c : Cell Equipment}
    {s : Int16 × List InventoryModify} {out : Out (Cell Equipment) _}
    (h : giveEquipBody env id i c s = .ok out) (hQ : 0 < s.1.toInt) :
    (out.stop = true → out.state.1.toInt = 0) ∧
      (out.stop = false → 0 < out.state.1.toInt ∧ out.state.1.toInt = s.1.toInt - equipRoom c) := by
  have hb := bounds16 s.1
  rw [giveEquipBody] at h
  split at h
  · rename_i he
    obtain ⟨info, _, h⟩ := Exec.bind_eq_ok.1 h
    have hsub := sub16 (a := s.1) (b := 1) (by rw [one16]; omega) (by rw [one16]; omega)
    rw [one16] at hsub
    cases h
    rw [equipRoom, if_pos he]
    refine ⟨fun hs => by rw [beq_iff_eq.1 hs]; rfl, fun hs => ⟨?_, hsub⟩⟩
    have : (s.1 - 1).toInt ≠ 0 := fun e => by simp [eq16.2 (e.trans zero16.symm)] at hs
    change 0 < (s.1 - 1).toInt
    omega
  · rename_i he
    cases h
    rw [equipRoom, if_neg he]
    exact ⟨(by simp), fun _ => ⟨hQ, (sub_zero _).symm⟩⟩

/-- A stack is filled up. -/
theorem fillBody_room {info : ItemInfo} (hinfo : env.itemInfo id = some info)
    (hr : itemIsRechargeable id = false) {i : Fin maxItemCount} {c : Cell InventoryItem}
    {s : Int16 × List InventoryModify} {out : Out (Cell InventoryItem) _}
    (h : fillBody env id k i c s = .ok out) (hfits : CellFits env [id] c) (hQ : 0 < s.1.toInt) :
    (out.stop = true → out.state.1.toInt = 0) ∧
      (out.stop = false → 0 < out.state.1.toInt ∧
        out.state.1.toInt = s.1.toInt - stackRoom id info.slotMax c) := by
  rw [fillBody] at h
  rw [stackRoom, hr, Bool.not_false, Bool.true_and]
  split at h
  · rename_i hm
    obtain ⟨he, hi⟩ : c.isEmpty = false ∧ c.val.item.itemId = id := by simpa using hm
    obtain ⟨info', hinfo', h⟩ := Exec.bind_eq_ok.1 h
    rw [Exec.deref_eq_ok, hinfo] at hinfo'
    cases hinfo'
    obtain ⟨hq, hmax⟩ := hfits c.val (Cell.get?_of_not_isEmpty he) (by simp [hi])
    have hmax := hmax info (hi.symm ▸ hinfo)
    have ha := bounds16 s.1
    have hM := bounds16 info.slotMax
    rw [if_pos hm]
    split at h
    rename_i heq
    cases h
    split at heq
    · cases heq
      have hfree := sub16 (a := info.slotMax) (b := c.val.quantity) (by omega) (by omega)
      have hsub := sub16 (a := s.1) (b := info.slotMax - c.val.quantity) (by omega) (by omega)
      rw [hfree] at hsub
      refine ⟨fun hs => by rw [beq_iff_eq.1 hs]; rfl, fun _ => ⟨?_, hsub⟩⟩
      change 0 < (s.1 - (info.slotMax - c.val.quantity)).toInt
      omega
    · cases heq
      exact ⟨fun _ => zero16, (by simp)⟩
  · rename_i hm
    cases h
    rw [if_neg hm, sub_zero]
    exact ⟨fun hs => by rw [beq_iff_eq.1 hs]; rfl, fun _ => ⟨hQ, rfl⟩⟩

/-- A stack goes into an empty slot. -/
theorem freshBody_room {wid : UInt32} {info : ItemInfo} (hinfo : env.itemInfo id = some info)
    (hM : 0 ≤ info.slotMax.toInt) {i : Fin maxItemCount} {c : Cell InventoryItem} {s : Fresh}
    {out : Out (Cell InventoryItem) Fresh} (h : freshBody env id k wid i c s = .ok out)
    (hQ : 0 < s.amount.toInt) :
    (out.stop = true → out.state.amount.toInt = 0) ∧
      (out.stop = false → 0 < out.state.amount.toInt ∧
        out.state.amount.toInt = s.amount.toInt - freshRoom info.slotMax c) := by
  have ha := bounds16 s.amount
  rw [freshBody] at h
  split at h
  · rename_i he
    obtain ⟨info', hinfo', h⟩ := Exec.bind_eq_ok.1 h
    rw [Exec.deref_eq_ok, hinfo] at hinfo'
    cases hinfo'
    rw [freshRoom, if_pos he]
    split at h
    rename_i heq
    cases h
    split at heq
    · cases heq
      have hsub := sub16 (a := s.amount) (b := info.slotMax) (by omega) (by omega)
      refine ⟨fun hs => by rw [beq_iff_eq.1 hs]; rfl, fun _ => ⟨?_, hsub⟩⟩
      change 0 < (s.amount - info.slotMax).toInt
      omega
    · cases heq
      exact ⟨fun _ => zero16, (by simp)⟩
  · rename_i he
    cases h
    rw [freshRoom, if_neg he, sub_zero]
    exact ⟨fun hs => by rw [beq_iff_eq.1 hs]; rfl, fun _ => ⟨hQ, rfl⟩⟩

/-- Filling up stacks leaves empty slots empty. -/
theorem fillStacks_isEmpty {inv : Inventory InventoryItem} {s s' : Int16 × List InventoryModify}
    {items : Fin maxItemCount → Cell InventoryItem}
    (h : fillStacks env id k inv s = .ok (items, s')) (i : Fin maxItemCount) :
    (items i).isEmpty = (inv.items i).isEmpty := by
  rw [fillStacks] at h
  split at h
  · cases h
    rfl
  · refine sweep_inv (P := fun t _ => (t i).isEmpty = (inv.items i).isEmpty) h
      (fun j _ t s out ht hout => ?_) rfl
    by_cases hj : i = j
    · subst hj
      rw [Function.update_self, ← ht]
      rw [fillBody] at hout
      split at hout
      · obtain ⟨info, _, hout⟩ := Exec.bind_eq_ok.1 hout
        cases hout
        rfl
      · cases hout
        rfl
    · rw [Function.update_of_ne hj, ht]

/-- After stacks have been filled up, nothing is left, or what they have no room for. -/
theorem fillStacks_room {info : ItemInfo} (hinfo : env.itemInfo id = some info)
    {inv : Inventory InventoryItem} {amount amount' : Int16} {mods mods' : List InventoryModify}
    {items : Fin maxItemCount → Cell InventoryItem}
    (h : fillStacks env id k inv (amount, mods) = .ok (items, amount', mods'))
    (hfits : ∀ i, i.val < inv.slotCount → CellFits env [id] (inv.items i))
    (hpos : 0 < amount.toInt) :
    amount'.toInt = 0 ∨ 0 < amount'.toInt ∧
      amount'.toInt = amount.toInt - inv.room (stackRoom id info.slotMax) := by
  rw [fillStacks] at h
  split at h
  · rename_i hr
    cases h
    have hzero : inv.room (stackRoom id info.slotMax) = 0 := by
      refine List.sum_eq_zero fun x hx => ?_
      obtain ⟨i, _, rfl⟩ := List.mem_map.1 hx
      simp [stackRoom, hr]
    exact .inr ⟨hpos, by rw [hzero, sub_zero]⟩
  · rename_i hr
    rw [Bool.not_eq_true] at hr
    exact sweep_drain (stackRoom id info.slotMax) (fun s => s.1.toInt) (Q := fun s => 0 < s.1.toInt)
      (B := fun s => s.1.toInt = 0) Inventory.nodup_slots h
      (fun i hi s out hQ hout => fillBody_room hinfo hr hout (hfits i (Inventory.mem_slots.1 hi)) hQ)
      hpos

/-- What there is room for is given. -/
theorem giveOne_room {wid : UInt32} {amount : Int16} {g : Gain} {o : Option Gain}
    (h : giveOne env wid id amount g = .ok o) (hfits : g.Fits env [id])
    (hM : ∀ info, env.itemInfo id = some info → 0 ≤ info.slotMax.toInt)
    (hroom : amount.toInt ≤ roomIn env g.invs g.equipInv id) : ∃ g', o = some g' := by
  rw [giveOne] at h
  split at h
  · rename_i hpos
    rw [lt16, zero16] at hpos
    split at h
    · rename_i he
      obtain ⟨⟨items, a, mods⟩, hs, h⟩ := Exec.bind_eq_ok.1 h
      have hend := sweep_drain equipRoom (fun s => s.1.toInt) (Q := fun s => 0 < s.1.toInt)
        (B := fun s => s.1.toInt = 0) Inventory.nodup_slots hs
        (fun i _ s out hQ hout => giveEquipBody_room hout hQ) hpos
      simp only at h
      split at h
      · rename_i ha
        rw [lt16, zero16] at ha
        rw [roomIn, if_pos he, Inventory.room] at hroom
        rcases hend with hB | ⟨_, hsum⟩
        · simp only at hB
          omega
        · simp only at hsum
          omega
      · cases h
        exact ⟨_, rfl⟩
    · rename_i he
      obtain ⟨k, hk, h⟩ := Exec.bind_eq_ok.1 h
      obtain ⟨⟨items, a, mods⟩, hs, h⟩ := Exec.bind_eq_ok.1 h
      simp only at h
      split at h
      · rename_i hne
        rw [roomIn, if_neg he, hk] at hroom
        cases hinfo : env.itemInfo id with
        | none =>
          rw [hinfo] at hroom
          simp only at hroom
          omega
        | some info =>
          rw [hinfo] at hroom
          simp only at hroom
          obtain ha | ⟨ha, hfill⟩ := fillStacks_room hinfo hs (hfits k) hpos
          · exact absurd (eq16.2 (ha.trans zero16.symm)) hne
          · obtain ⟨⟨items', s⟩, hs', h⟩ := Exec.bind_eq_ok.1 h
            have hend := sweep_drain (freshRoom info.slotMax) (fun s => s.amount.toInt)
              (Q := fun s => 0 < s.amount.toInt) (B := fun s => s.amount.toInt = 0)
              Inventory.nodup_slots hs'
              (fun i _ s out hQ hout => freshBody_room hinfo (hM info hinfo) hout hQ) ha
            have hempty : ((g.invs k).slots.map fun i => freshRoom info.slotMax (items i)) =
                (g.invs k).slots.map fun i => freshRoom info.slotMax ((g.invs k).items i) :=
              List.map_congr_left fun i _ => by rw [freshRoom, freshRoom, fillStacks_isEmpty hs]
            rw [hempty] at hend
            simp only at h
            split at h
            · rename_i hleft
              rw [lt16, zero16] at hleft
              simp only [Inventory.room] at hroom hfill
              rcases hend with hB | ⟨_, hsum⟩
              · omega
              · change s.amount.toInt = a.toInt - _ at hsum
                omega
            · cases h
              exact ⟨_, rfl⟩
      · cases h
        exact ⟨_, rfl⟩
  · cases h
    exact ⟨_, rfl⟩

end

/-- A call that is to give an amount of one item, for which there is room, gives it. -/
theorem clientGainItems_gives {env : Env} {alloc : Bool} {c c' : Client} {id : UInt32}
    {amount : Int16} {reward success : Bool} (hr : Requestable env c.character [(id, amount)])
    (hpos : 0 < amount) (hroom : amount.toInt ≤ roomFor env c.character id)
    (h : clientGainItems env alloc c [(id, amount)] reward = .ok (some success, c')) :
    success = true ∧
      (∀ x, held c'.character x = held c.character x + if x = id then amount.toInt else 0) ∧
      c'.character.mesos = c.character.mesos := by
  have hpos' := hpos
  rw [lt16, zero16] at hpos'
  have hfits : (Gain.ofCharacter c.character).Fits env [id] := fun k i hi it hit hmem =>
    hr.fits k i it ((Inventory.view_of_lt hi).trans hit) hmem
  have htake : takeAll [(id, amount)] (Gain.ofCharacter c.character) =
      .ok (some ([(id, amount)], Gain.ofCharacter c.character)) := by
    have hneg : ¬ amount < 0 := by
      rw [lt16, zero16]
      omega
    rw [takeAll, takeOne, if_neg hneg]
    rfl
  rw [clientGainItems] at h
  split at h
  · rw [htake] at h
    obtain ⟨_, ho, h⟩ := Exec.bind_eq_ok.1 h
    cases ho
    obtain ⟨o, hgive, h⟩ := Exec.bind_eq_ok.1 h
    obtain ⟨o₁, hone, hgive⟩ := Exec.bind_eq_ok.1 hgive
    obtain ⟨g, rfl⟩ := giveOne_room hone hfits (hr.slotMax_nonneg id (by simp)) hroom
    cases hgive
    have hheld := (giveOne_spec hone (List.mem_singleton_self id) hfits
      (hr.slotMax_nonneg id (by simp))).2
    rw [max_eq_left hpos'.le] at hheld
    simp only at h
    split at h
    · cases h
    · have hchr : c'.character = g.writeBack c.character := by
        cases h
        split
        · rw [character_foldl_send, character_sendMods]
        · rw [character_sendMods]
      refine ⟨by cases h; rfl, fun x => ?_, by rw [hchr]; rfl⟩
      rw [hchr]
      exact hheld x
  · cases h

end Syrup
