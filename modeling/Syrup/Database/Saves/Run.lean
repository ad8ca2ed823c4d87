import Syrup.Database.Saves.Requests

/-!
# What saves at the same time keep

What a statement has done stays so (`ItemStatement.Holds`) while others are executed, as long as no save
marks an item that another one has inserted already (`InTurn`): an item that has been inserted and is not
marked is not purged, nor is what refers to it. An item that nobody asks for is marked, or will be
(`SaveState.Sound.unheld`), and then purged.
-/

namespace Syrup

open Relational

/-- What a statement has done. -/
def ItemStatement.Holds (t : ItemTables) : ItemStatement → Prop
  | insertItems l => ∀ e ∈ l, ∃ row, t.items.get? e.id = some row ∧ row.deleted = false
  | insertInventoryItem item row => t.inventoryItems.get? item = some row
  | insertEquipment l => ∀ e ∈ l, ∃ row, t.equipment.get? e.id = some row ∧ row.item = e.item
  | insertCharacterEquipment id row => t.characterEquipment.get? id = some row
  | insertEquipped l => ∀ id ∈ l, t.equippedEquipment.has id = true
  | insertInventoryEquipment l => ∀ e ∈ l, t.inventoryEquipment.get? e.1 = some e.2
  | mark _ | deleteEquipped _ | deleteInventoryEquipment _ | purge => True

/-! ## What marks -/

namespace ItemTables

variable {t t' : ItemTables} {x k : UInt64} {m : ItemMark}

theorem equipmentOf_iff : t.equipmentOf x k = true ↔ ∃ row, t.equipment.get? k = some row ∧ row.item = x := by
  rw [equipmentOf, Option.any_eq_true]
  exact exists_congr fun row => and_congr_right fun _ => beq_iff_eq

theorem hits_inventoryItems {c : UInt32} : t.hits (.inventoryItems c) x = true ↔
    ∃ row, t.inventoryItems.get? x = some row ∧ row.characterId = c := by
  rw [hits, Option.any_eq_true]
  exact exists_congr fun row => and_congr_right fun _ => beq_iff_eq

theorem hits_storageItems {a : UInt32} : t.hits (.storageItems a) x = true ↔
    ∃ s row, t.storageItems.get? s = some row ∧ row.item = x ∧ t.slotOf a s = true := by
  rw [hits, Table.any_iff]
  simp only [Bool.and_eq_true, beq_iff_eq]

theorem hits_characterEquipment {c : UInt32} : t.hits (.characterEquipment c) x = true ↔
    ∃ id row, t.characterEquipment.get? id = some row ∧ row.characterId = c ∧
      t.equipmentOf x row.equip = true := by
  rw [hits, Table.any_iff]
  simp only [Bool.and_eq_true, beq_iff_eq]

theorem hits_storageEquipment {a : UInt32} : t.hits (.storageEquipment a) x = true ↔
    ∃ s k, t.storageEquipment.get? s = some k ∧ t.equipmentOf x k = true ∧ t.slotOf a s = true := by
  rw [hits, Table.any_iff]
  simp only [Bool.and_eq_true]

theorem purge_items {row : ItemRow} :
    t.purge.items.get? x = some row ↔ t.items.get? x = some row ∧ row.deleted = false :=
  Table.get?_filter_eq_some.trans (and_congr_right fun _ => by rw [Bool.not_eq_true'])

theorem purge_inventoryItems {row : InventoryItemRow} :
    t.purge.inventoryItems.get? x = some row ↔ t.inventoryItems.get? x = some row ∧ t.marked x = false :=
  Table.get?_filter_eq_some.trans (and_congr_right fun _ => by rw [Bool.not_eq_true'])

theorem purge_equipment {row : EquipmentRow} :
    t.purge.equipment.get? k = some row ↔ t.equipment.get? k = some row ∧ t.marked row.item = false :=
  Table.get?_filter_eq_some.trans (and_congr_right fun _ => by rw [Bool.not_eq_true'])

theorem purge_characterEquipment {row : CharacterEquipmentRow} :
    t.purge.characterEquipment.get? k = some row ↔
      t.characterEquipment.get? k = some row ∧ t.markedEquipment row.equip = false :=
  Table.get?_filter_eq_some.trans (and_congr_right fun _ => by rw [Bool.not_eq_true'])

theorem purge_equippedEquipment {u : Unit} :
    t.purge.equippedEquipment.get? k = some u ↔
      t.equippedEquipment.get? k = some u ∧ t.markedCharacterEquipment k = false :=
  Table.get?_filter_eq_some.trans (and_congr_right fun _ => by rw [Bool.not_eq_true'])

theorem purge_inventoryEquipment {slot : UInt8} :
    t.purge.inventoryEquipment.get? k = some slot ↔
      t.inventoryEquipment.get? k = some slot ∧ t.markedCharacterEquipment k = false :=
  Table.get?_filter_eq_some.trans (and_congr_right fun _ => by rw [Bool.not_eq_true'])

theorem purge_storageItems {row : StorageItemRow} :
    t.purge.storageItems.get? k = some row ↔ t.storageItems.get? k = some row ∧ t.marked row.item = false :=
  Table.get?_filter_eq_some.trans (and_congr_right fun _ => by rw [Bool.not_eq_true'])

theorem purge_storageEquipment {e : UInt64} :
    t.purge.storageEquipment.get? k = some e ↔
      t.storageEquipment.get? k = some e ∧ t.markedEquipment e = false :=
  Table.get?_filter_eq_some.trans (and_congr_right fun _ => by rw [Bool.not_eq_true'])

/-- An item that is marked by a statement still is when the rows by which it is are still there. -/
theorem hits_mono (h : t.hits m x = true)
    (hstack : ∀ row, t.inventoryItems.get? x = some row → t'.inventoryItems.get? x = some row)
    (hequipment : ∀ k, t.equipmentOf x k = true → t'.equipmentOf x k = true)
    (hcharacter : ∀ c row, t.characterEquipment.get? c = some row → t.equipmentOf x row.equip = true →
      t'.characterEquipment.get? c = some row)
    (hstored : ∀ s row, t.storageItems.get? s = some row → row.item = x → t'.storageItems.get? s = some row)
    (hstorage : ∀ s k, t.storageEquipment.get? s = some k → t.equipmentOf x k = true →
      t'.storageEquipment.get? s = some k)
    (hslots : t'.slotOf = t.slotOf) : t'.hits m x = true := by
  cases m with
  | inventoryItems c =>
    obtain ⟨row, hrow, hc⟩ := hits_inventoryItems.1 h
    exact hits_inventoryItems.2 ⟨row, hstack row hrow, hc⟩
  | storageItems a =>
    obtain ⟨s, row, hrow, hx, ha⟩ := hits_storageItems.1 h
    exact hits_storageItems.2 ⟨s, row, hstored s row hrow hx, hx, hslots ▸ ha⟩
  | characterEquipment c =>
    obtain ⟨id, row, hrow, hc, hx⟩ := hits_characterEquipment.1 h
    exact hits_characterEquipment.2 ⟨id, row, hcharacter id row hrow hx, hc, hequipment _ hx⟩
  | storageEquipment a =>
    obtain ⟨s, k, hk, hx, ha⟩ := hits_storageEquipment.1 h
    exact hits_storageEquipment.2 ⟨s, k, hstorage s k hk hx, hequipment _ hx, hslots ▸ ha⟩

end ItemTables

/-! ## The invariant -/

section

variable (toNumber : List UInt8 → Option UInt32) (characters : UInt32 → Bool) (requests : List SaveRequest)

/-- What holds of the tables and the saves at any time. -/
structure SaveState.Sound (w : SaveState) : Prop where
  split : ∀ i r, requests[i]? = some r → (w.runs i).done ++ (w.runs i).todo = r.itemStatements
  running : ∀ i, (w.runs i).failed = false
  nobody : ∀ i, requests[i]? = none → (w.runs i).todo = []
  fits : w.tables.Fits requests
  plain : Plain toNumber characters w.tables requests
  holds : ∀ i r, requests[i]? = some r → ∀ s ∈ (w.runs i).done, s.Holds w.tables
  worn : ∀ i r, requests[i]? = some r → .deleteEquipped r.id ∈ (w.runs i).done → ∀ id row,
    w.tables.characterEquipment.get? id = some row → row.characterId = r.id →
    w.tables.equippedEquipment.has id = true → ∃ l, .insertEquipped l ∈ (w.runs i).done ∧ id ∈ l
  carried : ∀ i r, requests[i]? = some r → .deleteInventoryEquipment r.id ∈ (w.runs i).done → ∀ id row,
    w.tables.characterEquipment.get? id = some row → row.characterId = r.id →
    w.tables.inventoryEquipment.has id = true →
    ∃ l, .insertInventoryEquipment l ∈ (w.runs i).done ∧ ∃ e ∈ l, e.1 = id
  unheld : ∀ x row, w.tables.items.get? x = some row → ¬Requested requests x →
    row.deleted = true ∨ ∃ i r m, requests[i]? = some r ∧ .mark m ∈ (w.runs i).todo ∧
      w.tables.hits m x = true
  marked : ∀ x row, w.tables.items.get? x = some row → row.deleted = true →
    ∃ i r, requests[i]? = some r ∧ .purge ∈ (w.runs i).todo

/-- A save has executed a statement, when another one is added to those of one of them. -/
def SaveState.Executed (w : SaveState) (i : ℕ) (s : ItemStatement) (j : ℕ) (s' : ItemStatement) : Prop :=
  s' ∈ (w.runs j).done ∨ j = i ∧ s' = s

/-- What a statement of a save has to keep, or to do. -/
structure SaveState.Next (w : SaveState) (i : ℕ) (s : ItemStatement) (t : ItemTables) : Prop where
  fits : t.Fits requests
  plain : Plain toNumber characters t requests
  holds : s.Holds t
  kept : ∀ j r, requests[j]? = some r → ∀ s' ∈ (w.runs j).done, s'.Holds t
  worn : ∀ j r, requests[j]? = some r → w.Executed i s j (.deleteEquipped r.id) → ∀ id row,
    t.characterEquipment.get? id = some row → row.characterId = r.id →
    t.equippedEquipment.has id = true → ∃ l, w.Executed i s j (.insertEquipped l) ∧ id ∈ l
  carried : ∀ j r, requests[j]? = some r → w.Executed i s j (.deleteInventoryEquipment r.id) → ∀ id row,
    t.characterEquipment.get? id = some row → row.characterId = r.id →
    t.inventoryEquipment.has id = true →
    ∃ l, w.Executed i s j (.insertInventoryEquipment l) ∧ ∃ e ∈ l, e.1 = id
  unheld : ∀ x row, t.items.get? x = some row → ¬Requested requests x → row.deleted = true ∨
    ∃ old, w.tables.items.get? x = some old ∧ old.deleted = false ∧
      ∀ m, w.tables.hits m x = true → s ≠ .mark m ∧ t.hits m x = true
  marked : ∀ x row, t.items.get? x = some row → row.deleted = true → s ≠ .purge ∧
    ((∃ old, w.tables.items.get? x = some old ∧ old.deleted = true) ∨ ∃ m, s = .mark m)

end

section

variable {toNumber : List UInt8 → Option UInt32} {characters : UInt32 → Bool} {requests : List SaveRequest}
  {w : SaveState} {i : ℕ} {r : SaveRequest} {s : ItemStatement} {todo : List ItemStatement} {t : ItemTables}

theorem SaveState.executed_iff {j : ℕ} {s' : ItemStatement} :
    s' ∈ (Function.update w.runs i ⟨(w.runs i).done ++ [s], todo, false⟩ j).done ↔ w.Executed i s j s' := by
  rcases eq_or_ne j i with rfl | hne
  · rw [Function.update_self]
    exact List.mem_append.trans (or_congr_right (List.mem_singleton.trans (and_iff_right rfl).symm))
  · rw [Function.update_of_ne hne]
    exact ⟨.inl, fun h => h.resolve_right fun h => hne h.1⟩

/-- A statement that is to be executed, but for the next one, still is. -/
theorem SaveState.mem_todo {j : ℕ} {s' : ItemStatement} (htodo : (w.runs i).todo = s :: todo)
    (hs' : s' ∈ (w.runs j).todo) (hne : s' ≠ s) :
    s' ∈ (Function.update w.runs i ⟨(w.runs i).done ++ [s], todo, false⟩ j).todo := by
  rcases eq_or_ne j i with rfl | hji
  · rw [Function.update_self]
    rw [htodo] at hs'
    exact (List.mem_cons.1 hs').resolve_left hne
  · rw [Function.update_of_ne hji]
    exact hs'

/-- The next state of a save that executes a statement. -/
theorem SaveState.Sound.next (h : w.Sound toNumber characters requests) (hr : requests[i]? = some r)
    (htodo : (w.runs i).todo = s :: todo) (hn : w.Next toNumber characters requests i s t) :
    SaveState.Sound toNumber characters requests
      ⟨t, Function.update w.runs i ⟨(w.runs i).done ++ [s], todo, false⟩⟩ := by
  have hsplit := h.split i r hr
  rw [htodo] at hsplit
  refine ⟨fun j r' hr' => ?_, fun j => ?_, fun j hj => ?_, hn.fits, hn.plain, fun j r' hr' s' hs' => ?_,
    fun j r' hr' hdone id row hrow hid hhas => ?_, fun j r' hr' hdone id row hrow hid hhas => ?_,
    fun x row hrow hx => ?_, fun x row hrow hdel => ?_⟩
  · dsimp only
    rcases eq_or_ne j i with rfl | hne
    · rw [Function.update_self]
      obtain rfl := Option.some.inj (hr.symm.trans hr')
      rw [List.append_assoc]
      exact hsplit
    · rw [Function.update_of_ne hne]
      exact h.split j r' hr'
  · dsimp only
    rcases eq_or_ne j i with rfl | hne
    · rw [Function.update_self]
    · rw [Function.update_of_ne hne]
      exact h.running j
  · dsimp only
    rcases eq_or_ne j i with rfl | hne
    · cases hr.symm.trans hj
    · rw [Function.update_of_ne hne]
      exact h.nobody j hj
  · rcases SaveState.executed_iff.1 hs' with hs' | ⟨-, rfl⟩
    · exact hn.kept j r' hr' s' hs'
    · exact hn.holds
  · obtain ⟨l, hl, hmem⟩ := hn.worn j r' hr' (SaveState.executed_iff.1 hdone) id row hrow hid hhas
    exact ⟨l, SaveState.executed_iff.2 hl, hmem⟩
  · obtain ⟨l, hl, hmem⟩ := hn.carried j r' hr' (SaveState.executed_iff.1 hdone) id row hrow hid hhas
    exact ⟨l, SaveState.executed_iff.2 hl, hmem⟩
  · rcases hn.unheld x row hrow hx with hdel | ⟨old, hold, hfalse, hhits⟩
    · exact .inl hdel
    · rcases h.unheld x old hold hx with hdel | ⟨j, r', m, hr', hm, hhit⟩
      · cases hfalse.symm.trans hdel
      · obtain ⟨hne, hhit'⟩ := hhits m hhit
        exact .inr ⟨j, r', m, hr', SaveState.mem_todo htodo hm hne.symm, hhit'⟩
  · obtain ⟨hs, hcases⟩ := hn.marked x row hrow hdel
    have hpurge : ∃ j r', requests[j]? = some r' ∧ .purge ∈ (w.runs j).todo := by
      rcases hcases with ⟨old, hold, hdel'⟩ | ⟨m, rfl⟩
      · exact h.marked x old hold hdel'
      · -- the save that marks it has still to purge
        refine ⟨i, r, hr, ?_⟩
        have hmem : ItemStatement.purge ∈ (w.runs i).done ++ .mark m :: todo := by
          rw [hsplit]
          exact UpdateCharacter.mem_itemStatements.2 trivial
        rw [htodo]
        refine (List.mem_append.1 hmem).resolve_left fun hdone => ?_
        have hle : 9 ≤ 0 := (UpdateCharacter.precedes hsplit hdone List.mem_cons_self).rank_le
        omega
    obtain ⟨j, r', hr', hmem⟩ := hpurge
    exact ⟨j, r', hr', SaveState.mem_todo htodo hmem hs.symm⟩

end

end Syrup
