import Syrup.Database.Saves.Run

/-!
# The statements, one by one

For every statement of a save: it does not fail, and what has been done by it and by those before it holds
(`SaveState.Next`).
-/

namespace Syrup

open Relational

section

variable {toNumber : List UInt8 → Option UInt32} {characters : UInt32 → Bool} {requests : List SaveRequest}
  {w : SaveState} {i j : ℕ} {r r' : SaveRequest} {s s' : ItemStatement} {todo : List ItemStatement}
  {t₀ : ItemTables} {x k : UInt64} {e : SavedEquipment}

/-! ## What has been executed -/

namespace SaveState.Sound

theorem issues (h : w.Sound toNumber characters requests) (hr : requests[i]? = some r)
    (hs : s ∈ (w.runs i).done) : r.Issues s := by
  rw [← UpdateCharacter.mem_itemStatements, ← h.split i r hr]
  exact List.mem_append_left _ hs

theorem issues_next (h : w.Sound toNumber characters requests) (hr : requests[i]? = some r)
    (htodo : (w.runs i).todo = s :: todo) : r.Issues s := by
  rw [← UpdateCharacter.mem_itemStatements, ← h.split i r hr, htodo]
  exact List.mem_append_right _ List.mem_cons_self

/-- What comes before the next statement has been executed. -/
theorem done_next (h : w.Sound toNumber characters requests) (hr : requests[i]? = some r)
    (htodo : (w.runs i).todo = s :: todo) (hs' : r.Issues s') (hrank : s'.rank < s.rank) :
    s' ∈ (w.runs i).done :=
  UpdateCharacter.mem_done (htodo ▸ h.split i r hr) hs' hrank

/-- What comes before a statement that has been executed has been, too. -/
theorem done_before (h : w.Sound toNumber characters requests) (hr : requests[i]? = some r)
    (hs : s ∈ (w.runs i).done) (hs' : r.Issues s') (hrank : s'.rank < s.rank) : s' ∈ (w.runs i).done :=
  UpdateCharacter.mem_done_of_mem (h.split i r hr) hs hs' hrank

/-- What has been executed comes before the next statement. -/
theorem precedes (h : w.Sound toNumber characters requests) (hr : requests[i]? = some r)
    (htodo : (w.runs i).todo = s :: todo) (hs' : s' ∈ (w.runs i).done) : s'.Precedes s :=
  UpdateCharacter.precedes (h.split i r hr) hs' (htodo ▸ List.mem_cons_self)

/-- The items of a request have been inserted. -/
theorem inserted (h : w.Sound toNumber characters requests) (hr : requests[i]? = some r)
    (hdone : ∀ s', r.Issues s' → s'.rank < 2 → s' ∈ (w.runs i).done) {e : ItemEntry} (he : e ∈ r.itemEntries) :
    ∃ row, w.tables.items.get? e.id = some row ∧ row.deleted = false :=
  h.holds i r hr _ (hdone (.insertItems r.itemEntries) ⟨List.ne_nil_of_mem he, rfl⟩ Nat.one_lt_two) e he

/-- Its equipment has been inserted. -/
theorem insertedEquipment (h : w.Sound toNumber characters requests) (hr : requests[i]? = some r)
    (hdone : ∀ s', r.Issues s' → s'.rank < 4 → s' ∈ (w.runs i).done) (he : e ∈ r.equipment) :
    ∃ row, w.tables.equipment.get? e.equipId = some row ∧ row.item = e.itemNumber := by
  have hmem : e.equipmentEntry ∈ r.equipmentEntries := List.mem_map_of_mem he
  exact h.holds i r hr _ (hdone (.insertEquipment r.equipmentEntries)
    ⟨List.ne_nil_of_mem hmem, rfl⟩ (Nat.lt_succ_self 3)) _ hmem

/-- The character has its equipment. -/
theorem insertedCharacter (h : w.Sound toNumber characters requests) (hr : requests[i]? = some r)
    (hdone : ∀ s', r.Issues s' → s'.rank < 5 → s' ∈ (w.runs i).done) (he : e ∈ r.equipment) :
    w.tables.characterEquipment.get? e.id = some (r.equipmentRow e) :=
  h.holds i r hr _ (hdone (.insertCharacterEquipment e.id (r.equipmentRow e)) ⟨e, he, rfl, rfl⟩
    (Nat.lt_succ_self 4))

end SaveState.Sound

/-! ## What marks an item of nobody -/

/-- A piece of equipment in a request is not that of an item that is in none. -/
theorem ItemTables.Fits.equipmentOf_ne {t : ItemTables} (h : t.Fits requests) (hr : r ∈ requests)
    (he : e ∈ r.equipment) (hx : ¬Requested requests x) (hof : t.equipmentOf x k = true) : k ≠ e.equipId := by
  rintro rfl
  obtain ⟨row, hrow, rfl⟩ := ItemTables.equipmentOf_iff.1 hof
  rw [h.item r hr e he row hrow] at hx
  exact hx ⟨r, hr, SaveRequest.mem_itemIds (SaveRequest.itemEntry_mem he)⟩

/-- The items are not written, and what marks an item that is in no request is kept. -/
theorem SaveState.unheld_of_eq {t : ItemTables} (hitems : t.items = w.tables.items)
    (hs : ∀ m, s ≠ .mark m) (hhits : ∀ x, ¬Requested requests x → ∀ m, w.tables.hits m x = true →
      t.hits m x = true) (x : UInt64) (row : ItemRow) (hrow : t.items.get? x = some row)
    (hx : ¬Requested requests x) : row.deleted = true ∨
      ∃ old, w.tables.items.get? x = some old ∧ old.deleted = false ∧
        ∀ m, w.tables.hits m x = true → s ≠ .mark m ∧ t.hits m x = true := by
  rw [hitems] at hrow
  cases hdel : row.deleted with
  | true => exact .inl rfl
  | false => exact .inr ⟨row, hrow, hdel, fun m hm => ⟨hs m, hhits x hx m hm⟩⟩

theorem SaveState.marked_of_eq {t : ItemTables} (hitems : t.items = w.tables.items) (hs : s ≠ .purge)
    (x : UInt64) (row : ItemRow) (hrow : t.items.get? x = some row) (hdel : row.deleted = true) :
    s ≠ .purge ∧ ((∃ old, w.tables.items.get? x = some old ∧ old.deleted = true) ∨ ∃ m, s = .mark m) := by
  rw [hitems] at hrow
  exact ⟨hs, .inl ⟨row, hrow, hdel⟩⟩

/-- A statement that is executed now, and is not this one, has been executed before. -/
theorem SaveState.Executed.done (h : w.Executed i s j s') (hne : s' ≠ s) : s' ∈ (w.runs j).done :=
  h.resolve_right fun h => hne h.2

namespace SaveState.Sound

/-! ## Marking -/

theorem mark (h : w.Sound toNumber characters requests) (hr : requests[i]? = some r) {m : ItemMark}
    (htodo : (w.runs i).todo = .mark m :: todo) (hturn : InTurn requests i w) :
    w.Next toNumber characters requests i (.mark m) (w.tables.mark m) := by
  have hget : ∀ x row, (w.tables.mark m).items.get? x = some row ↔ ∃ old, w.tables.items.get? x = some old ∧
      (if w.tables.hits m x then { old with deleted := true } else old) = row := fun x row =>
    Table.get?_change_eq_some
  refine ⟨⟨h.fits.item, h.fits.equip, h.fits.equipment, h.fits.stack, h.fits.character⟩,
    ⟨h.plain.equipment, h.plain.items, h.plain.storedItem, h.plain.storedEquipment, h.plain.insertable,
      h.plain.character⟩, trivial, fun j r' hr' s' hs' => ?_, fun j r' hr' hdone id row hrow hid hhas => ?_,
    fun j r' hr' hdone id row hrow hid hhas => ?_, fun x row hrow hx => ?_, fun x row hrow hdel => ?_⟩
  · have hholds := h.holds j r' hr' s' hs'
    cases s' with
    | insertItems l =>
      obtain ⟨-, rfl⟩ := h.issues hr' hs'
      intro e he
      obtain ⟨row, hrow, hdel⟩ := hholds e he
      have hfalse : w.tables.hits m e.id = false := by
        refine hturn m (by rw [htodo]; rfl) j r' hr' ?_ hs' e he
        rintro rfl
        have hle : 1 ≤ 0 := (h.precedes hr' htodo hs').rank_le
        omega
      exact ⟨row, (hget _ _).2 ⟨row, hrow, by rw [hfalse]; rfl⟩, hdel⟩
    | insertInventoryItem | insertEquipment | insertCharacterEquipment | insertEquipped
    | insertInventoryEquipment => exact hholds
    | mark | deleteEquipped | deleteInventoryEquipment | purge => trivial
  · obtain ⟨l, hl, hmem⟩ := h.worn j r' hr' (hdone.done nofun) id row hrow hid hhas
    exact ⟨l, .inl hl, hmem⟩
  · obtain ⟨l, hl, hmem⟩ := h.carried j r' hr' (hdone.done nofun) id row hrow hid hhas
    exact ⟨l, .inl hl, hmem⟩
  · obtain ⟨old, hold, rfl⟩ := (hget x row).1 hrow
    cases hhit : w.tables.hits m x with
    | true => exact .inl rfl
    | false =>
      cases hdel : old.deleted with
      | true => exact .inl hdel
      | false =>
        refine .inr ⟨old, hold, hdel, fun m' hm' => ⟨?_, hm'⟩⟩
        rintro ⟨⟩
        cases hhit.symm.trans hm'
  · exact ⟨nofun, .inr ⟨m, rfl⟩⟩

/-! ## Inserting -/

/-- An entry that can be inserted is, without a mark. -/
theorem insertable_insertItem {e : ItemEntry} (h : e.Insertable toNumber characters)
    (t : Table UInt64 ItemRow) : ∃ row, ItemTables.insertItem toNumber characters t e =
      some (t.put e.id row) ∧ row.deleted = false := by
  obtain ⟨hflags, hnames⟩ := h
  obtain ⟨owner, howner, howner'⟩ := hnames e.owner List.mem_cons_self
  obtain ⟨giver, hgiver, hgiver'⟩ := hnames e.giver (List.mem_cons_of_mem _ List.mem_cons_self)
  rw [ItemTables.insertItem, howner, hgiver]
  dsimp only
  rw [if_pos hflags]
  cases t.get? e.id with
  | some row => exact ⟨_, rfl, rfl⟩
  | none => exact ⟨_, if_pos ⟨howner', hgiver'⟩, rfl⟩

theorem insertItems (h₀ : t₀.Saved requests) (h : w.Sound toNumber characters requests)
    (hr : requests[i]? = some r) :
    ∃ t, (ItemStatement.insertItems r.itemEntries).exec toNumber characters w.tables = some t ∧
      w.Next toNumber characters requests i (.insertItems r.itemEntries) t := by
  have hmem := List.mem_of_getElem? hr
  obtain ⟨u, hu, hrows, hkept⟩ := Table.foldlM_put (t := w.tables.items)
    (f := ItemTables.insertItem toNumber characters) (P := fun _ row => row.deleted = false)
    (h₀.entries_nodup hmem) fun e he u _ => insertable_insertItem (h.plain.insertable r hmem e he) u
  refine ⟨{ w.tables with items := u }, ?_, ⟨h.fits.item, h.fits.equip, h.fits.equipment, h.fits.stack,
    h.fits.character⟩, ⟨h.plain.equipment, h.plain.items, h.plain.storedItem, h.plain.storedEquipment,
    h.plain.insertable, h.plain.character⟩, hrows, fun j r' hr' s' hs' => ?_,
    fun j r' hr' hdone id row hrow hid hhas => ?_, fun j r' hr' hdone id row hrow hid hhas => ?_,
    fun x row hrow hx => ?_, fun x row hrow hdel => ?_⟩
  · rw [ItemStatement.exec, hu]
    rfl
  · have hholds := h.holds j r' hr' s' hs'
    cases s' with
    | insertItems l =>
      intro e he
      by_cases hkey : ∃ e' ∈ r.itemEntries, e'.id = e.id
      · obtain ⟨e', he', heq⟩ := hkey
        exact heq ▸ hrows e' he'
      · change ∃ row, u.get? e.id = some row ∧ _
        rw [hkept e.id fun e' he' heq => hkey ⟨e', he', heq⟩]
        exact hholds e he
    | insertInventoryItem | insertEquipment | insertCharacterEquipment | insertEquipped
    | insertInventoryEquipment => exact hholds
    | mark | deleteEquipped | deleteInventoryEquipment | purge => trivial
  · obtain ⟨l, hl, hmem⟩ := h.worn j r' hr' (hdone.done nofun) id row hrow hid hhas
    exact ⟨l, .inl hl, hmem⟩
  · obtain ⟨l, hl, hmem⟩ := h.carried j r' hr' (hdone.done nofun) id row hrow hid hhas
    exact ⟨l, .inl hl, hmem⟩
  · have hold : w.tables.items.get? x = some row := by
      refine (hkept x fun e he heq => hx ?_).symm.trans hrow
      exact ⟨r, hmem, heq ▸ SaveRequest.mem_itemIds he⟩
    cases hdel : row.deleted with
    | true => exact .inl rfl
    | false => exact .inr ⟨row, hold, hdel, fun m hm => ⟨nofun, hm⟩⟩
  · refine ⟨nofun, .inl ⟨row, (hkept x fun e he heq => ?_).symm.trans hrow, hdel⟩⟩
    obtain ⟨row', hrow', hfalse⟩ := hrows e he
    rw [heq] at hrow'
    obtain rfl := Option.some.inj (hrow.symm.trans hrow')
    cases hdel.symm.trans hfalse

theorem insertInventoryItem (h₀ : t₀.Saved requests) (h : w.Sound toNumber characters requests)
    (hr : requests[i]? = some r) {a : SavedItem} (ha : a ∈ r.inventoryItems)
    (htodo : (w.runs i).todo = .insertInventoryItem a.itemNumber (r.stackRow a) :: todo) :
    ∃ t, (ItemStatement.insertInventoryItem a.itemNumber (r.stackRow a)).exec toNumber characters w.tables =
        some t ∧
      w.Next toNumber characters requests i (.insertInventoryItem a.itemNumber (r.stackRow a)) t := by
  have hmem := List.mem_of_getElem? hr
  have hitem : w.tables.items.has a.itemNumber = true := by
    obtain ⟨row, hrow, -⟩ := h.inserted hr (fun s' hs' hrank => h.done_next hr htodo hs' hrank)
      (SaveRequest.stackEntry_mem ha)
    exact Table.has_iff.2 ⟨row, hrow⟩
  refine ⟨_, if_pos ⟨.inr hitem, h.plain.character r hmem⟩, ⟨h.fits.item, h.fits.equip, h.fits.equipment,
    fun r' hr' e he => ?_, h.fits.character⟩, ⟨h.plain.equipment, h.plain.items, h.plain.storedItem,
    h.plain.storedEquipment, h.plain.insertable, h.plain.character⟩, Table.get?_put_self,
    fun j r' hr' s' hs' => ?_, fun j r' hr' hdone id row hrow hid hhas => ?_,
    fun j r' hr' hdone id row hrow hid hhas => ?_, SaveState.unheld_of_eq rfl nofun fun x hx m hm => ?_,
    SaveState.marked_of_eq rfl nofun⟩
  · rw [← h.fits.stack r' hr' e he]
    exact Table.get?_put_of_ne (h₀.stack_ne hmem hr' ha he)
  · have hholds := h.holds j r' hr' s' hs'
    cases s' with
    | insertInventoryItem item row =>
      obtain ⟨b, hb, rfl, rfl⟩ := h.issues hr' hs'
      by_cases heq : b.itemNumber = a.itemNumber
      · obtain ⟨rfl, rfl⟩ := h₀.eq_of_stack (List.mem_of_getElem? hr') hmem hb ha heq
        exact Table.get?_put_self
      · exact (Table.get?_put_of_ne heq).trans hholds
    | insertItems | insertEquipment | insertCharacterEquipment | insertEquipped
    | insertInventoryEquipment => exact hholds
    | mark | deleteEquipped | deleteInventoryEquipment | purge => trivial
  · obtain ⟨l, hl, hmem⟩ := h.worn j r' hr' (hdone.done nofun) id row hrow hid hhas
    exact ⟨l, .inl hl, hmem⟩
  · obtain ⟨l, hl, hmem⟩ := h.carried j r' hr' (hdone.done nofun) id row hrow hid hhas
    exact ⟨l, .inl hl, hmem⟩
  · refine ItemTables.hits_mono hm (fun row hrow => ?_) (fun _ h => h) (fun _ _ h _ => h)
      (fun _ _ h _ => h) (fun _ _ h _ => h) rfl
    refine (Table.get?_put_of_ne ?_).trans hrow
    rintro rfl
    exact hx ⟨r, hmem, SaveRequest.mem_itemIds (SaveRequest.stackEntry_mem ha)⟩

theorem insertEquipment (h₀ : t₀.Saved requests) (h : w.Sound toNumber characters requests)
    (hr : requests[i]? = some r) (htodo : (w.runs i).todo = .insertEquipment r.equipmentEntries :: todo) :
    ∃ t, (ItemStatement.insertEquipment r.equipmentEntries).exec toNumber characters w.tables = some t ∧
      w.Next toNumber characters requests i (.insertEquipment r.equipmentEntries) t := by
  have hmem := List.mem_of_getElem? hr
  have hnodup : (r.equipmentEntries.map (·.id)).Nodup := by
    rw [UpdateCharacter.equipmentEntries, List.map_map]
    exact (List.nodup_flatMap.1 h₀.equipment).1 r hmem
  obtain ⟨u, hu, hrows, hkept⟩ := Table.foldlM_put (t := w.tables.equipment)
    (f := ItemTables.insertEquipmentRow w.tables.items.has) (P := fun a row => row.item = a.item)
    hnodup fun a ha u hget => by
      obtain ⟨e, he, rfl⟩ := List.mem_map.1 ha
      rw [ItemTables.insertEquipmentRow]
      cases hold : u.get? e.equipmentEntry.id with
      | some row =>
        exact ⟨_, rfl, h.fits.item r hmem e he row (hget.symm.trans hold)⟩
      | none =>
        obtain ⟨row, hrow, -⟩ := h.inserted hr (fun s' hs' hrank => h.done_next hr htodo hs' (hrank.trans
          (by decide : 2 < 3))) (SaveRequest.itemEntry_mem he)
        exact ⟨_, if_pos (Table.has_iff.2 ⟨row, hrow⟩), rfl⟩
  have hitem : ∀ r' ∈ requests, ∀ e ∈ r'.equipment, ∀ row, u.get? e.equipId = some row →
      row.item = e.itemNumber := by
    intro r' hr' e he row hrow
    by_cases hkey : ∃ a ∈ r.equipmentEntries, a.id = e.equipId
    · obtain ⟨a, ha, heq⟩ := hkey
      obtain ⟨row', hrow', hitem⟩ := hrows a ha
      obtain ⟨e', he', rfl⟩ := List.mem_map.1 ha
      obtain ⟨rfl, rfl⟩ := h₀.eq_of_equip hmem hr' he' he heq
      obtain rfl := Option.some.inj (hrow.symm.trans hrow')
      exact hitem
    · exact h.fits.item r' hr' e he row
        ((hkept _ fun a ha heq => hkey ⟨a, ha, heq⟩).symm.trans hrow)
  refine ⟨{ w.tables with equipment := u }, ?_, ⟨hitem, h.fits.equip, fun k row hrow hx => ?_,
    h.fits.stack, h.fits.character⟩, ⟨h.plain.equipment, h.plain.items, h.plain.storedItem,
    h.plain.storedEquipment, h.plain.insertable, h.plain.character⟩, hrows, fun j r' hr' s' hs' => ?_,
    fun j r' hr' hdone id row hrow hid hhas => ?_, fun j r' hr' hdone id row hrow hid hhas => ?_,
    SaveState.unheld_of_eq rfl nofun fun x hx m hm => ?_, SaveState.marked_of_eq rfl nofun⟩
  · rw [ItemStatement.exec, hu]
    rfl
  · by_cases hkey : ∃ a ∈ r.equipmentEntries, a.id = k
    · obtain ⟨a, ha, rfl⟩ := hkey
      obtain ⟨e, he, rfl⟩ := List.mem_map.1 ha
      exact ⟨r, hmem, e, he, rfl⟩
    · exact h.fits.equipment k row ((hkept _ fun a ha heq => hkey ⟨a, ha, heq⟩).symm.trans hrow) hx
  · have hholds := h.holds j r' hr' s' hs'
    cases s' with
    | insertEquipment l =>
      obtain ⟨-, rfl⟩ := h.issues hr' hs'
      intro a ha
      by_cases hkey : ∃ b ∈ r.equipmentEntries, b.id = a.id
      · obtain ⟨b, hb, heq⟩ := hkey
        obtain ⟨row, hrow, -⟩ := hrows b hb
        obtain ⟨e, he, rfl⟩ := List.mem_map.1 ha
        rw [heq] at hrow
        exact ⟨row, hrow, hitem r' (List.mem_of_getElem? hr') e he row hrow⟩
      · obtain ⟨row, hrow, heq⟩ := hholds a ha
        exact ⟨row, (hkept _ fun b hb heq => hkey ⟨b, hb, heq⟩).trans hrow, heq⟩
    | insertItems | insertInventoryItem | insertCharacterEquipment | insertEquipped
    | insertInventoryEquipment => exact hholds
    | mark | deleteEquipped | deleteInventoryEquipment | purge => trivial
  · obtain ⟨l, hl, hmem⟩ := h.worn j r' hr' (hdone.done nofun) id row hrow hid hhas
    exact ⟨l, .inl hl, hmem⟩
  · obtain ⟨l, hl, hmem⟩ := h.carried j r' hr' (hdone.done nofun) id row hrow hid hhas
    exact ⟨l, .inl hl, hmem⟩
  · refine ItemTables.hits_mono hm (fun _ h => h) (fun k hk => ?_) (fun _ _ h _ => h)
      (fun _ _ h _ => h) (fun _ _ h _ => h) rfl
    have hsame : u.get? k = w.tables.equipment.get? k := by
      refine hkept k fun a ha heq => ?_
      obtain ⟨e, he, rfl⟩ := List.mem_map.1 ha
      exact h.fits.equipmentOf_ne hmem he hx hk heq.symm
    rw [ItemTables.equipmentOf_iff] at hk ⊢
    obtain ⟨row, hrow, heq⟩ := hk
    exact ⟨row, hsame.trans hrow, heq⟩

theorem insertCharacterEquipment (h₀ : t₀.Saved requests) (h : w.Sound toNumber characters requests)
    (hr : requests[i]? = some r) (he : e ∈ r.equipment)
    (htodo : (w.runs i).todo = .insertCharacterEquipment e.id (r.equipmentRow e) :: todo) :
    ∃ t, (ItemStatement.insertCharacterEquipment e.id (r.equipmentRow e)).exec toNumber characters w.tables =
        some t ∧
      w.Next toNumber characters requests i (.insertCharacterEquipment e.id (r.equipmentRow e)) t := by
  have hmem := List.mem_of_getElem? hr
  have hexec : (ItemStatement.insertCharacterEquipment e.id (r.equipmentRow e)).exec toNumber characters
      w.tables = some { w.tables with
        characterEquipment := w.tables.characterEquipment.put e.id (r.equipmentRow e) } := by
    rw [ItemStatement.exec]
    cases hold : w.tables.characterEquipment.get? e.id with
    | some old =>
      have heq := h.fits.equip r hmem e he old hold
      obtain ⟨equip, characterId⟩ := old
      obtain rfl : equip = e.equipId := heq
      rfl
    | none =>
      obtain ⟨row, hrow, -⟩ := h.insertedEquipment hr (fun s' hs' hrank => h.done_next hr htodo hs' hrank) he
      exact if_pos (Table.has_iff.2 ⟨row, hrow⟩)
  -- the row of another piece of equipment
  have hput : ∀ id row, (w.tables.characterEquipment.put e.id (r.equipmentRow e)).get? id = some row →
      id = e.id ∧ row = r.equipmentRow e ∨ w.tables.characterEquipment.get? id = some row := by
    intro id row hrow
    by_cases hid : id = e.id
    · rw [hid, Table.get?_put_self] at hrow
      exact .inl ⟨hid, (Option.some.inj hrow).symm⟩
    · exact .inr ((Table.get?_put_of_ne hid).symm.trans hrow)
  -- this save has not deleted anything yet
  have hother : ∀ j r', requests[j]? = some r' → ∀ s', s' ∈ (w.runs j).done → 4 < s'.rank → r'.id ≠ r.id := by
    intro j r' hr' s' hs' hrank hid
    obtain rfl := h₀.index_eq hr' hr hid
    have hle : s'.rank ≤ 4 := (h.precedes hr' htodo hs').rank_le
    omega
  refine ⟨_, hexec, ⟨h.fits.item, fun r' hr' e' he' row hrow => ?_, h.fits.equipment, h.fits.stack,
    fun id row hrow => ?_⟩, ⟨h.plain.equipment, h.plain.items, h.plain.storedItem,
    h.plain.storedEquipment, h.plain.insertable, h.plain.character⟩, Table.get?_put_self,
    fun j r' hr' s' hs' => ?_, fun j r' hr' hdone id row hrow hid hhas => ?_,
    fun j r' hr' hdone id row hrow hid hhas => ?_, SaveState.unheld_of_eq rfl nofun fun x hx m hm => ?_,
    SaveState.marked_of_eq rfl nofun⟩
  · rcases hput _ _ hrow with ⟨hid, rfl⟩ | hrow
    · obtain ⟨rfl, rfl⟩ := h₀.eq_of_id hr' hmem he' he hid
      rfl
    · exact h.fits.equip r' hr' e' he' row hrow
  · rcases hput _ _ hrow with ⟨-, rfl⟩ | hrow
    · exact ⟨r, hmem, rfl⟩
    · exact h.fits.character id row hrow
  · have hholds := h.holds j r' hr' s' hs'
    cases s' with
    | insertCharacterEquipment id row =>
      obtain ⟨e', he', rfl, rfl⟩ := h.issues hr' hs'
      by_cases heq : e'.id = e.id
      · obtain ⟨rfl, rfl⟩ := h₀.eq_of_id (List.mem_of_getElem? hr') hmem he' he heq
        exact Table.get?_put_self
      · exact (Table.get?_put_of_ne heq).trans hholds
    | insertItems | insertInventoryItem | insertEquipment | insertEquipped
    | insertInventoryEquipment => exact hholds
    | mark | deleteEquipped | deleteInventoryEquipment | purge => trivial
  · have hdone := hdone.done nofun
    rcases hput _ _ hrow with ⟨-, rfl⟩ | hrow
    · exact absurd hid.symm (hother j r' hr' _ hdone (Nat.lt_succ_self 4))
    · obtain ⟨l, hl, hmem⟩ := h.worn j r' hr' hdone id row hrow hid hhas
      exact ⟨l, .inl hl, hmem⟩
  · have hdone := hdone.done nofun
    rcases hput _ _ hrow with ⟨-, rfl⟩ | hrow
    · exact absurd hid.symm (hother j r' hr' _ hdone (by decide : 4 < 6))
    · obtain ⟨l, hl, hmem⟩ := h.carried j r' hr' hdone id row hrow hid hhas
      exact ⟨l, .inl hl, hmem⟩
  · refine ItemTables.hits_mono hm (fun _ h => h) (fun _ h => h) (fun id row hrow hof => ?_)
      (fun _ _ h _ => h) (fun _ _ h _ => h) rfl
    refine (Table.get?_put_of_ne ?_).trans hrow
    rintro rfl
    exact h.fits.equipmentOf_ne hmem he hx hof (h.fits.equip r hmem e he row hrow)

/-! ## What is worn and carried -/

theorem equipmentBy_iff {t : ItemTables} {c : UInt32} {id : UInt64} : t.equipmentBy c id = true ↔
    ∃ row, t.characterEquipment.get? id = some row ∧ row.characterId = c := by
  rw [ItemTables.equipmentBy, Option.any_eq_true]
  exact exists_congr fun row => and_congr_right fun _ => beq_iff_eq

/-- What another character has is not deleted. -/
theorem equipmentBy_of_ne (h : w.Sound toNumber characters requests) (hr' : requests[j]? = some r')
    (hdone : ∀ s', r'.Issues s' → s'.rank < 5 → s' ∈ (w.runs j).done) (he : e ∈ r'.equipment)
    (hne : r'.id ≠ r.id) : w.tables.equipmentBy r.id e.id = false := by
  rw [Bool.eq_false_iff]
  intro hby
  obtain ⟨row, hrow, hid⟩ := equipmentBy_iff.1 hby
  obtain rfl := Option.some.inj (hrow.symm.trans (h.insertedCharacter hr' hdone he))
  exact hne hid

theorem deleteEquipped (h₀ : t₀.Saved requests) (h : w.Sound toNumber characters requests)
    (hr : requests[i]? = some r) (htodo : (w.runs i).todo = .deleteEquipped r.id :: todo) :
    w.Next toNumber characters requests i (.deleteEquipped r.id) { w.tables with
      equippedEquipment := w.tables.equippedEquipment.filter fun c _ => !w.tables.equipmentBy r.id c } := by
  have hget : ∀ id u, (w.tables.equippedEquipment.filter fun c _ => !w.tables.equipmentBy r.id c).get? id =
      some u ↔ w.tables.equippedEquipment.get? id = some u ∧ w.tables.equipmentBy r.id id = false := by
    intro id u
    rw [Table.get?_filter_eq_some, Bool.not_eq_true']
  refine ⟨⟨h.fits.item, h.fits.equip, h.fits.equipment, h.fits.stack, h.fits.character⟩,
    ⟨h.plain.equipment, h.plain.items, h.plain.storedItem, h.plain.storedEquipment, h.plain.insertable,
      h.plain.character⟩, trivial, fun j r' hr' s' hs' => ?_, fun j r' hr' hdone id row hrow hid hhas => ?_,
    fun j r' hr' hdone id row hrow hid hhas => ?_, SaveState.unheld_of_eq rfl nofun fun x hx m hm => hm,
    SaveState.marked_of_eq rfl nofun⟩
  · have hholds := h.holds j r' hr' s' hs'
    cases s' with
    | insertEquipped l =>
      obtain ⟨-, rfl⟩ := h.issues hr' hs'
      intro id hid
      obtain ⟨u, hu⟩ := Table.has_iff.1 (hholds id hid)
      obtain ⟨e, he, rfl⟩ := List.mem_map.1 hid
      refine Table.has_iff.2 ⟨u, (hget _ _).2 ⟨hu, ?_⟩⟩
      refine h.equipmentBy_of_ne hr' (fun s hs hrank => ?_) (SaveRequest.worn_mem he) fun hid => ?_
      · exact h.done_before hr' hs' hs (hrank.trans (by decide : 5 < 7))
      · obtain rfl := h₀.index_eq hr' hr hid
        have hle : 7 ≤ 5 := (h.precedes hr htodo hs').rank_le
        omega
    | insertItems | insertInventoryItem | insertEquipment | insertCharacterEquipment
    | insertInventoryEquipment => exact hholds
    | mark | deleteEquipped | deleteInventoryEquipment | purge => trivial
  · obtain ⟨u, hu⟩ := Table.has_iff.1 hhas
    obtain ⟨hu, hby⟩ := (hget _ _).1 hu
    rcases hdone with hdone | ⟨-, heq⟩
    · obtain ⟨l, hl, hmem⟩ := h.worn j r' hr' hdone id row hrow hid (Table.has_iff.2 ⟨u, hu⟩)
      exact ⟨l, .inl hl, hmem⟩
    · rw [ItemStatement.deleteEquipped.inj heq] at hid
      cases hby.symm.trans (equipmentBy_iff.2 ⟨row, hrow, hid⟩)
  · obtain ⟨l, hl, hmem⟩ := h.carried j r' hr' (hdone.done nofun) id row hrow hid hhas
    exact ⟨l, .inl hl, hmem⟩

theorem deleteInventoryEquipment (h₀ : t₀.Saved requests) (h : w.Sound toNumber characters requests)
    (hr : requests[i]? = some r) (htodo : (w.runs i).todo = .deleteInventoryEquipment r.id :: todo) :
    w.Next toNumber characters requests i (.deleteInventoryEquipment r.id) { w.tables with
      inventoryEquipment := w.tables.inventoryEquipment.filter fun c _ => !w.tables.equipmentBy r.id c } := by
  have hget : ∀ id u, (w.tables.inventoryEquipment.filter fun c _ => !w.tables.equipmentBy r.id c).get? id =
      some u ↔ w.tables.inventoryEquipment.get? id = some u ∧ w.tables.equipmentBy r.id id = false := by
    intro id u
    rw [Table.get?_filter_eq_some, Bool.not_eq_true']
  refine ⟨⟨h.fits.item, h.fits.equip, h.fits.equipment, h.fits.stack, h.fits.character⟩,
    ⟨h.plain.equipment, h.plain.items, h.plain.storedItem, h.plain.storedEquipment, h.plain.insertable,
      h.plain.character⟩, trivial, fun j r' hr' s' hs' => ?_, fun j r' hr' hdone id row hrow hid hhas => ?_,
    fun j r' hr' hdone id row hrow hid hhas => ?_, SaveState.unheld_of_eq rfl nofun fun x hx m hm => hm,
    SaveState.marked_of_eq rfl nofun⟩
  · have hholds := h.holds j r' hr' s' hs'
    cases s' with
    | insertInventoryEquipment l =>
      obtain ⟨-, rfl⟩ := h.issues hr' hs'
      intro a ha
      have hrow := hholds a ha
      obtain ⟨e, he, rfl⟩ := List.mem_map.1 ha
      refine (hget _ _).2 ⟨hrow, ?_⟩
      refine h.equipmentBy_of_ne hr' (fun s hs hrank => ?_) (SaveRequest.carried_mem he) fun hid => ?_
      · exact h.done_before hr' hs' hs (hrank.trans (by decide : 5 < 8))
      · obtain rfl := h₀.index_eq hr' hr hid
        have hle : 8 ≤ 6 := (h.precedes hr htodo hs').rank_le
        omega
    | insertItems | insertInventoryItem | insertEquipment | insertCharacterEquipment
    | insertEquipped => exact hholds
    | mark | deleteEquipped | deleteInventoryEquipment | purge => trivial
  · obtain ⟨l, hl, hmem⟩ := h.worn j r' hr' (hdone.done nofun) id row hrow hid hhas
    exact ⟨l, .inl hl, hmem⟩
  · obtain ⟨u, hu⟩ := Table.has_iff.1 hhas
    obtain ⟨hu, hby⟩ := (hget _ _).1 hu
    rcases hdone with hdone | ⟨-, heq⟩
    · obtain ⟨l, hl, hmem⟩ := h.carried j r' hr' hdone id row hrow hid (Table.has_iff.2 ⟨u, hu⟩)
      exact ⟨l, .inl hl, hmem⟩
    · rw [ItemStatement.deleteInventoryEquipment.inj heq] at hid
      cases hby.symm.trans (equipmentBy_iff.2 ⟨row, hrow, hid⟩)

theorem insertEquipped (h₀ : t₀.Saved requests) (h : w.Sound toNumber characters requests)
    (hr : requests[i]? = some r) {l : List UInt64} (hl : l = r.equippedEquipment.map (·.id))
    (htodo : (w.runs i).todo = .insertEquipped l :: todo) :
    ∃ t, (ItemStatement.insertEquipped l).exec toNumber characters w.tables = some t ∧
      w.Next toNumber characters requests i (.insertEquipped l) t := by
  have hmem := List.mem_of_getElem? hr
  have hrow : ∀ id ∈ l, ∃ row, w.tables.characterEquipment.get? id = some row ∧ row.characterId = r.id := by
    intro id hid
    rw [hl] at hid
    obtain ⟨e, he, rfl⟩ := List.mem_map.1 hid
    exact ⟨_, h.insertedCharacter hr (fun s' hs' hrank => h.done_next hr htodo hs'
      (hrank.trans (by decide : 5 < 7))) (SaveRequest.worn_mem he), rfl⟩
  have hnodup : (l.map fun id => id).Nodup := by
    rw [List.map_id', hl]
    have hids := (List.nodup_flatMap.1 h₀.ids).1 r hmem
    rw [UpdateCharacter.equipment, List.map_append] at hids
    exact hids.of_append_left
  obtain ⟨u, hu, hrows, hkept⟩ := Table.foldlM_put (t := w.tables.equippedEquipment)
    (f := fun u c => ItemTables.insertNew w.tables.characterEquipment.has u c ()) (P := fun _ _ => True)
    hnodup fun id hid u hget => by
      obtain ⟨row, hrow, hcharacter⟩ := hrow id hid
      refine ⟨(), if_pos ⟨Table.has_iff.2 ⟨row, hrow⟩, fun hhas => ?_⟩, trivial⟩
      rw [Table.has, hget] at hhas
      obtain ⟨l', hl', -⟩ := h.worn i r hr (h.done_next hr htodo
        (rfl : UpdateCharacter.Issues _ (.deleteEquipped r.id)) (by decide : 5 < 7)) id row hrow hcharacter hhas
      rcases h.precedes hr htodo hl' with hlt | ⟨-, hrepeats⟩
      · exact absurd hlt (lt_irrefl 7)
      · exact hrepeats
  have hhas : ∀ id, u.has id = true ↔ id ∈ l ∨ w.tables.equippedEquipment.has id = true := by
    intro id
    by_cases hid : id ∈ l
    · obtain ⟨row, hrow, -⟩ := hrows id hid
      exact iff_of_true (Table.has_iff.2 ⟨row, hrow⟩) (.inl hid)
    · rw [Table.has, Table.has, hkept id fun id' hid' heq => hid (heq ▸ hid')]
      exact (or_iff_right hid).symm
  refine ⟨{ w.tables with equippedEquipment := u }, ?_, ⟨h.fits.item, h.fits.equip, h.fits.equipment,
    h.fits.stack, h.fits.character⟩, ⟨h.plain.equipment, h.plain.items, h.plain.storedItem,
    h.plain.storedEquipment, h.plain.insertable, h.plain.character⟩, fun id hid => (hhas id).2 (.inl hid),
    fun j r' hr' s' hs' => ?_, fun j r' hr' hdone id row hrow' hid hhas' => ?_,
    fun j r' hr' hdone id row hrow hid hhas => ?_, SaveState.unheld_of_eq rfl (by simp) fun x hx m hm => hm,
    SaveState.marked_of_eq rfl (by simp)⟩
  · rw [ItemStatement.exec, hu]
    rfl
  · have hholds := h.holds j r' hr' s' hs'
    cases s' with
    | insertEquipped l' => exact fun id hid => (hhas id).2 (.inr (hholds id hid))
    | insertItems | insertInventoryItem | insertEquipment | insertCharacterEquipment
    | insertInventoryEquipment => exact hholds
    | mark | deleteEquipped | deleteInventoryEquipment | purge => trivial
  · rcases (hhas id).1 hhas' with hmem' | hhas'
    · obtain ⟨row', hrow, hcharacter⟩ := hrow id hmem'
      obtain rfl := Option.some.inj (hrow.symm.trans hrow')
      exact ⟨l, .inr ⟨h₀.index_eq hr' hr (hid.symm.trans hcharacter), rfl⟩, hmem'⟩
    · obtain ⟨l', hl', hmem'⟩ := h.worn j r' hr' (hdone.done (by simp)) id row hrow' hid hhas'
      exact ⟨l', .inl hl', hmem'⟩
  · obtain ⟨l', hl', hmem'⟩ := h.carried j r' hr' (hdone.done (by simp)) id row hrow hid hhas
    exact ⟨l', .inl hl', hmem'⟩

theorem insertInventoryEquipment (h₀ : t₀.Saved requests) (h : w.Sound toNumber characters requests)
    (hr : requests[i]? = some r) {l : List (UInt64 × UInt8)}
    (hl : l = r.equipmentInventory.map fun e => (e.2.id, e.1))
    (htodo : (w.runs i).todo = .insertInventoryEquipment l :: todo) :
    ∃ t, (ItemStatement.insertInventoryEquipment l).exec toNumber characters w.tables = some t ∧
      w.Next toNumber characters requests i (.insertInventoryEquipment l) t := by
  have hmem := List.mem_of_getElem? hr
  have hrow : ∀ a ∈ l, ∃ row, w.tables.characterEquipment.get? a.1 = some row ∧ row.characterId = r.id := by
    intro a ha
    rw [hl] at ha
    obtain ⟨e, he, rfl⟩ := List.mem_map.1 ha
    exact ⟨_, h.insertedCharacter hr (fun s' hs' hrank => h.done_next hr htodo hs'
      (hrank.trans (by decide : 5 < 8))) (SaveRequest.carried_mem he), rfl⟩
  have hnodup : (l.map Prod.fst).Nodup := by
    have hids := (List.nodup_flatMap.1 h₀.ids).1 r hmem
    rw [UpdateCharacter.equipment, List.map_append, List.map_map] at hids
    rw [hl, List.map_map]
    exact hids.of_append_right
  obtain ⟨u, hu, hrows, hkept⟩ := Table.foldlM_put (t := w.tables.inventoryEquipment)
    (f := fun u a => ItemTables.insertNew w.tables.characterEquipment.has u a.1 a.2)
    (P := fun a slot => slot = a.2) hnodup fun a ha u hget => by
      obtain ⟨row, hrow, hcharacter⟩ := hrow a ha
      refine ⟨a.2, if_pos ⟨Table.has_iff.2 ⟨row, hrow⟩, fun hhas => ?_⟩, rfl⟩
      rw [Table.has, hget] at hhas
      obtain ⟨l', hl', -⟩ := h.carried i r hr (h.done_next hr htodo
        (rfl : UpdateCharacter.Issues _ (.deleteInventoryEquipment r.id)) (by decide : 6 < 8)) a.1 row hrow hcharacter hhas
      rcases h.precedes hr htodo hl' with hlt | ⟨-, hrepeats⟩
      · exact absurd hlt (lt_irrefl 8)
      · exact hrepeats
  have hslot : ∀ a ∈ l, u.get? a.1 = some a.2 := by
    intro a ha
    obtain ⟨slot, hslot, rfl⟩ := hrows a ha
    exact hslot
  refine ⟨{ w.tables with inventoryEquipment := u }, ?_, ⟨h.fits.item, h.fits.equip, h.fits.equipment,
    h.fits.stack, h.fits.character⟩, ⟨h.plain.equipment, h.plain.items, h.plain.storedItem,
    h.plain.storedEquipment, h.plain.insertable, h.plain.character⟩, hslot,
    fun j r' hr' s' hs' => ?_, fun j r' hr' hdone id row hrow hid hhas => ?_,
    fun j r' hr' hdone id row hrow' hid hhas' => ?_, SaveState.unheld_of_eq rfl (by simp) fun x hx m hm => hm,
    SaveState.marked_of_eq rfl (by simp)⟩
  · rw [ItemStatement.exec, hu]
    rfl
  · have hholds := h.holds j r' hr' s' hs'
    cases s' with
    | insertInventoryEquipment l' =>
      obtain ⟨-, rfl⟩ := h.issues hr' hs'
      intro a ha
      by_cases hkey : ∃ b ∈ l, b.1 = a.1
      · -- of another save it is not
        obtain ⟨b, hb, heq⟩ := hkey
        obtain ⟨e, he, rfl⟩ := List.mem_map.1 ha
        have hb' := hb
        rw [hl] at hb'
        obtain ⟨e', he', rfl⟩ := List.mem_map.1 hb'
        obtain ⟨rfl, -⟩ := h₀.eq_of_id hmem (List.mem_of_getElem? hr') (SaveRequest.carried_mem he')
          (SaveRequest.carried_mem he) heq
        exact hslot _ (hl ▸ ha)
      · exact (hkept _ fun b hb heq => hkey ⟨b, hb, heq⟩).trans (hholds a ha)
    | insertItems | insertInventoryItem | insertEquipment | insertCharacterEquipment
    | insertEquipped => exact hholds
    | mark | deleteEquipped | deleteInventoryEquipment | purge => trivial
  · obtain ⟨l', hl', hmem'⟩ := h.worn j r' hr' (hdone.done (by simp)) id row hrow hid hhas
    exact ⟨l', .inl hl', hmem'⟩
  · by_cases hkey : ∃ a ∈ l, a.1 = id
    · obtain ⟨a, ha, rfl⟩ := hkey
      obtain ⟨row', hrow, hcharacter⟩ := hrow a ha
      obtain rfl := Option.some.inj (hrow.symm.trans hrow')
      exact ⟨l, .inr ⟨h₀.index_eq hr' hr (hid.symm.trans hcharacter), rfl⟩, a, ha, rfl⟩
    · have hhas : w.tables.inventoryEquipment.has id = true := by
        rw [Table.has, ← hkept id fun a ha heq => hkey ⟨a, ha, heq⟩]
        exact hhas'
      obtain ⟨l', hl', hmem'⟩ := h.carried j r' hr' (hdone.done (by simp)) id row hrow' hid hhas
      exact ⟨l', .inl hl', hmem'⟩

/-! ## Purging -/

/-- What has been inserted is not marked. -/
theorem unmarked (h : w.Sound toNumber characters requests) (hr : requests[i]? = some r)
    (hdone : ∀ s', r.Issues s' → s'.rank < 2 → s' ∈ (w.runs i).done) {e : ItemEntry} (he : e ∈ r.itemEntries) :
    w.tables.marked e.id = false := by
  obtain ⟨row, hrow, hdel⟩ := h.inserted hr hdone he
  rw [ItemTables.marked, hrow]
  exact hdel

theorem unmarkedEquipment (h : w.Sound toNumber characters requests) (hr : requests[i]? = some r)
    (hdone : ∀ s', r.Issues s' → s'.rank < 4 → s' ∈ (w.runs i).done) (he : e ∈ r.equipment) :
    w.tables.markedEquipment e.equipId = false := by
  obtain ⟨row, hrow, hitem⟩ := h.insertedEquipment hr hdone he
  rw [ItemTables.markedEquipment, hrow]
  change w.tables.marked row.item = false
  rw [hitem]
  exact h.unmarked hr (fun s' hs' hrank => hdone s' hs' (hrank.trans (by decide : 2 < 4)))
    (SaveRequest.itemEntry_mem he)

theorem unmarkedCharacter (h : w.Sound toNumber characters requests) (hr : requests[i]? = some r)
    (hdone : ∀ s', r.Issues s' → s'.rank < 5 → s' ∈ (w.runs i).done) (he : e ∈ r.equipment) :
    w.tables.markedCharacterEquipment e.id = false := by
  rw [ItemTables.markedCharacterEquipment, h.insertedCharacter hr hdone he]
  exact h.unmarkedEquipment hr (fun s' hs' hrank => hdone s' hs' (hrank.trans (Nat.lt_succ_self 4))) he

theorem purge (h : w.Sound toNumber characters requests) :
    w.Next toNumber characters requests i .purge w.tables.purge := by
  refine ⟨⟨fun r hr e he row hrow => ?_, fun r hr e he row hrow => ?_, fun k row hrow hx => ?_,
      fun r hr e he => ?_, fun id row hrow => ?_⟩,
    ⟨h.plain.equipment, h.plain.items, fun s row hrow => ?_, fun s k hk => ?_, h.plain.insertable,
      h.plain.character⟩, trivial, fun j r hr s' hs' => ?_, fun j r hr hdone id row hrow hid hhas => ?_,
    fun j r hr hdone id row hrow hid hhas => ?_, fun x row hrow hx => ?_, fun x row hrow hdel => ?_⟩
  · exact h.fits.item r hr e he row (ItemTables.purge_equipment.1 hrow).1
  · exact h.fits.equip r hr e he row (ItemTables.purge_characterEquipment.1 hrow).1
  · exact h.fits.equipment k row (ItemTables.purge_equipment.1 hrow).1 hx
  · have hnone := h.fits.stack r hr e he
    rw [Option.eq_none_iff_forall_ne_some] at hnone ⊢
    exact fun row hrow => hnone row (ItemTables.purge_inventoryItems.1 hrow).1
  · exact h.fits.character id row (ItemTables.purge_characterEquipment.1 hrow).1
  · exact h.plain.storedItem s row (ItemTables.purge_storageItems.1 hrow).1
  · exact h.plain.storedEquipment s k (ItemTables.purge_storageEquipment.1 hk).1
  · -- what has been done is about items that are not marked
    have hholds := h.holds j r hr s' hs'
    have hdone : ∀ n, n ≤ s'.rank → ∀ s'', r.Issues s'' → s''.rank < n → s'' ∈ (w.runs j).done :=
      fun n hn s'' hs'' hrank => h.done_before hr hs' hs'' (hrank.trans_le hn)
    have hissues := h.issues hr hs'
    cases s' with
    | insertItems l =>
      intro e he
      obtain ⟨row, hrow, hdel⟩ := hholds e he
      exact ⟨row, ItemTables.purge_items.2 ⟨hrow, hdel⟩, hdel⟩
    | insertInventoryItem item row =>
      obtain ⟨a, ha, rfl, rfl⟩ := hissues
      exact ItemTables.purge_inventoryItems.2
        ⟨hholds, h.unmarked hr (hdone 2 le_rfl) (SaveRequest.stackEntry_mem ha)⟩
    | insertEquipment l =>
      obtain ⟨-, rfl⟩ := hissues
      intro a ha
      obtain ⟨row, hrow, hitem⟩ := hholds a ha
      obtain ⟨e, he, rfl⟩ := List.mem_map.1 ha
      refine ⟨row, ItemTables.purge_equipment.2 ⟨hrow, ?_⟩, hitem⟩
      rw [hitem]
      exact h.unmarked hr (hdone 2 (by decide : 2 ≤ 3)) (SaveRequest.itemEntry_mem he)
    | insertCharacterEquipment id row =>
      obtain ⟨e, he, rfl, rfl⟩ := hissues
      exact ItemTables.purge_characterEquipment.2 ⟨hholds, h.unmarkedEquipment hr (hdone 4 le_rfl) he⟩
    | insertEquipped l =>
      obtain ⟨-, rfl⟩ := hissues
      intro id hid
      obtain ⟨u, hu⟩ := Table.has_iff.1 (hholds id hid)
      obtain ⟨e, he, rfl⟩ := List.mem_map.1 hid
      exact Table.has_iff.2 ⟨u, ItemTables.purge_equippedEquipment.2
        ⟨hu, h.unmarkedCharacter hr (hdone 5 (by decide : 5 ≤ 7)) (SaveRequest.worn_mem he)⟩⟩
    | insertInventoryEquipment l =>
      obtain ⟨-, rfl⟩ := hissues
      intro a ha
      have hrow := hholds a ha
      obtain ⟨e, he, rfl⟩ := List.mem_map.1 ha
      exact ItemTables.purge_inventoryEquipment.2
        ⟨hrow, h.unmarkedCharacter hr (hdone 5 (by decide : 5 ≤ 8)) (SaveRequest.carried_mem he)⟩
    | mark | deleteEquipped | deleteInventoryEquipment | purge => trivial
  · obtain ⟨u, hu⟩ := Table.has_iff.1 hhas
    obtain ⟨l, hl, hmem⟩ := h.worn j r hr (hdone.done nofun) id row
      (ItemTables.purge_characterEquipment.1 hrow).1 hid
      (Table.has_iff.2 ⟨u, (ItemTables.purge_equippedEquipment.1 hu).1⟩)
    exact ⟨l, .inl hl, hmem⟩
  · obtain ⟨u, hu⟩ := Table.has_iff.1 hhas
    obtain ⟨l, hl, hmem⟩ := h.carried j r hr (hdone.done nofun) id row
      (ItemTables.purge_characterEquipment.1 hrow).1 hid
      (Table.has_iff.2 ⟨u, (ItemTables.purge_inventoryEquipment.1 hu).1⟩)
    exact ⟨l, .inl hl, hmem⟩
  · obtain ⟨hrow, hdel⟩ := ItemTables.purge_items.1 hrow
    refine .inr ⟨row, hrow, hdel, fun m hm => ⟨nofun, ?_⟩⟩
    have hmarked : w.tables.marked x = false := by
      rw [ItemTables.marked, hrow]
      exact hdel
    have hof : ∀ k, w.tables.equipmentOf x k = true → w.tables.markedEquipment k = false := by
      intro k hk
      obtain ⟨owned, howned, rfl⟩ := ItemTables.equipmentOf_iff.1 hk
      rw [ItemTables.markedEquipment, howned]
      exact hmarked
    refine ItemTables.hits_mono hm (fun row hrow => ItemTables.purge_inventoryItems.2 ⟨hrow, hmarked⟩)
      (fun k hk => ?_) (fun c row hrow hk => ItemTables.purge_characterEquipment.2 ⟨hrow, hof _ hk⟩)
      (fun s row hrow hitem => ItemTables.purge_storageItems.2 ⟨hrow, hitem ▸ hmarked⟩)
      (fun s k hk hx => ItemTables.purge_storageEquipment.2 ⟨hk, hof k hx⟩) rfl
    obtain ⟨owned, howned, rfl⟩ := ItemTables.equipmentOf_iff.1 hk
    exact ItemTables.equipmentOf_iff.2 ⟨owned, ItemTables.purge_equipment.2 ⟨howned, hmarked⟩, rfl⟩
  · cases (ItemTables.purge_items.1 hrow).2.symm.trans hdel

end SaveState.Sound

end

end Syrup
