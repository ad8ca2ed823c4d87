import Syrup.Database.Saves.Steps

/-!
# Items that change hands

Characters are saved at the same time, and when all saves are over every item is where the request in which
it is says, and nowhere else (`handedOver_run`), if nothing is stored and no save marks an item after another
one has inserted it.
-/

namespace Syrup

open Relational

section

variable {toNumber : List UInt8 → Option UInt32} {characters : UInt32 → Bool} {requests : List SaveRequest}
  {w w' : SaveState} {i : ℕ} {t₀ : ItemTables}

namespace SaveState

theorem sound_start (h₀ : t₀.Saved requests) (hplain : Plain toNumber characters t₀ requests) :
    Sound toNumber characters requests (start t₀ requests) := by
  have hdone : ∀ i s, s ∉ ((start t₀ requests).runs i).done := fun i s => List.not_mem_nil
  refine ⟨fun i r hr => ?_, fun i => rfl, fun i hi => ?_, h₀.fits, hplain, fun i r hr s hs => absurd hs (hdone i s),
    fun i r hr hs => absurd hs (hdone i _), fun i r hr hs => absurd hs (hdone i _), fun x row hrow hx => ?_,
    fun x row hrow hdel => ?_⟩
  · change [] ++ (requests[i]?.map _).getD [] = _
    rw [hr]
    rfl
  · change (requests[i]?.map _).getD [] = _
    rw [hi]
    rfl
  · rcases h₀.held x (Table.has_iff.2 ⟨row, hrow⟩) with hx' | ⟨r, hr, m, hm, hhit⟩
    · exact absurd hx' hx
    · obtain ⟨i, hi⟩ := List.mem_iff_getElem?.1 hr
      refine .inr ⟨i, r, m, hi, ?_, hhit⟩
      change ItemStatement.mark m ∈ (requests[i]?.map _).getD []
      rw [hi]
      exact UpdateCharacter.mem_itemStatements.2 hm
  · cases (h₀.unmarked x row hrow).symm.trans hdel

theorem Sound.step (h₀ : t₀.Saved requests) (h : w.Sound toNumber characters requests)
    (hturn : InTurn requests i w) (hstep : step toNumber characters i w = .ok w') :
    w'.Sound toNumber characters requests := by
  rw [SaveState.step] at hstep
  rw [h.running i, if_neg Bool.false_ne_true] at hstep
  cases htodo : (w.runs i).todo with
  | nil =>
    rw [htodo] at hstep
    cases hstep
    exact h
  | cons s todo =>
    rw [htodo] at hstep
    obtain ⟨r, hr⟩ : ∃ r, requests[i]? = some r := by
      by_contra hnone
      rw [not_exists, ← Option.eq_none_iff_forall_ne_some] at hnone
      cases htodo.symm.trans (h.nobody i hnone)
    have hnext : ∃ t, s.exec toNumber characters w.tables = some t ∧
        w.Next toNumber characters requests i s t := by
      have hissues := h.issues_next hr htodo
      cases s with
      | mark m => exact ⟨_, rfl, h.mark hr htodo hturn⟩
      | insertItems l =>
        obtain ⟨-, rfl⟩ := hissues
        exact h.insertItems h₀ hr
      | insertInventoryItem item row =>
        obtain ⟨a, ha, rfl, rfl⟩ := hissues
        exact h.insertInventoryItem h₀ hr ha htodo
      | insertEquipment l =>
        obtain ⟨-, rfl⟩ := hissues
        exact h.insertEquipment h₀ hr htodo
      | insertCharacterEquipment id row =>
        obtain ⟨e, he, rfl, rfl⟩ := hissues
        exact h.insertCharacterEquipment h₀ hr he htodo
      | deleteEquipped c =>
        obtain rfl : c = r.id := hissues
        exact ⟨_, rfl, h.deleteEquipped h₀ hr htodo⟩
      | deleteInventoryEquipment c =>
        obtain rfl : c = r.id := hissues
        exact ⟨_, rfl, h.deleteInventoryEquipment h₀ hr htodo⟩
      | insertEquipped l => exact h.insertEquipped h₀ hr hissues.2 htodo
      | insertInventoryEquipment l => exact h.insertInventoryEquipment h₀ hr hissues.2 htodo
      | purge => exact ⟨_, rfl, h.purge⟩
    obtain ⟨t, ht, hnext⟩ := hnext
    dsimp only at hstep
    rw [ht] at hstep
    cases hstep
    exact h.next hr htodo hnext

/-! ## When all saves are over -/

/-- A save that is over has executed all its statements. -/
theorem Sound.executed (h : w.Sound toNumber characters requests) (hfinished : ∀ i, (w.runs i).Finished)
    {r : SaveRequest} (hr : requests[i]? = some r) {s : ItemStatement} (hs : r.Issues s) :
    s ∈ (w.runs i).done := by
  have htodo : (w.runs i).todo = [] :=
    (hfinished i).resolve_left fun hfailed => Bool.false_ne_true ((h.running i).symm.trans hfailed)
  have hsplit := h.split i r hr
  rw [htodo, List.append_nil] at hsplit
  rw [hsplit]
  exact UpdateCharacter.mem_itemStatements.2 hs

/-- There is nothing in a request but what is worn or carried, and stacks. -/
theorem Sound.mem_places (h : w.Sound toNumber characters requests) {r : SaveRequest} (hr : r ∈ requests)
    {x : UInt64} {p : ItemPlace} (hp : (x, p) ∈ r.places) :
    (∃ e ∈ r.equippedEquipment, x = e.itemNumber ∧ p = .worn r.id e.id) ∨
    (∃ e ∈ r.equipmentInventory, x = e.2.itemNumber ∧ p = .carried r.id e.2.id e.1) ∨
    ∃ a ∈ r.inventoryItems, x = a.itemNumber ∧ p = .stack (r.stackRow a) := by
  rw [SaveRequest.places, h.plain.equipment r hr, h.plain.items r hr, List.map_nil, List.map_nil,
    List.append_nil, List.append_nil, List.mem_append, List.mem_append] at hp
  refine hp.imp (fun hp => ?_) (Or.imp (fun hp => ?_) fun hp => ?_)
  all_goals
    obtain ⟨e, he, heq⟩ := List.mem_map.1 hp
    exact ⟨e, he, (Prod.mk.inj heq).1.symm, (Prod.mk.inj heq).2.symm⟩

/-- What a piece of equipment says of its item. -/
theorem Sound.equipmentOf (h : w.Sound toNumber characters requests) (hfinished : ∀ i, (w.runs i).Finished)
    {r : SaveRequest} (hr : requests[i]? = some r) {e : SavedEquipment} (he : e ∈ r.equipment) :
    w.tables.equipmentOf e.itemNumber e.equipId = true := by
  obtain ⟨row, hrow, hitem⟩ := h.insertedEquipment hr (fun _ hs _ => h.executed hfinished hr hs) he
  exact ItemTables.equipmentOf_iff.2 ⟨row, hrow, hitem⟩

/-- Where a piece of equipment is, that is worn or carried by a character. -/
theorem Sound.eq_of_equipmentOf (h₀ : t₀.Saved requests) (h : w.Sound toNumber characters requests)
    {r r' : SaveRequest} (hr : r ∈ requests) (hr' : r' ∈ requests) {e e' : SavedEquipment}
    (he : e ∈ r.equipment) (he' : e' ∈ r'.equipment) {row : CharacterEquipmentRow}
    (hrow : w.tables.characterEquipment.get? e'.id = some row)
    (hof : w.tables.equipmentOf e.itemNumber row.equip = true) : r' = r ∧ e' = e := by
  rw [h.fits.equip r' hr' e' he' row hrow] at hof
  obtain ⟨owned, howned, hitem⟩ := ItemTables.equipmentOf_iff.1 hof
  have heq := (h.fits.item r' hr' e' he' owned howned).symm.trans hitem
  obtain ⟨rfl, heq⟩ := h₀.eq_of_item hr' hr (SaveRequest.itemEntry_mem he')
    (SaveRequest.itemEntry_mem he) heq
  refine ⟨rfl, ?_⟩
  -- no two pieces of equipment are the same item
  have hnodup := h₀.entries_nodup hr
  rw [UpdateCharacter.itemEntries, List.map_append, List.map_map] at hnodup
  exact List.inj_on_of_nodup_map hnodup.of_append_left he' he (congrArg ItemEntry.id heq)

/-- A piece of equipment of a request is at no other place than that at which it should be. -/
theorem Sound.equipment_at (h₀ : t₀.Saved requests) (h : w.Sound toNumber characters requests)
    (hfinished : ∀ i, (w.runs i).Finished) {r : SaveRequest} (hr : r ∈ requests) {e : SavedEquipment}
    (he : e ∈ r.equipment) {q : ItemPlace} (hq : w.tables.At e.itemNumber q) :
    (q = .worn r.id e.id ∧ e ∈ r.equippedEquipment) ∨
      ∃ slot, q = .carried r.id e.id slot ∧ (slot, e) ∈ r.equipmentInventory := by
  cases q with
  | stack row => cases (h.fits.stack r hr e he).symm.trans hq
  | worn c id =>
    obtain ⟨hhas, row, hrow, rfl, hof⟩ := hq
    obtain ⟨r', hr', hid⟩ := h.fits.character id row hrow
    obtain ⟨j, hj⟩ := List.mem_iff_getElem?.1 hr'
    obtain ⟨l, hl, hmem⟩ := h.worn j r' hj (h.executed hfinished hj rfl) id row hrow hid.symm hhas
    obtain ⟨-, rfl⟩ := h.issues hj hl
    obtain ⟨e', he', rfl⟩ := List.mem_map.1 hmem
    obtain ⟨rfl, rfl⟩ := h.eq_of_equipmentOf h₀ hr hr' he (SaveRequest.worn_mem he') hrow hof
    exact .inl ⟨by rw [hid], he'⟩
  | carried c id slot =>
    obtain ⟨hslot, row, hrow, rfl, hof⟩ := hq
    obtain ⟨r', hr', hid⟩ := h.fits.character id row hrow
    obtain ⟨j, hj⟩ := List.mem_iff_getElem?.1 hr'
    obtain ⟨l, hl, a, ha, rfl⟩ := h.carried j r' hj (h.executed hfinished hj rfl) id row hrow hid.symm
      (Table.has_iff.2 ⟨slot, hslot⟩)
    have hholds := h.holds j r' hj _ hl a ha
    obtain ⟨-, rfl⟩ := h.issues hj hl
    obtain ⟨e', he', rfl⟩ := List.mem_map.1 ha
    obtain ⟨rfl, rfl⟩ := h.eq_of_equipmentOf h₀ hr hr' he (SaveRequest.carried_mem he') hrow hof
    obtain rfl := Option.some.inj (hslot.symm.trans hholds)
    exact .inr ⟨e'.1, by rw [hid], he'⟩
  | storedItem s =>
    obtain ⟨row, hrow, hitem⟩ := hq
    exact absurd ⟨r, hr, hitem ▸ SaveRequest.mem_itemIds (SaveRequest.itemEntry_mem he)⟩
      (h.plain.storedItem s row hrow)
  | storedEquipment s =>
    obtain ⟨k, hk, hof⟩ := hq
    obtain ⟨owned, howned, hitem⟩ := ItemTables.equipmentOf_iff.1 hof
    obtain ⟨r', hr', e', he', rfl⟩ := h.fits.equipment k owned howned
      ⟨r, hr, hitem ▸ SaveRequest.mem_itemIds (SaveRequest.itemEntry_mem he)⟩
    exact absurd rfl (h.plain.storedEquipment s _ hk r' hr' e' he')

/-- A stack of a request is at no other place than that at which it should be. -/
theorem Sound.stack_at (h₀ : t₀.Saved requests) (h : w.Sound toNumber characters requests)
    (hfinished : ∀ i, (w.runs i).Finished) (i : ℕ) {r : SaveRequest} (hr : requests[i]? = some r)
    {a : SavedItem} (ha : a ∈ r.inventoryItems) {q : ItemPlace} (hq : w.tables.At a.itemNumber q) :
    q = .stack (r.stackRow a) := by
  have hmem := List.mem_of_getElem? hr
  have hrequested : Requested requests a.itemNumber :=
    ⟨r, hmem, SaveRequest.mem_itemIds (SaveRequest.stackEntry_mem ha)⟩
  -- it is not a piece of equipment
  have hof : ∀ k, w.tables.equipmentOf a.itemNumber k = false := by
    intro k
    rw [Bool.eq_false_iff]
    intro hof
    obtain ⟨owned, howned, hitem⟩ := ItemTables.equipmentOf_iff.1 hof
    obtain ⟨r', hr', e', he', rfl⟩ := h.fits.equipment k owned howned (hitem ▸ hrequested)
    exact h₀.stack_ne hmem hr' ha he' ((h.fits.item r' hr' e' he' owned howned).symm.trans hitem)
  cases q with
  | stack row =>
    have hholds := h.holds i r hr _ (h.executed hfinished hr
      (s := .insertInventoryItem a.itemNumber (r.stackRow a)) ⟨a, ha, rfl, rfl⟩)
    rw [Option.some.inj (Eq.symm hq |>.trans hholds)]
  | worn c id =>
    obtain ⟨-, row, -, -, htrue⟩ := hq
    cases (hof _).symm.trans htrue
  | carried c id slot =>
    obtain ⟨-, row, -, -, htrue⟩ := hq
    cases (hof _).symm.trans htrue
  | storedItem s =>
    obtain ⟨row, hrow, hitem⟩ := hq
    exact absurd (hitem ▸ hrequested) (h.plain.storedItem s row hrow)
  | storedEquipment s =>
    obtain ⟨k, -, htrue⟩ := hq
    cases (hof _).symm.trans htrue

/-- A piece of equipment is not both worn and carried. -/
theorem not_worn_and_carried (h₀ : t₀.Saved requests) {r : SaveRequest} (hr : r ∈ requests)
    {e : SavedEquipment} {slot : UInt8} (hworn : e ∈ r.equippedEquipment)
    (hcarried : (slot, e) ∈ r.equipmentInventory) : False := by
  have hids := (List.nodup_flatMap.1 h₀.ids).1 r hr
  rw [UpdateCharacter.equipment, List.map_append, List.map_map] at hids
  exact List.disjoint_of_nodup_append hids (List.mem_map_of_mem hworn) (List.mem_map.2 ⟨_, hcarried, rfl⟩)

/-- A piece of equipment is carried in one slot. -/
theorem slot_eq_of_carried (h₀ : t₀.Saved requests) {r : SaveRequest} (hr : r ∈ requests)
    {e e' : UInt8 × SavedEquipment} (he : e ∈ r.equipmentInventory) (he' : e' ∈ r.equipmentInventory)
    (heq : e.2 = e'.2) : e = e' := by
  have hids := (List.nodup_flatMap.1 h₀.ids).1 r hr
  rw [UpdateCharacter.equipment, List.map_append, List.map_map] at hids
  exact List.inj_on_of_nodup_map hids.of_append_right he he' (congrArg SavedEquipment.id heq)

/-- When all saves are over, every item is where it should be, and there are no others. -/
theorem Sound.keeps (h₀ : t₀.Saved requests) (h : w.Sound toNumber characters requests)
    (hfinished : ∀ i, (w.runs i).Finished) : w.tables.Keeps requests := by
  have hexecuted : ∀ i r, requests[i]? = some r → ∀ n s, r.Issues s → s.rank < n → s ∈ (w.runs i).done :=
    fun i r hr _ s hs _ => h.executed hfinished hr hs
  have hhas : ∀ r ∈ requests, ∀ e ∈ r.itemEntries, w.tables.items.has e.id = true := by
    intro r hr e he
    obtain ⟨i, hi⟩ := List.mem_iff_getElem?.1 hr
    obtain ⟨row, hrow, -⟩ := h.inserted hi (hexecuted i r hi 2) he
    exact Table.has_iff.2 ⟨row, hrow⟩
  refine ⟨fun r hr x p hp => ?_, fun x hx => ?_⟩
  · obtain ⟨i, hi⟩ := List.mem_iff_getElem?.1 hr
    rcases h.mem_places hr hp with ⟨e, he, rfl, rfl⟩ | ⟨e, he, rfl, rfl⟩ | ⟨a, ha, rfl, rfl⟩
    · have hequipment := SaveRequest.worn_mem he
      have hworn := h.holds i r hi _ (h.executed hfinished hi
        (s := .insertEquipped (r.equippedEquipment.map (·.id)))
        ⟨List.ne_nil_of_mem (List.mem_map_of_mem he), rfl⟩) e.id (List.mem_map_of_mem he)
      refine ⟨hhas r hr _ (SaveRequest.itemEntry_mem hequipment), ⟨hworn, _,
        h.insertedCharacter hi (hexecuted i r hi 5) hequipment, rfl,
        h.equipmentOf hfinished hi hequipment⟩, fun q hq => ?_⟩
      rcases h.equipment_at h₀ hfinished hr hequipment hq with ⟨rfl, -⟩ | ⟨slot, -, hcarried⟩
      · rfl
      · exact (not_worn_and_carried h₀ hr he hcarried).elim
    · have hequipment := SaveRequest.carried_mem he
      have hmem : (e.2.id, e.1) ∈ r.equipmentInventory.map fun e => (e.2.id, e.1) :=
        List.mem_map.2 ⟨e, he, rfl⟩
      have hcarried := h.holds i r hi _ (h.executed hfinished hi
        (s := .insertInventoryEquipment (r.equipmentInventory.map fun e => (e.2.id, e.1)))
        ⟨List.ne_nil_of_mem hmem, rfl⟩) _ hmem
      refine ⟨hhas r hr _ (SaveRequest.itemEntry_mem hequipment), ⟨hcarried, _,
        h.insertedCharacter hi (hexecuted i r hi 5) hequipment, rfl,
        h.equipmentOf hfinished hi hequipment⟩, fun q hq => ?_⟩
      rcases h.equipment_at h₀ hfinished hr hequipment hq with ⟨-, hworn⟩ | ⟨slot, rfl, hcarried⟩
      · exact (not_worn_and_carried h₀ hr hworn he).elim
      · rw [← slot_eq_of_carried h₀ hr hcarried he rfl]
    · exact ⟨hhas r hr _ (SaveRequest.stackEntry_mem ha), h.holds i r hi _ (h.executed hfinished hi
        (s := .insertInventoryItem a.itemNumber (r.stackRow a)) ⟨a, ha, rfl, rfl⟩),
        fun q hq => h.stack_at h₀ hfinished i hi ha hq⟩
  · obtain ⟨row, hrow⟩ := Table.has_iff.1 hx
    have htodo : ∀ i, (w.runs i).todo = [] := fun i =>
      (hfinished i).resolve_left fun hfailed => Bool.false_ne_true ((h.running i).symm.trans hfailed)
    by_contra hnone
    rcases h.unheld x row hrow hnone with hdel | ⟨i, r, m, -, hm, -⟩
    · obtain ⟨i, r, -, hpurge⟩ := h.marked x row hrow hdel
      rw [htodo] at hpurge
      cases hpurge
    · rw [htodo] at hm
      cases hm

end SaveState

/-- However the statements of saves are interleaved: when they are over every item of every request is stored
    for its character, once, and no other item is there, as long as nothing is in a storage, what is to be
    inserted can be, and no save marks an item after another one has inserted it. -/
theorem handedOver_run (h₀ : t₀.Saved requests) (hplain : Plain toNumber characters t₀ requests)
    (hrun : Machine.Run (SaveState.step toNumber characters) (InTurn requests) (.start t₀ requests) w)
    (hfinished : ∀ i < requests.length, (w.runs i).Finished) : w.tables.Keeps requests := by
  have hsound : w.Sound toNumber characters requests :=
    hrun.invariant (SaveState.sound_start h₀ hplain) fun i w w' hw hturn hstep => hw.step h₀ hturn hstep
  refine hsound.keeps h₀ fun i => ?_
  rcases lt_or_ge i requests.length with hi | hi
  · exact hfinished i hi
  · exact .inr (hsound.nobody i (List.getElem?_eq_none hi))

end

/-! ## A stack that changes hands, and one that is stored -/

instance (run : SaveRun) : Decidable run.Finished := inferInstanceAs (Decidable (_ ∨ _))

/-- What the next statement marks by, if it marks. -/
def SaveRun.nextMark (run : SaveRun) : Option ItemMark :=
  match run.todo.head? with
  | some (.mark m) => some m
  | _ => none

theorem SaveRun.nextMark_iff {run : SaveRun} {m : ItemMark} :
    run.nextMark = some m ↔ run.todo.head? = some (.mark m) := by
  rw [nextMark]
  split
  · rename_i m' hm'
    rw [hm', Option.some.injEq, Option.some.injEq, ItemStatement.mark.injEq]
  · rename_i hother
    exact iff_of_false nofun (hother m)

instance (requests : List SaveRequest) (i : ℕ) (w : SaveState) : Decidable (InTurn requests i w) :=
  decidable_of_iff (∀ m ∈ (w.runs i).nextMark, ∀ j ∈ List.range requests.length, ∀ r ∈ requests[j]?, j ≠ i →
      .insertItems r.itemEntries ∈ (w.runs j).done → ∀ e ∈ r.itemEntries, w.tables.hits m e.id = false)
    ⟨fun h m hm j r hr => h m (SaveRun.nextMark_iff.2 hm) j
      (List.mem_range.2 (List.getElem?_eq_some_iff.1 hr).1) r hr,
    fun h m hm j _ r hr => h m (SaveRun.nextMark_iff.1 hm) j r hr⟩

/-- A request for nothing but stacks, and what is stored. -/
def requestOf (id : UInt32) (inventoryItems : List SavedItem) (storageItems : List StoredItem) :
    SaveRequest where
  toSavedCharacter := { (default : SavedCharacter) with inventoryItems }
  id := id
  accountId := id
  storageId := 1
  storageSlots := 4
  storageMesos := 0
  storageEquipCount := 0
  storageItemCount := UInt64.ofNat storageItems.length
  storageEquipment := []
  storageItems := storageItems

/-- A stack of twenty potions, and the same stack in a storage. -/
def handedPotions : SavedItem := { (default : SavedItem) with slot := 1, count := 20, itemNumber := 7, itemId := 2000000 }

def storedPotions : StoredItem := ⟨3, 0, 20, handedPotions.itemEntry⟩

/-- The potions are those of character 1. -/
def handOverTables : ItemTables where
  items := .ofList [(7, ⟨2000000, 0, none, none, false⟩)] (List.nodup_singleton _)
  inventoryItems := .ofList [(7, ⟨1, 1, 20⟩)] (List.nodup_singleton _)
  equipment := .empty
  characterEquipment := .empty
  equippedEquipment := .empty
  inventoryEquipment := .empty
  storages := .empty
  storageSlots := .empty
  storageItems := .empty
  storageEquipment := .empty

/-- They are in the storage of its account. -/
def storedTables : ItemTables :=
  { handOverTables with
    inventoryItems := .empty
    storages := .ofList [(1, ⟨1, 0, 4, 0⟩)] (List.nodup_singleton _)
    storageSlots := .ofList [(3, ⟨1, 0⟩)] (List.nodup_singleton _)
    storageItems := .ofList [(3, ⟨7, 20⟩)] (List.nodup_singleton _) }

/-- Character 1 has dropped the potions, and character 2 has picked them up. -/
def handOver : List SaveRequest := [requestOf 1 [] [], requestOf 2 [handedPotions] []]

/-- Character 1 has them in its storage. -/
def storing : List SaveRequest := [requestOf 1 [] [storedPotions]]

theorem saved_of_potions {t : ItemTables} {requests : List SaveRequest}
    (hitems : t.items = handOverTables.items) (hequipment : t.equipment = .empty)
    (hcharacter : t.characterEquipment = .empty) (hcharacters : (requests.map (·.id)).Nodup)
    (hids : (requests.flatMap (·.itemIds)).Nodup) (hnone : ∀ r ∈ requests, r.equipment = [])
    (hmem : Requested requests 7) : t.Saved requests := by
  have hempty : ∀ {β : Type} (f : SavedEquipment → β), (requests.flatMap fun r => r.equipment.map f) = [] := by
    intro β f
    refine List.flatMap_eq_nil_iff.2 fun r hr => ?_
    rw [hnone r hr]
    rfl
  have hrow : ∀ x row, t.items.get? x = some row → x = 7 ∧ row.deleted = false := by
    intro x row hrow
    rw [hitems, Table.get?_eq_some] at hrow
    obtain ⟨rfl, rfl⟩ := Prod.mk.inj (List.mem_singleton.1 hrow)
    exact ⟨rfl, rfl⟩
  refine ⟨hcharacters, hids, ?_, ?_, ⟨fun r hr e he => ?_, fun r hr e he => ?_, fun k row hk => ?_,
    fun r hr e he => ?_, fun k row hk => ?_⟩, fun x row hx => (hrow x row hx).2, fun x hx => .inl ?_⟩
  · rw [hempty]
    exact List.nodup_nil
  · rw [hempty]
    exact List.nodup_nil
  · rw [hnone r hr] at he
    cases he
  · rw [hnone r hr] at he
    cases he
  · rw [hequipment] at hk
    cases hk
  · rw [hnone r hr] at he
    cases he
  · rw [hcharacter] at hk
    cases hk
  · obtain ⟨row, hx⟩ := Table.has_iff.1 hx
    rw [(hrow x row hx).1]
    exact hmem

theorem saved_handOver : handOverTables.Saved handOver := by
  refine saved_of_potions rfl rfl rfl (by decide +kernel) (by decide +kernel) (by decide +kernel) ?_
  exact ⟨requestOf 2 [handedPotions] [], by simp [handOver], by decide +kernel⟩

theorem saved_storing : storedTables.Saved storing := by
  refine saved_of_potions rfl rfl rfl (by decide +kernel) (by decide +kernel) (by decide +kernel) ?_
  exact ⟨requestOf 1 [] [storedPotions], List.mem_singleton_self _, by decide +kernel⟩

theorem insertable_of_unnamed {toNumber : List UInt8 → Option UInt32} {characters : UInt32 → Bool}
    {e : ItemEntry} (hflags : e.flags < 128) (howner : e.owner = []) (hgiver : e.giver = []) :
    e.Insertable toNumber characters := by
  refine ⟨hflags, fun name hname => ⟨none, if_pos ?_, rfl⟩⟩
  rcases List.mem_pair.1 hname with rfl | rfl
  · exact howner
  · exact hgiver

/-- Names are not numbers. -/
def noNumber (_ : List UInt8) : Option UInt32 := none

theorem plain_handOver : Plain noNumber (fun _ => true) handOverTables handOver := by
  have hunnamed : ∀ r ∈ handOver, ∀ e ∈ r.itemEntries, e.flags < 128 ∧ e.owner = [] ∧ e.giver = [] := by
    decide +kernel
  refine ⟨fun r hr => ?_, fun r hr => ?_, nofun, nofun, fun r hr e he => ?_, fun _ _ => rfl⟩
  · rcases List.mem_pair.1 hr with rfl | rfl <;> rfl
  · rcases List.mem_pair.1 hr with rfl | rfl <;> rfl
  · obtain ⟨hflags, howner, hgiver⟩ := hunnamed r hr e he
    exact insertable_of_unnamed hflags howner hgiver

/-- The save of character 1 marks the potions, that of character 2 inserts them, and both go on. -/
theorem handedOver_run_potions : ∃ w : SaveState, w.tables.Keeps handOver ∧
    w.tables.inventoryItems.get? 7 = some ⟨2, 1, 20⟩ := by
  have hrun : ∃ w : SaveState, (List.replicate 4 0 ++ List.replicate 6 1 ++ List.replicate 3 0 ++
      List.replicate 3 1).foldlM (Machine.checked (SaveState.step noNumber fun _ => true) (InTurn handOver)
        Fault.assertion) (.start handOverTables handOver) = .ok w ∧
      (∀ i ∈ List.range handOver.length, (w.runs i).Finished) ∧
      w.tables.inventoryItems.get? 7 = some ⟨2, 1, 20⟩ := by
    rw [← Exec.returns_iff]
    decide +kernel
  obtain ⟨w, hw, hfinished, hrow⟩ := hrun
  exact ⟨w, handedOver_run saved_handOver plain_handOver (.of_checked hw)
    (fun i hi => hfinished i (List.mem_range.2 hi)), hrow⟩

/-- The save of character 1 marks the potions after that of character 2 has inserted them, and they are
    purged; and what is stored is purged by a save that nothing interferes with. -/
theorem handedOver_fails :
    (∃ w : SaveState, handOverTables.Saved handOver ∧ Plain noNumber (fun _ => true) handOverTables handOver ∧
      Machine.Run (SaveState.step noNumber fun _ => true) (fun _ _ => True) (.start handOverTables handOver) w ∧
      (∀ i < handOver.length, (w.runs i).Finished) ∧ ¬w.tables.Keeps handOver) ∧
    ∃ w : SaveState, storedTables.Saved storing ∧
      Machine.Run (SaveState.step noNumber fun _ => true) (InTurn storing) (.start storedTables storing) w ∧
      (∀ i < storing.length, (w.runs i).Finished) ∧ ¬w.tables.Keeps storing := by
  refine ⟨?_, ?_⟩
  · have hrun : ∃ w : SaveState, (List.replicate 5 1 ++ List.replicate 4 0 ++ List.replicate 4 1 ++
        List.replicate 3 0).foldlM (fun w i => SaveState.step noNumber (fun _ => true) i w)
          (.start handOverTables handOver) = .ok w ∧
        (∀ i ∈ List.range handOver.length, (w.runs i).Finished) ∧ w.tables.items.has 7 = false := by
      rw [← Exec.returns_iff]
      decide +kernel
    obtain ⟨w, hw, hfinished, hgone⟩ := hrun
    refine ⟨w, saved_handOver, plain_handOver, .of_foldlM (fun _ _ _ => trivial) hw,
      fun i hi => hfinished i (List.mem_range.2 hi), fun h => ?_⟩
    have hkept := (h.stored (requestOf 2 [handedPotions] []) (by simp [handOver]) 7 (.stack ⟨2, 1, 20⟩)
      (by decide +kernel)).1
    cases hgone.symm.trans hkept
  · have hrun : ∃ w : SaveState, (List.replicate 7 0).foldlM
        (Machine.checked (SaveState.step noNumber fun _ => true) (InTurn storing) Fault.assertion)
          (.start storedTables storing) = .ok w ∧
        (∀ i ∈ List.range storing.length, (w.runs i).Finished) ∧ w.tables.items.has 7 = false := by
      rw [← Exec.returns_iff]
      decide +kernel
    obtain ⟨w, hw, hfinished, hgone⟩ := hrun
    refine ⟨w, saved_storing, .of_checked hw, fun i hi => hfinished i (List.mem_range.2 hi), fun h => ?_⟩
    have hkept := (h.stored (requestOf 1 [] [storedPotions]) (List.mem_singleton_self _) 7 (.storedItem 3)
      (by decide +kernel)).1
    cases hgone.symm.trans hkept

end Syrup
