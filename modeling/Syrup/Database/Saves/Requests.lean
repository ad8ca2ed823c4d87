import Syrup.Database.Saves

/-!
# The statements of a save

The statements of `do_update_character` come in the order of their ranks (`ItemStatement.rank`), so what
has a lower rank than the next one has been executed. No two of them, of one save or of two, write the same
row.
-/

namespace Syrup

open Relational

/-! ## The order -/

namespace ItemStatement

/-- Where a statement comes. -/
def rank : ItemStatement → ℕ
  | mark _ => 0
  | insertItems _ => 1
  | insertInventoryItem _ _ => 2
  | insertEquipment _ => 3
  | insertCharacterEquipment _ _ => 4
  | deleteEquipped _ => 5
  | deleteInventoryEquipment _ => 6
  | insertEquipped _ => 7
  | insertInventoryEquipment _ => 8
  | purge => 9

/-- Whether there can be several statements of this kind. -/
def Repeats : ItemStatement → Prop
  | mark _ | insertInventoryItem _ _ | insertCharacterEquipment _ _ => True
  | _ => False

/-- One statement comes before another one. -/
def Precedes (s s' : ItemStatement) : Prop := s.rank < s'.rank ∨ s.rank = s'.rank ∧ s.Repeats

theorem Precedes.rank_le {s s' : ItemStatement} (h : s.Precedes s') : s.rank ≤ s'.rank :=
  h.elim Nat.le_of_lt fun h => h.1.le

end ItemStatement

/-- Statements in their order, none of which comes before a rank. -/
def RankedFrom (n : ℕ) (l : List ItemStatement) : Prop := l.Pairwise ItemStatement.Precedes ∧ ∀ s ∈ l, n ≤ s.rank

theorem RankedFrom.append {n : ℕ} {l l' : List ItemStatement} (h' : RankedFrom (n + 1) l')
    (hl : l.Pairwise ItemStatement.Precedes) (h : ∀ s ∈ l, s.rank = n) : RankedFrom n (l ++ l') := by
  refine ⟨List.pairwise_append.2 ⟨hl, h'.1, fun a ha b hb => .inl ?_⟩, fun s hs => ?_⟩
  · exact (h a ha).le.trans_lt (h'.2 b hb)
  · rcases List.mem_append.1 hs with hs | hs
    · exact (h s hs).ge
    · exact (Nat.le_succ n).trans (h'.2 s hs)

/-- Statements of a kind of which there can be several. -/
theorem RankedFrom.append_map {α : Type} {n : ℕ} {l : List α} {f : α → ItemStatement}
    {l' : List ItemStatement} (h' : RankedFrom (n + 1) l') (h : ∀ a, (f a).rank = n ∧ (f a).Repeats) :
    RankedFrom n (l.map f ++ l') := by
  refine h'.append (List.pairwise_of_forall_mem_list fun s hs s' hs' => ?_) fun s hs => ?_
  · obtain ⟨a, -, rfl⟩ := List.mem_map.1 hs
    obtain ⟨b, -, rfl⟩ := List.mem_map.1 hs'
    exact .inr ⟨(h a).1.trans (h b).1.symm, (h a).2⟩
  · obtain ⟨a, -, rfl⟩ := List.mem_map.1 hs
    exact (h a).1

theorem mem_bulk {α : Type} {l : List α} {f : List α → ItemStatement} {s : ItemStatement} :
    s ∈ bulk l f ↔ l ≠ [] ∧ s = f l := by
  cases l with
  | nil => exact ⟨nofun, fun h => absurd rfl h.1⟩
  | cons a l => exact List.mem_singleton.trans ⟨fun h => ⟨List.cons_ne_nil _ _, h⟩, fun h => h.2⟩

/-- One statement, or none. -/
theorem RankedFrom.append_bulk {α : Type} {n : ℕ} {l : List α} {f : List α → ItemStatement}
    {l' : List ItemStatement} (h' : RankedFrom (n + 1) l') (h : ∀ l, (f l).rank = n) :
    RankedFrom n (bulk l f ++ l') := by
  refine h'.append ?_ fun s hs => ?_
  · cases l with
    | nil => exact List.Pairwise.nil
    | cons a l => exact List.pairwise_singleton _ _
  · rw [(mem_bulk.1 hs).2]
    exact h l

namespace UpdateCharacter

variable {r : UpdateCharacter}

/-- The statements of a request, by their kinds. -/
def Issues (r : UpdateCharacter) : ItemStatement → Prop
  | .mark m => m ∈ r.marks
  | .insertItems l => r.itemEntries ≠ [] ∧ l = r.itemEntries
  | .insertInventoryItem item row => ∃ s ∈ r.inventoryItems, s.itemNumber = item ∧ r.stackRow s = row
  | .insertEquipment l => r.equipmentEntries ≠ [] ∧ l = r.equipmentEntries
  | .insertCharacterEquipment id row => ∃ e ∈ r.equipment, e.id = id ∧ r.equipmentRow e = row
  | .deleteEquipped c | .deleteInventoryEquipment c => c = r.id
  | .insertEquipped l => r.equippedEquipment.map (·.id) ≠ [] ∧ l = r.equippedEquipment.map (·.id)
  | .insertInventoryEquipment l =>
    (r.equipmentInventory.map fun e => (e.2.id, e.1)) ≠ [] ∧
      l = r.equipmentInventory.map fun e => (e.2.id, e.1)
  | .purge => True

theorem mem_itemStatements {s : ItemStatement} : s ∈ r.itemStatements ↔ r.Issues s := by
  rw [itemStatements]
  simp only [List.mem_append, List.mem_map, mem_bulk, List.mem_cons, List.not_mem_nil, or_false]
  cases s <;> simp only [Issues, ItemStatement.mark.injEq, ItemStatement.insertItems.injEq,
    ItemStatement.insertInventoryItem.injEq, ItemStatement.insertEquipment.injEq,
    ItemStatement.insertCharacterEquipment.injEq, ItemStatement.deleteEquipped.injEq,
    ItemStatement.deleteInventoryEquipment.injEq, ItemStatement.insertEquipped.injEq,
    ItemStatement.insertInventoryEquipment.injEq, reduceCtorEq, and_false, exists_false, or_false,
    false_or, exists_eq_right]

theorem ranked (r : UpdateCharacter) : RankedFrom 0 r.itemStatements := by
  have hlast : RankedFrom 9 [.purge] :=
    ⟨List.pairwise_singleton _ _, fun s hs => (List.mem_singleton.1 hs ▸ le_rfl : 9 ≤ s.rank)⟩
  have hinsert : RankedFrom 7 (bulk (r.equippedEquipment.map (·.id)) .insertEquipped ++
      (bulk (r.equipmentInventory.map fun e => (e.2.id, e.1)) .insertInventoryEquipment ++ [.purge])) :=
    .append_bulk (.append_bulk hlast fun _ => rfl) fun _ => rfl
  have hdelete : RankedFrom 5 ([.deleteEquipped r.id] ++ ([.deleteInventoryEquipment r.id] ++ _)) :=
    .append (.append hinsert (List.pairwise_singleton _ _) fun s hs => List.mem_singleton.1 hs ▸ rfl)
      (List.pairwise_singleton _ _) fun s hs => List.mem_singleton.1 hs ▸ rfl
  exact .append_map (.append_bulk (.append_map (.append_bulk (.append_map hdelete
    fun _ => ⟨rfl, trivial⟩) fun _ => rfl) fun _ => ⟨rfl, trivial⟩) fun _ => rfl) fun _ => ⟨rfl, trivial⟩

section

variable {done todo : List ItemStatement} {s s' : ItemStatement}

/-- What has been executed comes before what has not. -/
theorem precedes (h : done ++ todo = r.itemStatements) (hs' : s' ∈ done) (hs : s ∈ todo) : s'.Precedes s := by
  have hsorted := r.ranked.1
  rw [← h, List.pairwise_append] at hsorted
  exact hsorted.2.2 s' hs' s hs

/-- What comes before the next statement has been executed. -/
theorem mem_done (h : done ++ s :: todo = r.itemStatements) (hs' : r.Issues s') (hrank : s'.rank < s.rank) :
    s' ∈ done := by
  have hmem := mem_itemStatements.2 hs'
  have hsorted := r.ranked.1
  rw [← h] at hmem hsorted
  rw [List.pairwise_append, List.pairwise_cons] at hsorted
  rcases List.mem_append.1 hmem with hdone | hrest
  · exact hdone
  · rcases List.mem_cons.1 hrest with rfl | hrest
    · omega
    · have hle := (hsorted.2.1.1 s' hrest).rank_le
      omega

/-- What comes before a statement that has been executed has been, too. -/
theorem mem_done_of_mem (h : done ++ todo = r.itemStatements) (hs : s ∈ done) (hs' : r.Issues s')
    (hrank : s'.rank < s.rank) : s' ∈ done := by
  have hmem := mem_itemStatements.2 hs'
  rw [← h] at hmem
  rcases List.mem_append.1 hmem with hdone | htodo
  · exact hdone
  · have hle := (precedes h hs htodo).rank_le
    omega

end

end UpdateCharacter

/-! ## Rows of two requests -/

/-- What is in the lists of two is in those of one. -/
theorem eq_of_mem_flatMap {α β : Type} {l : List α} {f : α → List β} {a b : α} {x : β}
    (h : (l.flatMap f).Nodup) (ha : a ∈ l) (hb : b ∈ l) (hxa : x ∈ f a) (hxb : x ∈ f b) : a = b := by
  by_contra hne
  have hdisjoint := (List.nodup_flatMap.1 h).2
  have hsymm : Std.Symm (Function.onFun (@List.Disjoint β) f) := ⟨fun _ _ hd => hd.symm⟩
  exact hdisjoint.forall ha hb hne hxa hxb

namespace SaveRequest

variable {r : SaveRequest} {x : UInt64}

theorem itemIds_eq (r : SaveRequest) : r.itemIds = r.itemEntries.map (·.id) ++
    (r.storageEquipment.map (·.item.id) ++ r.storageItems.map (·.item.id)) := by
  simp only [itemIds, places, UpdateCharacter.itemEntries, UpdateCharacter.equipment, List.map_append,
    List.map_map, List.append_assoc]
  rfl

theorem mem_itemIds {e : ItemEntry} (he : e ∈ r.itemEntries) : e.id ∈ r.itemIds := by
  rw [itemIds_eq]
  exact List.mem_append_left _ (List.mem_map_of_mem he)

theorem itemEntry_mem {e : SavedEquipment} (he : e ∈ r.equipment) : e.itemEntry ∈ r.itemEntries :=
  List.mem_append_left _ (List.mem_map_of_mem he)

theorem stackEntry_mem {s : SavedItem} (hs : s ∈ r.inventoryItems) : s.itemEntry ∈ r.itemEntries :=
  List.mem_append_right _ (List.mem_map_of_mem hs)

theorem worn_mem {e : SavedEquipment} (he : e ∈ r.equippedEquipment) : e ∈ r.equipment :=
  List.mem_append_left _ he

theorem carried_mem {e : UInt8 × SavedEquipment} (he : e ∈ r.equipmentInventory) : e.2 ∈ r.equipment :=
  List.mem_append_right _ (List.mem_map_of_mem he)

end SaveRequest

namespace ItemTables.Saved

variable {t : ItemTables} {requests : List SaveRequest} {r r' : SaveRequest} {i j : ℕ}

/-- Two saves are those of two characters. -/
theorem index_eq (h : t.Saved requests) (hr : requests[i]? = some r) (hr' : requests[j]? = some r')
    (hid : r.id = r'.id) : i = j := by
  have hi : i < (requests.map (·.id)).length := by
    rw [List.length_map]
    exact (List.getElem?_eq_some_iff.1 hr).1
  refine (List.getElem?_inj hi h.characters).1 ?_
  rw [List.getElem?_map, List.getElem?_map, hr, hr', Option.map_some, Option.map_some, hid]

theorem entries_nodup (h : t.Saved requests) (hr : r ∈ requests) : (r.itemEntries.map (·.id)).Nodup := by
  have hids := (List.nodup_flatMap.1 h.items).1 r hr
  rw [SaveRequest.itemIds_eq] at hids
  exact hids.of_append_left

/-- An item is in one request. -/
theorem eq_of_item (h : t.Saved requests) (hr : r ∈ requests) (hr' : r' ∈ requests) {e e' : ItemEntry}
    (he : e ∈ r.itemEntries) (he' : e' ∈ r'.itemEntries) (heq : e.id = e'.id) : r = r' ∧ e = e' := by
  obtain rfl := eq_of_mem_flatMap h.items hr hr' (SaveRequest.mem_itemIds he)
    (heq ▸ SaveRequest.mem_itemIds he')
  exact ⟨rfl, List.inj_on_of_nodup_map (h.entries_nodup hr) he he' heq⟩

/-- A piece of equipment is in one request. -/
theorem eq_of_equip (h : t.Saved requests) (hr : r ∈ requests) (hr' : r' ∈ requests) {e e' : SavedEquipment}
    (he : e ∈ r.equipment) (he' : e' ∈ r'.equipment) (heq : e.equipId = e'.equipId) : r = r' ∧ e = e' := by
  have hmem' : e.equipId ∈ r'.equipment.map (·.equipId) := heq ▸ List.mem_map_of_mem he'
  obtain rfl := eq_of_mem_flatMap h.equipment hr hr' (List.mem_map_of_mem he) hmem'
  exact ⟨rfl, List.inj_on_of_nodup_map ((List.nodup_flatMap.1 h.equipment).1 r hr) he he' heq⟩

/-- And so is a piece of equipment of a character. -/
theorem eq_of_id (h : t.Saved requests) (hr : r ∈ requests) (hr' : r' ∈ requests) {e e' : SavedEquipment}
    (he : e ∈ r.equipment) (he' : e' ∈ r'.equipment) (heq : e.id = e'.id) : r = r' ∧ e = e' := by
  have hmem' : e.id ∈ r'.equipment.map (·.id) := heq ▸ List.mem_map_of_mem he'
  obtain rfl := eq_of_mem_flatMap h.ids hr hr' (List.mem_map_of_mem he) hmem'
  exact ⟨rfl, List.inj_on_of_nodup_map ((List.nodup_flatMap.1 h.ids).1 r hr) he he' heq⟩

/-- A stack is in one request, once. -/
theorem eq_of_stack (h : t.Saved requests) (hr : r ∈ requests) (hr' : r' ∈ requests) {s s' : SavedItem}
    (hs : s ∈ r.inventoryItems) (hs' : s' ∈ r'.inventoryItems) (heq : s.itemNumber = s'.itemNumber) :
    r = r' ∧ s = s' := by
  obtain ⟨rfl, -⟩ := h.eq_of_item hr hr' (SaveRequest.stackEntry_mem hs) (SaveRequest.stackEntry_mem hs') heq
  have hnodup := h.entries_nodup hr
  rw [UpdateCharacter.itemEntries, List.map_append, List.map_map, List.map_map] at hnodup
  exact ⟨rfl, List.inj_on_of_nodup_map hnodup.of_append_right hs hs' heq⟩

/-- A stack is not a piece of equipment. -/
theorem stack_ne (h : t.Saved requests) (hr : r ∈ requests) (hr' : r' ∈ requests) {s : SavedItem}
    {e : SavedEquipment} (hs : s ∈ r.inventoryItems) (he : e ∈ r'.equipment) :
    e.itemNumber ≠ s.itemNumber := by
  intro heq
  obtain ⟨rfl, -⟩ := h.eq_of_item hr' hr (SaveRequest.itemEntry_mem he) (SaveRequest.stackEntry_mem hs) heq
  have hnodup := h.entries_nodup hr
  rw [UpdateCharacter.itemEntries, List.map_append, List.map_map, List.map_map] at hnodup
  exact List.disjoint_of_nodup_append hnodup (List.mem_map_of_mem he)
    (List.mem_map.2 ⟨s, hs, heq.symm⟩)

end ItemTables.Saved

end Syrup
