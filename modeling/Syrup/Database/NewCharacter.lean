import Syrup.Database.Characters
import Syrup.Wz

/-!
# The request for a new character

`do_try_create_character` inserts a row into `Characters`, which is ignored if the name is taken, and then what the
character wears: rows of `Items`, of `Equipment`, of `CharacterEquipment` and of `EquippedEquipment`, each of which
refers to one of the rows before. The ids of rows that have been inserted together follow each other (`block`), so
only the first is asked for, and the others are computed (`offsets`).

Every piece gets rows of its own (`wornRows_created`), and nobody else is touched (`wornRows_other`).
-/

namespace Syrup

open Relational

/-! ## Rows that are inserted together -/

/-- The ids of rows that are inserted together. -/
def block (first : UInt64) (n : ℕ) : List UInt64 := (List.range n).map fun i => first + UInt64.ofNat i

theorem add_ofNat_inj {first : UInt64} {i j : ℕ} (hi : i < 2 ^ 64) (hj : j < 2 ^ 64)
    (h : first + UInt64.ofNat i = first + UInt64.ofNat j) : i = j := by
  have heq := congrArg UInt64.toNat (UInt64.add_right_inj first |>.1 h)
  rwa [UInt64.toNat_ofNat_of_lt' hi, UInt64.toNat_ofNat_of_lt' hj] at heq

theorem nodup_block (first : UInt64) {n : ℕ} (hn : n ≤ 2 ^ 64) : (block first n).Nodup :=
  List.Nodup.map_on (fun _ hi _ hj h => add_ofNat_inj ((List.mem_range.1 hi).trans_le hn)
    ((List.mem_range.1 hj).trans_le hn) h) List.nodup_range

/-- `INSERT` of several rows, with their keys. -/
def insertRows {ρ : Type} (t : Table UInt64 ρ) (rows : List (UInt64 × ρ)) : Table UInt64 ρ :=
  rows.foldl (fun t row => t.put row.1 row.2) t

theorem get?_insertRows_other {ρ : Type} {t : Table UInt64 ρ} {rows : List (UInt64 × ρ)} {k : UInt64}
    (h : k ∉ rows.map Prod.fst) : (insertRows t rows).get? k = t.get? k := by
  induction rows generalizing t with
  | nil => rfl
  | cons row rows ih =>
    rw [List.map_cons, List.mem_cons, not_or] at h
    exact (ih h.2).trans (Table.get?_put_of_ne h.1)

theorem get?_insertRows {ρ : Type} {t : Table UInt64 ρ} {rows : List (UInt64 × ρ)}
    (hrows : (rows.map Prod.fst).Nodup) {k : UInt64} {r : ρ} (h : (k, r) ∈ rows) :
    (insertRows t rows).get? k = some r := by
  induction rows generalizing t with
  | nil => exact absurd h List.not_mem_nil
  | cons row rows ih =>
    rw [List.map_cons, List.nodup_cons] at hrows
    rcases List.mem_cons.1 h with rfl | h
    · exact (get?_insertRows_other hrows.1).trans Table.get?_put_self
    · exact ih hrows.2 h

/-- Rows with keys that are not there yet come before all others. -/
theorem rows_insertRows {ρ : Type} {t : Table UInt64 ρ} {rows : List (UInt64 × ρ)}
    (hrows : (rows.map Prod.fst).Nodup) (h : ∀ k ∈ rows.map Prod.fst, t.get? k = none) :
    (insertRows t rows).rows = rows.reverse ++ t.rows := by
  induction rows generalizing t with
  | nil => rfl
  | cons row rows ih =>
    rw [List.map_cons, List.nodup_cons] at hrows
    rw [List.map_cons, List.forall_mem_cons] at h
    have hput : (t.put row.1 row.2).rows = row :: t.rows := Table.rows_put h.1
    change (insertRows (t.put row.1 row.2) rows).rows = _
    have hother : ∀ k ∈ rows.map Prod.fst, (t.put row.1 row.2).get? k = none := fun k hk => by
      have hne : k ≠ row.1 := fun heq => hrows.1 (heq ▸ hk)
      rw [Table.get?_put_of_ne hne]
      exact h.2 k hk
    rw [ih hrows.2 hother, hput, List.reverse_cons, List.append_assoc, List.singleton_append]

/-! ## The request -/

/-- `struct tryCreateCharacter` of the parameters. -/
structure NewCharacter where
  name : CharacterName
  accountId : UInt32
  world : UInt8
  map : UInt32
  job : UInt16
  gender : UInt8
  skin : UInt8
  hair : UInt32
  face : UInt32
  top : Equipment
  bottom : Equipment
  shoes : Equipment
  weapon : Equipment

/-- The ids that the database gives next: that of the character, and the first ones of the rows that are
    inserted together. -/
structure NextIds where
  character : UInt32
  item : UInt64
  equipment : UInt64
  characterEquipment : UInt64

/-- `equip_type_from_id(id) == EQUIP_TYPE_COAT`. -/
def isCoat (id : UInt32) : Bool := id / 10000 == 104

namespace NewCharacter

variable (p : NewCharacter)

/-- The row of `Characters`, with the defaults of the table. The gender is a signed number. -/
def row : CharactersRow where
  accountId := p.accountId
  world := p.world
  map := p.map
  sheet := {
    name := p.name, job := p.job, level := 1, exp := 0, maxHp := 50, hp := 50, maxMp := 5, mp := 5, str := 12, dex := 5
    int_ := 4, luk := 4, ap := 0, sp := 0, fame := 0, gender := if p.gender ≤ 127 then p.gender else 127, skin := p.skin
    face := p.face, hair := p.hair }

/-- What is inserted: there is no bottom under anything but a coat. -/
def worn : List Equipment :=
  if isCoat p.top.item.itemId then [p.top, p.bottom, p.shoes, p.weapon] else [p.top, p.shoes, p.weapon]

/-- `temp.createCharacter.id`, computed from the first id: those after a bottom are one more. -/
def offsets (first : UInt64) : List UInt64 :=
  if isCoat p.top.item.itemId then [first, first + 1, first + 1 + 1, first + 2 + 1] else [first, first + 1, first + 2]

end NewCharacter

/-- The row of `Equipment` for a piece of equipment. -/
def Equipment.row (item : UInt64) (e : Equipment) : EquipmentRow where
  item := item
  stats := {
    level := 0, slots := e.slots, str := e.str, dex := e.dex, int_ := e.int_, luk := e.luk, hp := e.hp, mp := e.mp
    atk := e.atk, matk := e.matk, def_ := e.def_, mdef := e.mdef, acc := e.acc, avoid := e.avoid, speed := e.speed
    jump := e.jump }

/-- The rows that `do_try_create_character` inserts. -/
def CharacterTables.created (t : CharacterTables) (p : NewCharacter) (n : NextIds) : CharacterTables where
  characters := t.characters.put n.character p.row
  items := { t.items with
    items := insertRows t.items.items
      ((block n.item p.worn.length).zip (p.worn.map fun e => ⟨e.item.itemId, 0, none, none, false⟩))
    equipment := insertRows t.items.equipment
      ((block n.equipment p.worn.length).zip (List.zipWith Equipment.row (p.offsets n.item) p.worn))
    characterEquipment := insertRows t.items.characterEquipment
      ((block n.characterEquipment p.worn.length).zip ((p.offsets n.equipment).map fun equip =>
        ⟨equip, n.character⟩))
    equippedEquipment := insertRows t.items.equippedEquipment
      ((p.offsets n.characterEquipment).map fun k => (k, ())) }

section Request

variable {K : Type} [DecidableEq K] (key : CharacterName → K)

/-- A character has a name that is taken for this one. -/
def CharacterTables.taken (t : CharacterTables) (name : CharacterName) : Bool :=
  t.characters.any fun _ row => key row.sheet.name == key name

/-- `do_try_create_character`: the id of the character if it has been created. -/
def doTryCreateCharacter (p : NewCharacter) (n : NextIds) (t : CharacterTables) : Option UInt32 × CharacterTables :=
  if t.taken key p.name then (none, t)
  else (some n.character, t.created p n)

end Request

/-- Ids that are not in use, of tables whose rows refer to rows that are there. -/
structure NextIds.Fresh (n : NextIds) (t : CharacterTables) : Prop where
  character : t.characters.get? n.character = none
  unowned : ∀ k row, t.items.characterEquipment.get? k = some row → row.characterId ≠ n.character
  item : ∀ k ∈ block n.item 4, t.items.items.get? k = none
  equipment : ∀ k ∈ block n.equipment 4, t.items.equipment.get? k = none
  characterEquipment : ∀ k ∈ block n.characterEquipment 4, t.items.characterEquipment.get? k = none
  itemRefers : ∀ k row, t.items.equipment.get? k = some row → (t.items.items.get? row.item).isSome
  equipmentRefers : ∀ k row, t.items.characterEquipment.get? k = some row → (t.items.equipment.get? row.equip).isSome
  equippedRefers : ∀ k row, t.items.equippedEquipment.get? k = some row → (t.items.characterEquipment.get? k).isSome

/-! ## What has been created -/

namespace NewCharacter

variable {p : NewCharacter}

theorem length_worn_le : p.worn.length ≤ 4 := by
  rw [worn]
  split
  · exact le_rfl
  · exact Nat.le_succ 3

/-- What is computed are the ids that follow each other. -/
theorem offsets_eq (first : UInt64) : p.offsets first = block first p.worn.length := by
  have hzero : first + UInt64.ofNat 0 = first := UInt64.add_zero first
  rw [offsets, worn]
  split
  · change _ = [first + UInt64.ofNat 0, first + 1, first + 2, first + 3]
    rw [hzero, UInt64.add_assoc, UInt64.add_assoc]
    rfl
  · change _ = [first + UInt64.ofNat 0, first + 1, first + 2]
    rw [hzero]

end NewCharacter

theorem length_block (first : UInt64) (n : ℕ) : (block first n).length = n := by
  rw [block, List.length_map, List.length_range]

theorem mem_block_of_le {first k : UInt64} {n m : ℕ} (h : n ≤ m) (hk : k ∈ block first n) : k ∈ block first m := by
  obtain ⟨i, hi, rfl⟩ := List.mem_map.1 hk
  exact List.mem_map.2 ⟨i, List.mem_range.2 ((List.mem_range.1 hi).trans_le h), rfl⟩

section Block

variable {ρ : Type} {t : Table UInt64 ρ} {first k : UInt64} {rs : List ρ} {m i : ℕ} {r : ρ}

/-- Rows with the keys of a block. -/
theorem get?_insertRows_block (hrs : rs.length = m) (hm : m ≤ 4) (h : rs[i]? = some r) :
    (insertRows t ((block first m).zip rs)).get? (first + UInt64.ofNat i) = some r := by
  subst hrs
  have hkeys : ((block first rs.length).zip rs).map Prod.fst = block first rs.length :=
    List.map_fst_zip (length_block ..).le
  have hnodup : (((block first rs.length).zip rs).map Prod.fst).Nodup := by
    rw [hkeys]
    exact nodup_block first (hm.trans (by decide))
  obtain ⟨hi, rfl⟩ := List.getElem?_eq_some_iff.1 h
  refine get?_insertRows hnodup (List.mem_iff_getElem.2 ⟨i, ?_, ?_⟩)
  · rw [List.length_zip, length_block, min_self]
    exact hi
  · rw [List.getElem_zip]
    simp only [block, List.getElem_map, List.getElem_range]

theorem get?_insertRows_not_block (hrs : rs.length = m) (hm : m ≤ 4) (h : k ∉ block first 4) :
    (insertRows t ((block first m).zip rs)).get? k = t.get? k := by
  subst hrs
  refine get?_insertRows_other fun hk => h ?_
  rw [List.map_fst_zip (length_block ..).le] at hk
  exact mem_block_of_le hm hk

theorem block_getElem? (hi : i < m) : (block first m)[i]? = some (first + UInt64.ofNat i) := by
  rw [block, List.getElem?_map, List.getElem?_range hi]
  rfl

end Block

section Created

variable {p : NewCharacter} {n : NextIds} {t : CharacterTables}

theorem length_offsets (first : UInt64) : (p.offsets first).length = p.worn.length := by
  rw [NewCharacter.offsets_eq, length_block]

theorem length_ownedRows : ((p.offsets n.equipment).map fun equip =>
    (⟨equip, n.character⟩ : CharacterEquipmentRow)).length = p.worn.length := by
  rw [List.length_map, length_offsets]

theorem length_equipmentRows : (List.zipWith Equipment.row (p.offsets n.item) p.worn).length = p.worn.length := by
  rw [List.length_zipWith, length_offsets, min_self]

theorem length_itemRows :
    (p.worn.map fun e => (⟨e.item.itemId, 0, none, none, false⟩ : ItemRow)).length = p.worn.length :=
  List.length_map _

theorem owned_created {i : ℕ} (hi : i < p.worn.length) :
    (t.created p n).items.characterEquipment.get? (n.characterEquipment + UInt64.ofNat i) =
      some ⟨n.equipment + UInt64.ofNat i, n.character⟩ := by
  refine get?_insertRows_block length_ownedRows NewCharacter.length_worn_le ?_
  rw [List.getElem?_map, NewCharacter.offsets_eq, block_getElem? hi]
  rfl

/-- The rows of a piece of equipment refer to each other. -/
theorem joined_created {i : ℕ} (hi : i < p.worn.length) :
    (t.created p n).joined n.character (n.characterEquipment + UInt64.ofNat i) =
      some (n.item + UInt64.ofNat i, p.worn[i].item.itemId) := by
  have hle := NewCharacter.length_worn_le (p := p)
  have hworn : p.worn[i]? = some p.worn[i] := List.getElem?_eq_getElem hi
  have hequip : (t.created p n).items.equipment.get? (n.equipment + UInt64.ofNat i) =
      some (p.worn[i].row (n.item + UInt64.ofNat i)) := by
    refine get?_insertRows_block length_equipmentRows hle ?_
    rw [List.getElem?_zipWith, NewCharacter.offsets_eq, block_getElem? hi, hworn]
  have hitem : (t.created p n).items.items.get? (n.item + UInt64.ofNat i) =
      some ⟨p.worn[i].item.itemId, 0, none, none, false⟩ := by
    refine get?_insertRows_block length_itemRows hle ?_
    rw [List.getElem?_map, hworn]
    rfl
  rw [CharacterTables.joined, owned_created hi]
  change (if n.character = n.character then _ else none) = _
  rw [if_pos rfl, hequip]
  change ((t.created p n).items.items.get? (n.item + UInt64.ofNat i) >>= _) = _
  rw [hitem]
  rfl

/-- What was joined before still is. -/
theorem joined_old (h : n.Fresh t) {character : UInt32} {k : UInt64}
    (hk : (t.items.characterEquipment.get? k).isSome) :
    (t.created p n).joined character k = t.joined character k := by
  have hle := NewCharacter.length_worn_le (p := p)
  have hold {ρ : Type} {u : Table UInt64 ρ} {first k : UInt64} (hfresh : ∀ k ∈ block first 4, u.get? k = none)
      (hk : (u.get? k).isSome) : k ∉ block first 4 := by
    intro hmem
    rw [hfresh k hmem] at hk
    cases hk
  obtain ⟨owned, howned⟩ := Option.isSome_iff_exists.1 hk
  have hequip := h.equipmentRefers k owned howned
  obtain ⟨equip, hequip'⟩ := Option.isSome_iff_exists.1 hequip
  have hitem := h.itemRefers owned.equip equip hequip'
  have hcreatedOwned : (t.created p n).items.characterEquipment.get? k = t.items.characterEquipment.get? k :=
    get?_insertRows_not_block length_ownedRows hle (hold h.characterEquipment hk)
  have hcreatedEquip : (t.created p n).items.equipment.get? owned.equip = t.items.equipment.get? owned.equip :=
    get?_insertRows_not_block length_equipmentRows hle (hold h.equipment hequip)
  have hcreatedItem : (t.created p n).items.items.get? equip.item = t.items.items.get? equip.item :=
    get?_insertRows_not_block length_itemRows hle (hold h.item hitem)
  simp only [CharacterTables.joined, hcreatedOwned, howned, hcreatedEquip, hequip', hcreatedItem,
    Option.bind_eq_bind, Option.bind_some]

/-- The rows of `EquippedEquipment`. -/
theorem equipped_created (h : n.Fresh t) : (t.created p n).items.equippedEquipment.rows =
    ((block n.characterEquipment p.worn.length).map fun k => (k, ())).reverse ++ t.items.equippedEquipment.rows := by
  have hle := NewCharacter.length_worn_le (p := p)
  have hkeys : ((block n.characterEquipment p.worn.length).map fun k => (k, ())).map Prod.fst =
      block n.characterEquipment p.worn.length := by
    rw [List.map_map]
    exact List.map_id _
  change (insertRows _ ((p.offsets n.characterEquipment).map fun k => (k, ()))).rows = _
  rw [NewCharacter.offsets_eq]
  refine rows_insertRows ?_ ?_
  · rw [hkeys]
    exact nodup_block _ (hle.trans (by decide))
  · rw [hkeys]
    intro k hk
    cases hget : t.items.equippedEquipment.get? k with
    | none => rfl
    | some u =>
      have hrefers := h.equippedRefers k u hget
      rw [h.characterEquipment k (mem_block_of_le hle hk)] at hrefers
      cases hrefers

/-- The rows that were there are joined as before. -/
theorem filterMap_old (h : n.Fresh t) (character : UInt32) :
    (t.items.equippedEquipment.rows.filterMap fun row => (t.created p n).joined character row.1) =
      t.wornRows character :=
  List.filterMap_congr fun row hrow =>
    joined_old h (h.equippedRefers row.1 row.2 (Table.get?_eq_some.2 hrow))

/-- The new character wears what has been inserted, each with a row of its own. -/
theorem wornRows_created (h : n.Fresh t) : (t.created p n).wornRows n.character =
    ((block n.item p.worn.length).zip (p.worn.map (·.item.itemId))).reverse := by
  have hnobody : t.wornRows n.character = [] := by
    refine List.filterMap_eq_nil_iff.2 fun row _ => ?_
    rw [CharacterTables.joined]
    cases hget : t.items.characterEquipment.get? row.1 with
    | none => rfl
    | some owned => exact if_neg (h.unowned row.1 owned hget)
  have hnew : ((block n.characterEquipment p.worn.length).map fun k => (k, ())).filterMap
      (fun row => (t.created p n).joined n.character row.1) =
      (block n.item p.worn.length).zip (p.worn.map (·.item.itemId)) := by
    have hpair (i : ℕ) (hi : i ∈ List.range p.worn.length) :
        (t.created p n).joined n.character (n.characterEquipment + UInt64.ofNat i) =
          some (n.item + UInt64.ofNat i, (p.worn.map (·.item.itemId))[i]?.getD 0) := by
      have hlt := List.mem_range.1 hi
      rw [joined_created hlt, List.getElem?_map, List.getElem?_eq_getElem hlt]
      rfl
    rw [block, List.map_map, List.filterMap_map]
    refine (List.filterMap_congr hpair).trans ?_
    rw [List.filterMap_eq_map']
    refine List.ext_getElem ?_ fun i hi hi' => ?_
    · rw [List.length_map, List.length_range, List.length_zip, length_block, List.length_map, min_self]
    · rw [List.length_map, List.length_range] at hi
      simp only [List.getElem_map, List.getElem_range, List.getElem_zip, block, List.getElem?_map,
        List.getElem?_eq_getElem hi, Option.map_some, Option.getD_some]
  rw [CharacterTables.wornRows, equipped_created h, List.filterMap_append, filterMap_old h, hnobody, List.append_nil,
    List.filterMap_reverse, hnew]

/-- All others wear what they wore. -/
theorem wornRows_other (h : n.Fresh t) {character : UInt32} (hne : character ≠ n.character) :
    (t.created p n).wornRows character = t.wornRows character := by
  have hnew : ((block n.characterEquipment p.worn.length).map fun k => (k, ())).filterMap
      (fun row => (t.created p n).joined character row.1) = [] := by
    refine List.filterMap_eq_nil_iff.2 fun row hrow => ?_
    obtain ⟨k, hk, rfl⟩ := List.mem_map.1 hrow
    obtain ⟨i, hi, rfl⟩ := List.mem_map.1 hk
    have howned := owned_created (t := t) (n := n) (List.mem_range.1 hi)
    rw [CharacterTables.joined, howned]
    exact if_neg hne.symm
  rw [CharacterTables.wornRows, equipped_created h, List.filterMap_append, filterMap_old h, List.filterMap_reverse,
    hnew]
  rfl

end Created

end Syrup
