import Syrup.Database
import Syrup.Lib.LastPlace

/-!
# The characters of an account

The table `Characters`, and the request for the characters of an account in a world. It stores every row in an
array of six characters, the last of which is also where the rows are fetched to, and then what each of them
wears, in an array of which the last place is used alike.

The request succeeds if and only if there are no more than six rows, and nobody wears more than there are slots
(`charactersFor_iff`); what it returns are the rows, and what they wear (`Listed`).
-/

namespace Syrup

open Relational LastPlace

/-! ## The table -/

/-- The bytes of the name of a character. -/
abbrev CharacterName := {bytes : List UInt8 // bytes.length ≤ 12}

/-- The columns of `Characters` that are requested. -/
structure CharacterSheet where
  name : CharacterName
  job : UInt16
  level : UInt8
  exp : Int32
  maxHp : Int16
  hp : Int16
  maxMp : Int16
  mp : Int16
  str : Int16
  dex : Int16
  int_ : Int16
  luk : Int16
  ap : Int16
  sp : Int16
  fame : Int16
  gender : UInt8
  skin : UInt8
  face : UInt32
  hair : UInt32
  deriving DecidableEq

/-- A row of `Characters`. -/
structure CharactersRow where
  accountId : UInt32
  world : UInt8
  map : UInt32
  sheet : CharacterSheet
  deriving DecidableEq

/-- The tables of characters and of items. -/
structure CharacterTables where
  characters : Table UInt32 CharactersRow
  items : ItemTables

namespace CharacterTables

variable (t : CharacterTables)

/-- `SELECT … FROM Characters WHERE account_id = ? AND world = ?`. -/
def charactersOf (account : UInt32) (world : UInt8) : List (UInt32 × CharactersRow) :=
  t.characters.rows.filter fun row => row.2.accountId = account ∧ row.2.world = world

/-- The row of `Items` that is joined with a row of `EquippedEquipment` of a character. -/
def joined (character : UInt32) (worn : UInt64) : Option (UInt64 × UInt32) := do
  let owned ← t.items.characterEquipment.get? worn
  if owned.characterId = character then do
    let equip ← t.items.equipment.get? owned.equip
    let item ← t.items.items.get? equip.item
    some (equip.item, item.itemId)
  else none

/-- What a character wears: the rows of `Items`, with the ids of the items. -/
def wornRows (character : UInt32) : List (UInt64 × UInt32) :=
  t.items.equippedEquipment.rows.filterMap fun row => t.joined character row.1

/-- `SELECT item_id FROM Items JOIN Equipment … WHERE character_id = ?`. -/
def wornBy (character : UInt32) : List UInt32 := (t.wornRows character).map Prod.snd

end CharacterTables

/-! ## The request -/

/-- `ACCOUNT_MAX_CHARACTERS_PER_WORLD`. -/
abbrev accountMaxCharactersPerWorld : ℕ := 6

/-- An entry of `getCharactersForAccountForWorld.characters`; `equipment` is filled up to `equipCount`. -/
structure ListedCharacter where
  id : UInt32
  sheet : CharacterSheet
  equipment : Filled UInt32

/-- `mysql_stmt_fetch` of a row of `Characters`. -/
def ListedCharacter.fetch (row : UInt32 × CharactersRow) (c : ListedCharacter) : ListedCharacter :=
  { c with id := row.1, sheet := row.2.sheet }

/-- The rows that have been fetched of what one of the characters wears. -/
def ListedCharacter.dress (t : CharacterTables) (c : ListedCharacter) : Exec ListedCharacter := do
  let equipment ← (t.wornBy c.id).foldlM (fun s id => s.push equipSlotCount Fault.outOfBounds fun _ => id)
    ⟨0, c.equipment.items⟩
  .ok { c with equipment := equipment }

/-- The rows of `Characters` that have been fetched. -/
def fetchAll (rows : List (UInt32 × CharactersRow)) (memory : ℕ → ListedCharacter) :
    Exec (Filled ListedCharacter) :=
  rows.foldlM (fun l row => Filled.push accountMaxCharactersPerWorld Fault.outOfBounds (.fetch row) l) ⟨0, memory⟩

/-- `do_get_characters_for_account_for_world`. -/
def doGetCharactersForAccountForWorld (t : CharacterTables) (account : UInt32) (world : UInt8)
    (memory : ℕ → ListedCharacter) : Exec (Filled ListedCharacter) := do
  let l ← fetchAll (t.charactersOf account world) memory
  l.each (ListedCharacter.dress t) l.count

/-! ## What is returned -/

/-- An entry is a row, and what the character wears. -/
structure Listed (t : CharacterTables) (row : UInt32 × CharactersRow) (c : ListedCharacter) : Prop where
  id : c.id = row.1
  sheet : c.sheet = row.2.sheet
  worn : c.equipment.toList = t.wornBy row.1

theorem dress_eq_ok {t : CharacterTables} {c c' : ListedCharacter} (h : c.dress t = .ok c') :
    c'.id = c.id ∧ c'.sheet = c.sheet ∧ c'.equipment.toList = t.wornBy c.id := by
  obtain ⟨equipment, hpushes, h⟩ := Exec.bind_eq_ok.1 h
  cases h
  obtain ⟨-, l, hlist, hl⟩ := Filled.pushes_eq_ok hpushes
  have hworn : t.wornBy c.id = l := by
    refine List.forall₂_eq_eq_eq ▸ hl.imp fun id id' hid => ?_
    obtain ⟨-, rfl⟩ := hid
    rfl
  refine ⟨rfl, rfl, ?_⟩
  rw [hworn]
  exact hlist

theorem dress_iff {t : CharacterTables} {c : ListedCharacter} :
    (∃ c', c.dress t = .ok c') ↔ (t.wornBy c.id).length ≤ equipSlotCount := by
  have hpushes := Filled.pushes_iff (e := Fault.outOfBounds) (f := fun id _ => id) (l := t.wornBy c.id)
    (s := ⟨0, c.equipment.items⟩) (Nat.zero_le equipSlotCount)
  rw [Nat.zero_add] at hpushes
  rw [← hpushes]
  constructor
  · rintro ⟨c', h⟩
    obtain ⟨equipment, h, -⟩ := Exec.bind_eq_ok.1 h
    exact ⟨equipment, h⟩
  · rintro ⟨equipment, h⟩
    exact ⟨_, Exec.bind_eq_ok.2 ⟨equipment, h, rfl⟩⟩

/-- The rows that have been fetched. -/
theorem fetched_eq_ok {rows : List (UInt32 × CharactersRow)} {memory : ℕ → ListedCharacter}
    {l : Filled ListedCharacter}
    (h : fetchAll rows memory = .ok l) :
    l.count = rows.length ∧ List.Forall₂ (fun row c => c.id = row.1 ∧ c.sheet = row.2.sheet) rows l.toList := by
  obtain ⟨hcount, cs, hlist, hcs⟩ := Filled.pushes_eq_ok h
  refine ⟨hcount.trans (Nat.zero_add _), ?_⟩
  have hall : l.toList = cs := hlist
  rw [hall]
  refine hcs.imp fun row c hc => ?_
  obtain ⟨c₀, rfl⟩ := hc
  exact ⟨rfl, rfl⟩

/-- The request succeeds if there are places for all rows, and for what is worn. -/
theorem charactersFor_iff {t : CharacterTables} {account : UInt32} {world : UInt8}
    {memory : ℕ → ListedCharacter} :
    (∃ l, doGetCharactersForAccountForWorld t account world memory = .ok l) ↔
      (t.charactersOf account world).length ≤ accountMaxCharactersPerWorld ∧
        ∀ row ∈ t.charactersOf account world, (t.wornBy row.1).length ≤ equipSlotCount := by
  have hpushes := Filled.pushes_iff (e := Fault.outOfBounds) (f := ListedCharacter.fetch)
    (l := t.charactersOf account world) (s := ⟨0, memory⟩) (Nat.zero_le accountMaxCharactersPerWorld)
  rw [Nat.zero_add] at hpushes
  rw [← hpushes]
  -- What is worn is requested by the ids that have been fetched.
  have hworn {l : Filled ListedCharacter} (hl : fetchAll (t.charactersOf account world) memory = .ok l) :
      (∃ l', l.each (ListedCharacter.dress t) l.count = .ok l') ↔
        ∀ row ∈ t.charactersOf account world, (t.wornBy row.1).length ≤ equipSlotCount := by
    obtain ⟨-, hlist⟩ := fetched_eq_ok hl
    rw [Filled.each_toList_iff]
    simp only [dress_iff]
    generalize t.charactersOf account world = rows at hlist ⊢
    generalize l.toList = cs at hlist ⊢
    induction hlist with
    | nil => exact ⟨fun _ _ h => absurd h List.not_mem_nil, fun _ _ h => absurd h List.not_mem_nil⟩
    | cons hc _ ih => rw [List.forall_mem_cons, List.forall_mem_cons, ih, hc.1]
  constructor
  · rintro ⟨l', h⟩
    obtain ⟨l, hl, h⟩ := Exec.bind_eq_ok.1 h
    exact ⟨⟨l, hl⟩, (hworn hl).1 ⟨l', h⟩⟩
  · rintro ⟨⟨l, hl⟩, h⟩
    obtain ⟨l', hl'⟩ := (hworn hl).2 h
    exact ⟨l', Exec.bind_eq_ok.2 ⟨l, hl, hl'⟩⟩

/-- What is returned are the rows. -/
theorem charactersFor_listed {t : CharacterTables} {account : UInt32} {world : UInt8}
    {memory : ℕ → ListedCharacter} {l : Filled ListedCharacter}
    (h : doGetCharactersForAccountForWorld t account world memory = .ok l) :
    List.Forall₂ (Listed t) (t.charactersOf account world) l.toList := by
  obtain ⟨l₁, hl₁, h⟩ := Exec.bind_eq_ok.1 h
  obtain ⟨-, hfetched⟩ := fetched_eq_ok hl₁
  have hdressed := Filled.each_toList h
  generalize t.charactersOf account world = rows at hfetched
  generalize l₁.toList = cs at hfetched hdressed
  generalize l.toList = cs' at hdressed
  induction hfetched generalizing cs' with
  | nil =>
    cases hdressed
    exact .nil
  | cons hc _ ih =>
    cases hdressed with
    | cons hdress hdressed =>
      obtain ⟨hid, hsheet, hworn⟩ := dress_eq_ok hdress
      exact .cons ⟨hid.trans hc.1, hsheet.trans hc.2, hc.1 ▸ hworn⟩ (ih _ hdressed)

end Syrup
