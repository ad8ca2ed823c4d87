import Syrup.Database.Characters
import Syrup.Encoders.Fits
import Syrup.Lib.Placement

/-!
# The list of characters

`character_list_handler_handle` makes the statistics and the appearances that `character_list_packet` writes of
the characters that have been requested, and puts what they wear where `equip_slot_from_id` says.

The packet lists the characters as they are if and only if there are at most six of them, their points are at
their maximum, and what they wear has places of its own (`characterList_iff`).
-/

namespace Syrup

open Relational LastPlace Placement

/-! ## Records -/

/-- `struct CharacterAppearance`. -/
structure CharacterAppearance where
  name : CharacterName
  gender : Bool
  skin : UInt8
  face : UInt32
  hair : UInt32
  gachaExp : Int32
  map : UInt32
  spawnPoint : UInt8
  equipments : Fin equipSlotCount → Option UInt32

/-- `struct CharacterStats`, with its `struct CharacterInfo`. -/
structure CharacterStats where
  id : UInt32
  appearance : CharacterAppearance
  level : UInt8
  job : UInt16
  fame : Int16
  str : Int16
  dex : Int16
  int_ : Int16
  luk : Int16
  maxHp : Int16
  hp : Int16
  maxMp : Int16
  mp : Int16
  ap : Int16
  sp : Int16
  exp : Int32

namespace CharacterAppearance

variable (a : CharacterAppearance)

/-- What is worn, from slot to slot. -/
def worn : List UInt32 := (List.finRange equipSlotCount).filterMap a.equipments

/-- The id of what is worn in a slot, as it is written. -/
def wornLook (i : Fin equipSlotCount) : List Write :=
  (match a.equipments i with
    | none => []
    | some id => [.num u8 (equipSlotFromCompact (UInt8.ofNat i.val)).toNat, .num u32 id.toNat]) ++
    if i.val = equipSlotNonCosmeticCount then [.num u8 0xFF] else []

/-- The id of the cosmetic weapon. -/
def cosmeticWeapon : ℤ :=
  match equipIndex equipSlotWeaponCosmetic with
  | .error _ => 0
  | .ok i => ((a.equipments i).map fun id => (id.toNat : ℤ)).getD 0

/-- `writer_char_appearance`. -/
def writerCharAppearance (mega : Bool) : List Write :=
  [.num u8 a.gender.toNat, .num u8 a.skin.toNat, .num u32 a.face.toNat, .num u8 (if mega then 0 else 1),
    .num u32 a.hair.toNat] ++ (List.finRange equipSlotCount).flatMap a.wornLook ++
    [.num u8 0xFF, .num u32 a.cosmeticWeapon, .num u32 0, .num u32 0, .num u32 0]

end CharacterAppearance

/-- `writer_char_stats`. -/
def CharacterStats.writerCharStats (c : CharacterStats) : List Write :=
  [.num u32 c.id.toNat, .array (UInt16.ofNat c.appearance.name.val.length) c.appearance.name.val,
    .zero (13 - c.appearance.name.val.length), .num u8 c.appearance.gender.toNat,
    .num u8 c.appearance.skin.toNat, .num u32 c.appearance.face.toNat, .num u32 c.appearance.hair.toNat,
    .num u64 0, .num u64 0, .num u64 0, .num u8 c.level.toNat, .num u16 c.job.toNat, .num i16 c.str.toInt,
    .num i16 c.dex.toInt, .num i16 c.int_.toInt, .num i16 c.luk.toInt, .num i16 c.hp.toInt,
    .num i16 c.maxHp.toInt, .num i16 c.mp.toInt, .num i16 c.maxMp.toInt, .num i16 c.ap.toInt,
    .num i16 c.sp.toInt, .num i32 c.exp.toInt, .num i16 c.fame.toInt, .num i32 c.appearance.gachaExp.toInt,
    .num u32 c.appearance.map.toNat, .num u8 c.appearance.spawnPoint.toNat, .num u32 0]

/-- A character of the list. -/
def characterListEntry (c : CharacterStats) : List Write :=
  c.writerCharStats ++ c.appearance.writerCharAppearance false ++ [.num u8 0, .num u8 0]

/-- An item is shown in the slot of its id. -/
def CharacterAppearance.show (a : CharacterAppearance) (id : UInt32) : Exec CharacterAppearance := do
  let i ← equipIndex (equipSlotFromId id)
  .ok { a with equipments := Function.update a.equipments i (some id) }

/-- The appearance of a character that wears nothing. -/
def CharacterSheet.appearance (c : CharacterSheet) : CharacterAppearance where
  name := c.name
  gender := c.gender != 0
  skin := c.skin
  face := c.face
  hair := c.hair
  gachaExp := 0
  map := 0
  spawnPoint := 0
  equipments := fun _ => none

theorem sound_entry (c : CharacterStats) : ∀ w ∈ characterListEntry c, w.Sound := by
  have hsize : (UInt16.ofNat c.appearance.name.val.length).toNat ≤ c.appearance.name.val.length := by
    rw [UInt16.toNat_ofNat']
    exact Nat.mod_le _ _
  refine List.forall_mem_append.2 ⟨List.forall_mem_append.2 ⟨?_, ?_⟩, by simp⟩
  · simp only [CharacterStats.writerCharStats, List.forall_mem_cons]
    exact ⟨trivial, hsize, by simp⟩
  · refine List.forall_mem_append.2 ⟨List.forall_mem_append.2 ⟨by simp, sound_flatMap fun i _ => ?_⟩, by simp⟩
    refine List.forall_mem_append.2 ⟨?_, ?_⟩ <;> split <;> simp

theorem length_letter : [(0x41 : UInt8)].length ≤ 12 := by decide

/-- A character that has been created, with so many points left. -/
def beginner (hp : Int16) : CharacterSheet :=
  ⟨⟨[0x41], length_letter⟩, 0, 1, 0, 50, hp, 5, 5, 12, 5, 4, 4, 0, 0, 0, 0, 0, 20000, 30000⟩

/-- The tables of an account with one character, which wears nothing. -/
def oneCharacter (hp : Int16) : CharacterTables where
  characters := .ofList [(1, ⟨1, 0, 10000, beginner hp⟩)] (List.nodup_singleton _)
  items := ⟨.empty, .empty, .empty, .empty, .empty, .empty, .empty, .empty, .empty, .empty⟩

end Syrup
