import Syrup.Encoders.Items

/-!
# Packets that show a character

`set_field_packet` tells a player all about its character: the stats, the inventories, the skills, the
quests and the monster book. `add_player_to_map_packet` and `update_char_look_packet` tell other
players what the character looks like.
-/

namespace Syrup

open Wire

/-- The fields of `struct Character` that only packets need. -/
structure Presence where
  nameLength : UInt8
  name : Vector UInt8 12
  gender : Bool
  gachaExp : Int32
  chair : UInt32
  x : Int16
  y : Int16
  fh : UInt16
  stance : UInt8
  deriving DecidableEq, Inhabited

/-- No more bytes of the name are said to be there than there are. -/
def Presence.Sound (p : Presence) : Prop := p.nameLength.toNat ≤ 12

instance (p : Presence) : Decidable p.Sound := by unfold Presence.Sound; infer_instance

/-- The clock: the time in a packet, and how far it is from Greenwich at some time
    (`tm_gmtoff` of `localtime_r`). -/
structure Clock where
  now : UInt64
  gmtoff : Int64 → ℤ

/-- The records of a set, in the order in which `hash_set_u32_foreach` and
    `hash_set_u16_foreach` go through them, written by a function that does not change the set. -/
def foreach {R : Type} (set : HashSet R) (write : R → List Write) : List Write :=
  set.records.flatMap write

/-! ## The look -/

/-- `EQUIP_SLOT_NON_COSMETIC_COUNT`. -/
def equipSlotNonCosmeticCount : ℕ := 17

/-- `EQUIP_SLOT_WEAPON_COSMETIC`. -/
def equipSlotWeaponCosmetic : UInt32 := 111

/-- The id of what is worn in a slot, as it is written; nothing if the slot is empty. -/
def wornLook (chr : Character) (i : Fin equipSlotCount) : List Write :=
  (if (chr.equippedEquipment i).isEmpty then []
    else [.num u8 (equipSlotFromCompact (UInt8.ofNat i.val)).toNat,
      .num u32 (chr.equippedEquipment i).val.item.itemId.toNat]) ++
    if i.val = equipSlotNonCosmeticCount then [.num u8 0xFF] else []

/-- The id of the cosmetic weapon. -/
def cosmeticWeapon (chr : Character) : ℤ :=
  match equipIndex equipSlotWeaponCosmetic with
  | .error _ => 0
  | .ok i =>
    if (chr.equippedEquipment i).isEmpty then 0
    else (chr.equippedEquipment i).val.item.itemId.toNat

/-- `writer_char_appearance`, of `character_to_character_appearance`. -/
def writerCharAppearance (chr : Character) (p : Presence) (mega : Bool) : List Write :=
  [.num u8 p.gender.toNat, .num u8 chr.persona.skin.toNat, .num u32 chr.persona.face.toNat,
    .num u8 (if mega then 0 else 1), .num u32 chr.persona.hair.toNat] ++
    (List.finRange equipSlotCount).flatMap (wornLook chr) ++
    [.num u8 0xFF, .num u32 (cosmeticWeapon chr), .num u32 0, .num u32 0, .num u32 0]

/-! ## The stats -/

/-- `writer_char_stats`, of `character_to_character_stats`. -/
def writerCharStats (chr : Character) (p : Presence) : List Write :=
  [.num u32 chr.persona.id.toNat, .array p.nameLength.toUInt16 p.name.toList,
    .zero (13 - p.nameLength.toNat), .num u8 p.gender.toNat, .num u8 chr.persona.skin.toNat,
    .num u32 chr.persona.face.toNat, .num u32 chr.persona.hair.toNat, .num u64 0, .num u64 0,
    .num u64 0, .num u8 chr.level.toNat, .num u16 chr.job.toNat, .num i16 chr.str.toInt,
    .num i16 chr.dex.toInt, .num i16 chr.int_.toInt, .num i16 chr.luk.toInt, .num i16 chr.hp.toInt,
    .num i16 chr.maxHp.toInt, .num i16 chr.mp.toInt, .num i16 chr.maxMp.toInt,
    .num i16 chr.ap.toInt, .num i16 chr.sp.toInt, .num i32 chr.exp.toInt,
    .num i16 chr.persona.fame.toInt, .num i32 p.gachaExp.toInt, .num u32 chr.persona.map.toNat,
    .num u8 chr.persona.spawnPoint.toNat, .num u32 0]

/-! ## Skills, quests and the monster book -/

/-- `add_skills`. -/
def addSkills (skill : Skill) : List Write :=
  [.num u32 skill.id.toNat, .num u32 skill.level.toInt, .num u64 defaultTime]

/-- `snprintf(out, 4, "%03d", n)`: at least three characters, of which three are kept. -/
def progressDigits (n : Int32) : List UInt8 :=
  let digits := (Nat.toDigits 10 n.toInt.natAbs).map fun c => c.toNat.toUInt8
  let sign : List UInt8 := if n.toInt < 0 then [0x2D] else []
  (sign ++ List.replicate (3 - sign.length - digits.length) 0x30 ++ digits).take 3

/-- `quest_get_progress_string`. -/
def questGetProgressString (quest : Quest) : List UInt8 :=
  (quest.progress.toList.take quest.progressCount.toNat).flatMap progressDigits

/-- `add_quests`. -/
def addQuests (quest : Quest) : List Write :=
  [.num u16 quest.id.toNat,
    .sizedString (3 * quest.progressCount.toUInt16) (questGetProgressString quest)]

/-- The bytes of a quest info, whose number is `length`. -/
def QuestInfoProgress.bytes (info : QuestInfoProgress) : List UInt8 := info.value.toUTF8.data.toList

/-- `add_quest_infos`. -/
def addQuestInfos (info : QuestInfoProgress) : List Write :=
  [.num u16 info.id.toNat, .sizedString (UInt8.ofNat info.bytes.length).toUInt16 info.bytes]

/-- `add_completed_quests`. -/
def addCompletedQuests (clock : Clock) (quest : CompletedQuest) : List Write :=
  [.num u16 quest.id.toNat,
    .num u64 (quest.time.toInt * 10000000 + 116444736010800000 + clock.gmtoff quest.time * 10000000)]

/-- `add_monster_book_entries`. -/
def addMonsterBookEntries (entry : MonsterBookEntry) : List Write :=
  [.num u16 (entry.id % 10000).toNat, .num i8 entry.count.toInt]

/-! ## The inventories -/

/-- The number of a slot in `set_field_packet`. -/
def slotWrite (format : Format) (i : Fin maxItemCount) : Write := .num format (i.val + 1)

/-- What is worn. -/
def setFieldWorn (chr : Character) : List Write :=
  (List.finRange equipSlotCount).flatMap fun i =>
    if (chr.equippedEquipment i).isEmpty then []
    else .num u16 (equipSlotFromCompact (UInt8.ofNat i.val)).toNat ::
      setFieldEquip (chr.equippedEquipment i).val

/-- The slots of an inventory that are not empty, each with what is in it. -/
def setFieldSlots {α : Type} (format : Format) (block : α → List Write) (inv : Inventory α) :
    List Write :=
  inv.slots.flatMap fun i =>
    if (inv.items i).isEmpty then [] else slotWrite format i :: block (inv.items i).val

/-- The loop of `set_field_packet` over an inventory of stacks, and the end of the inventory. Of the
    cash inventory there is only the end. -/
def setFieldInventory (chr : Character) (k : Fin inventoryCount) : List Write :=
  (if k = 3 then [] else setFieldSlots u8 (setFieldStack k) (chr.inventory k)) ++ [.num u8 0]

/-- `set_field_packet`, before the inventories. -/
def setFieldHead (chr : Character) (p : Presence) : List Write :=
  [.num u16 0x007D, .num u32 0, .num u8 1, .num u8 1, .num u16 0, .num u32 0, .num u32 0, .num u32 0,
    .num i64 (-1), .num u8 0] ++ writerCharStats chr p ++
    [.num u8 20, .num u8 0, .num i32 chr.mesos.toInt, .num u8 chr.equipmentInventory.slotCount,
      .num u8 (chr.inventory 0).slotCount, .num u8 (chr.inventory 1).slotCount,
      .num u8 (chr.inventory 2).slotCount, .num u8 252, .num u64 zeroTime]

/-- `set_field_packet`, the inventories. -/
def setFieldInventories (chr : Character) : List Write :=
  setFieldWorn chr ++ [.num u16 0, .num u16 0] ++
    setFieldSlots u16 setFieldEquip chr.equipmentInventory ++ [.num u32 0] ++
    setFieldInventory chr 0 ++ setFieldInventory chr 1 ++ setFieldInventory chr 2 ++
    setFieldInventory chr 3

/-- `set_field_packet`, after the inventories. -/
def setFieldTail (clock : Clock) (chr : Character) : List Write :=
  [.num u16 (hashSetSize chr.skills)] ++ foreach chr.skills addSkills ++
    [.num u16 0, .num i16 (hashSetSize chr.quests + hashSetSize chr.questInfos)] ++
    foreach chr.quests addQuests ++ foreach chr.questInfos addQuestInfos ++
    [.num i16 (hashSetSize chr.completedQuests)] ++
    foreach chr.completedQuests (addCompletedQuests clock) ++
    [.num u16 0, .num u16 0, .num u16 0, .num u16 0] ++
    List.replicate 15 (.num u32 999999999) ++
    [.num u32 0, .num u8 0, .num u16 (hashSetSize chr.monsterBook)] ++
    foreach chr.monsterBook addMonsterBookEntries ++
    [.num u16 0, .num u16 0, .num u16 0, .num u64 clock.now.toNat]

/-- `SET_FIELD_PACKET_MAX_LENGTH`. -/
def setFieldPacketMaxLength : ℕ := 65535

/-- `set_field_packet`. -/
def setFieldPacket (clock : Clock) (chr : Character) (p : Presence) : Exec (List UInt8) :=
  packetOf setFieldPacketMaxLength
    (setFieldHead chr p ++ setFieldInventories chr ++ setFieldTail clock chr)

/-- The name and what fills it up are of one length. -/
theorem lengthOf_writerCharStats {chr : Character} {p : Presence} (hp : p.Sound) :
    lengthOf (writerCharStats chr p) = 93 := by
  rw [Presence.Sound] at hp
  simp only [writerCharStats, lengthOf_cons, lengthOf_nil, Write.size_num, Write.size_array,
    Write.size_zero, UInt8.toNat_toUInt16, width_u8, width_u16, width_u32, width_u64, width_i16,
    width_i32]
  omega

theorem lengthOf_setFieldHead {chr : Character} {p : Presence} (hp : p.Sound) :
    lengthOf (setFieldHead chr p) = 143 := by
  simp only [setFieldHead, lengthOf_append, lengthOf_writerCharStats hp, lengthOf_cons, lengthOf_nil,
    Write.size_num, width_u8, width_u16, width_u32, width_u64, width_i32, width_i64]

theorem sound_setFieldHead {chr : Character} {p : Presence} :
    (∀ w ∈ setFieldHead chr p, w.Sound) ↔ p.Sound := by
  simp only [setFieldHead, writerCharStats, List.forall_mem_append, List.forall_mem_cons,
    Write.sound_num, Write.sound_zero, Write.sound_array, UInt8.toNat_toUInt16, Vector.length_toList,
    List.not_mem_nil, false_implies, implies_true, and_true, true_and]
  rfl

/-! ## What others see -/

/-- `ADD_PLAYER_TO_MAP_PACKET_MAX_LENGTH`. -/
def addPlayerToMapPacketMaxLength : ℕ := 554

/-- `add_player_to_map_packet`. -/
def addPlayerToMapPacket (chr : Character) (p : Presence) : Exec (List UInt8) :=
  packetOf addPlayerToMapPacketMaxLength
    ([.num u16 0x00A0, .num u32 chr.persona.id.toNat, .num u8 chr.level.toNat,
      .sizedString p.nameLength.toUInt16 p.name.toList, .zero 8,
      .num u32 0, .num u16 0, .num u8 0xFC, .num u8 1, .num u32 0, .num u32 0, .num u32 0,
      .num u32 0, .num u16 0, .num u32 0,
      .num u32 0, .zero 11, .num u16 0,
      .zero 9, .num u32 0, .num u16 0, .num u8 0,
      .num u64 0,
      .num u32 0, .zero 8, .num u32 0, .num u8 0, .num u32 0, .num u16 0, .zero 9, .num u32 0,
      .num u32 0, .zero 9, .num u32 0, .num u32 0,
      .num u16 chr.job.toNat] ++
      writerCharAppearance chr p false ++
      [.num u32 0, .num u32 0, .num u32 p.chair.toNat, .num i16 p.x.toInt, .num i16 p.y.toInt,
        .num u8 p.stance.toNat, .num i16 p.fh.toNat, .num u8 0, .num u8 0,
        .num u32 1, .num u32 0, .num u32 0,
        .num u8 0, .num u8 0, .num u8 0, .num u8 0, .num u8 0, .num u8 0, .num u16 0, .num u8 0])

/-- `UPDATE_CHAR_LOOK_MAX_LENGTH`. -/
def updateCharLookMaxLength : ℕ := 363

/-- `update_char_look_packet`. -/
def updateCharLookPacket (chr : Character) (p : Presence) : Exec (List UInt8) :=
  packetOf updateCharLookMaxLength
    ([.num u16 0x00C5, .num u32 chr.persona.id.toNat, .num u8 1] ++
      writerCharAppearance chr p false ++ [.num u8 0, .num u8 0, .num u8 0, .num u32 0])

end Syrup
