import Syrup.Database.NewCharacter
import Syrup.Login.CharacterList

/-!
# The creation of a character

`create_character_handler_handle` requests a new character, and answers with a packet about the character that has
been asked for. It does not look at what the request says: that the name was taken, or that there is no bottom
under an overall.

What the client is shown is what there is if and only if the name is free, the top is a coat, and the characters
of the account, with this one, can be requested (`createCharacter_iff`).
-/

namespace Syrup

open Relational LastPlace

/-- `struct CreateCharacterHandler`. -/
structure CreateCharacterHandler where
  name : CharacterName
  job : UInt16
  gender : UInt8
  skin : UInt8
  hair : UInt32
  face : UInt32
  top : UInt32
  bottom : UInt32
  shoes : UInt32
  weapon : UInt32

/-- `struct CreateCharacterResult`, with what is passed to `create_character_response_packet`. -/
structure CreateCharacterResult where
  status : ℤ
  chr : CharacterStats

/-- `CREATE_CHARACTER_RESPONSE_PACKET_LENGTH`. -/
def createCharacterResponsePacketLength : ℕ := 162

/-- `create_character_response_packet`. -/
def createCharacterResponsePacket (chr : CharacterStats) : Exec (List UInt8) :=
  packetOf createCharacterResponsePacketLength ([.num u16 0x000E, .num u8 0] ++ characterListEntry chr)

namespace CreateCharacterHandler

variable (r : CreateCharacterHandler)

/-- The parameters of the request for these pieces. -/
def request (account : UInt32) (world : UInt8) (top bottom shoes weapon : EquipInfo) : NewCharacter where
  name := r.name
  accountId := account
  world := world
  map := 10000
  job := r.job
  gender := r.gender
  skin := r.skin
  hair := r.hair
  face := r.face
  top := equipmentFromInfo top
  bottom := equipmentFromInfo bottom
  shoes := equipmentFromInfo shoes
  weapon := equipmentFromInfo weapon

/-- The parameters of the request, for which the pieces are looked up. -/
def params (wz : Wz) (account : UInt32) (world : UInt8) : Exec NewCharacter := do
  let top ← Exec.deref (wz.equipInfo r.top)
  let bottom ← Exec.deref (wz.equipInfo r.bottom)
  let shoes ← Exec.deref (wz.equipInfo r.shoes)
  let weapon ← Exec.deref (wz.equipInfo r.weapon)
  .ok (r.request account world top bottom shoes weapon)

/-- What is shown as worn: `EQUIP_SLOT_TOP_OR_OVERALL`, `EQUIP_SLOT_BOTTOM`, `EQUIP_SLOT_SHOES` and
    `EQUIP_SLOT_WEAPON`. -/
def equipments (i : Fin equipSlotCount) : Option UInt32 :=
  if i.val = (equipSlotToCompact 5).toNat then some r.top
  else if i.val = (equipSlotToCompact 6).toNat then some r.bottom
  else if i.val = (equipSlotToCompact 7).toNat then some r.shoes
  else if i.val = (equipSlotToCompact equipSlotWeapon).toNat then some r.weapon
  else none

/-- The character that is shown. -/
def shown (id : UInt32) : CharacterStats where
  id := id
  appearance := {
    name := r.name, gender := r.gender != 0, skin := r.skin, face := r.face, hair := r.hair, gachaExp := 0
    map := 10000, spawnPoint := 0, equipments := r.equipments }
  level := 1
  job := r.job
  fame := 0
  str := 12
  dex := 5
  int_ := 4
  luk := 4
  maxHp := 50
  hp := 50
  maxMp := 5
  mp := 5
  ap := 0
  sp := 0
  exp := 0

end CreateCharacterHandler

section Handler

variable {K : Type} [DecidableEq K] (key : CharacterName → K)

/-- `create_character_handler_handle`, when the request has been executed. Nobody looks whether the character has
    been created; if not, its id is what is in memory. -/
def createCharacterHandlerHandle (wz : Wz) (account : UInt32) (world : UInt8) (r : CreateCharacterHandler)
    (n : NextIds) (memory : UInt32) (t : CharacterTables) : Exec (CreateCharacterResult × CharacterTables) := do
  let p ← r.params wz account world
  let (id, t) := doTryCreateCharacter key p n t
  .ok (⟨0, r.shown (id.getD memory)⟩, t)

/-! ## What is shown -/

/-- A row has been inserted into `Characters`. -/
def Inserted (t t' : CharacterTables) : Prop :=
  ∃ id row, t.characters.get? id = none ∧ t'.characters.get? id = some row

/-- A character of the list is the one that was shown. -/
structure CharacterStats.IsListed (chr : CharacterStats) (c : ListedCharacter) : Prop where
  id : c.id = chr.id
  name : c.sheet.name = chr.appearance.name
  gender : (c.sheet.gender != 0) = chr.appearance.gender
  skin : c.sheet.skin = chr.appearance.skin
  face : c.sheet.face = chr.appearance.face
  hair : c.sheet.hair = chr.appearance.hair
  worn : c.equipment.toList.Perm chr.appearance.worn

/-- Success has been reported if and only if there is a new row. Then it is in the list as it was shown, and what
    it wears has rows of its own. Nothing has changed if the name was taken. -/
structure CreateCharacterResult.AsShown (account : UInt32) (world : UInt8) (name : CharacterName)
    (t t' : CharacterTables) (res : CreateCharacterResult) : Prop where
  reported : res.status = 0 ↔ Inserted t t'
  listed : res.status = 0 → ∀ memory, ∃ l, doGetCharactersForAccountForWorld t' account world memory = .ok l ∧
    ∃ c ∈ l.toList, res.chr.IsListed c
  linked : res.status = 0 → ((t'.wornRows res.chr.id).map Prod.fst).Nodup
  taken : t.taken key name = true → t' = t

end Handler

theorem lengthOf_wornLook_shown (r : CreateCharacterHandler) (id : UInt32) (i : Fin equipSlotCount) :
    lengthOf ((r.shown id).appearance.wornLook i) ≤
      (if i.val ∈ [4, 5, 6, 10] then 5 else 0) + if i.val = equipSlotNonCosmeticCount then 1 else 0 := by
  rw [CharacterAppearance.wornLook, lengthOf_append]
  refine add_le_add ?_ ?_
  · have hequipments : (r.shown id).appearance.equipments i = r.equipments i := rfl
    rw [hequipments]
    have hslots : (equipSlotToCompact 5).toNat = 4 ∧ (equipSlotToCompact 6).toNat = 5 ∧
        (equipSlotToCompact 7).toNat = 6 ∧ (equipSlotToCompact equipSlotWeapon).toNat = 10 := by decide
    by_cases hi : i.val ∈ [4, 5, 6, 10]
    · rw [if_pos hi]
      split
      · exact Nat.zero_le _
      · exact le_rfl
    · have hnone : r.equipments i = none := by
        simp only [List.mem_cons, List.not_mem_nil, or_false, not_or] at hi
        rw [CreateCharacterHandler.equipments, hslots.1, hslots.2.1, hslots.2.2.1, hslots.2.2.2, if_neg hi.1,
          if_neg hi.2.1, if_neg hi.2.2.1, if_neg hi.2.2.2]
      rw [hnone]
      exact Nat.zero_le _
  · split <;> exact le_rfl

/-- The response fits into its packet. -/
theorem createCharacterResponsePacket_ok (r : CreateCharacterHandler) (id : UInt32) :
    ∃ packet, createCharacterResponsePacket (r.shown id) = .ok packet := by
  refine ⟨_, packetOf_eq_ok.2 ⟨List.forall_mem_append.2 ⟨by simp, sound_entry _⟩, ?_, rfl⟩⟩
  have hname := r.name.2
  have hsize : (UInt16.ofNat r.name.val.length).toNat = r.name.val.length :=
    UInt16.toNat_ofNat_of_lt' (by change _ < 65536; omega)
  have hworn : lengthOf ((List.finRange equipSlotCount).flatMap (r.shown id).appearance.wornLook) ≤ 21 := by
    rw [lengthOf_flatMap]
    refine (List.sum_le_sum fun i _ => lengthOf_wornLook_shown r id i).trans ?_
    decide +kernel
  simp only [characterListEntry, CharacterStats.writerCharStats, CharacterAppearance.writerCharAppearance,
    lengthOf_append, lengthOf_cons, lengthOf_nil, Write.size_num, Write.size_array, Write.size_zero,
    width_u8, width_u16, width_u32, width_u64, width_i16, width_i32, createCharacterResponsePacketLength]
  rw [show (r.shown id).appearance.name = r.name from rfl, hsize]
  omega

section Proof

variable {K : Type} [DecidableEq K] {key : CharacterName → K} {wz : Wz} {account : UInt32} {world : UInt8}
  {r : CreateCharacterHandler} {n : NextIds} {t : CharacterTables} {p : NewCharacter}

/-- The parameters are those of the packet. -/
structure CreateCharacterHandler.Requests (r : CreateCharacterHandler) (account : UInt32) (world : UInt8)
    (p : NewCharacter) : Prop where
  name : p.name = r.name
  account : p.accountId = account
  world : p.world = world
  gender : p.gender = r.gender
  skin : p.skin = r.skin
  face : p.face = r.face
  hair : p.hair = r.hair
  worn : p.worn.map (·.item.itemId) =
    if isCoat r.top then [r.top, r.bottom, r.shoes, r.weapon] else [r.top, r.shoes, r.weapon]

theorem params_ok (account : UInt32) (world : UInt8)
    (h : ∀ id ∈ [r.top, r.bottom, r.shoes, r.weapon], (wz.equipInfo id).isSome) :
    ∃ p, r.params wz account world = .ok p ∧ r.Requests account world p := by
  simp only [List.forall_mem_cons, Option.isSome_iff_exists] at h
  obtain ⟨⟨top, htop⟩, ⟨bottom, hbottom⟩, ⟨shoes, hshoes⟩, ⟨weapon, hweapon⟩, -⟩ := h
  have hids : top.id = r.top ∧ bottom.id = r.bottom ∧ shoes.id = r.shoes ∧ weapon.id = r.weapon :=
    ⟨wz.equipInfo_id htop, wz.equipInfo_id hbottom, wz.equipInfo_id hshoes, wz.equipInfo_id hweapon⟩
  refine ⟨r.request account world top bottom shoes weapon, ?_, rfl, rfl, rfl, rfl, rfl, rfl, rfl, ?_⟩
  · rw [CreateCharacterHandler.params, htop, hbottom, hshoes, hweapon]
    rfl
  · rw [NewCharacter.worn, apply_ite (List.map _)]
    simp only [CreateCharacterHandler.request, equipmentFromInfo, hids, List.map_cons, List.map_nil]

/-- The new character is the first of its account. -/
theorem charactersOf_created (hn : n.Fresh t) (hp : r.Requests account world p) :
    (t.created p n).charactersOf account world = (n.character, p.row) :: t.charactersOf account world := by
  rw [CharacterTables.charactersOf]
  change ((t.characters.put n.character p.row).rows.filter _) = _
  rw [Table.rows_put hn.character]
  exact List.filter_cons_of_pos (decide_eq_true ⟨hp.account, hp.world⟩)

/-- What the others of the account wear has not changed. -/
theorem wornBy_created (hn : n.Fresh t) :
    ∀ row ∈ t.charactersOf account world, (t.created p n).wornBy row.1 = t.wornBy row.1 := by
  intro row hrow
  have hne : row.1 ≠ n.character := by
    intro heq
    have hget := Table.get?_eq_some.2 (List.mem_of_mem_filter hrow)
    rw [heq, hn.character] at hget
    cases hget
  rw [CharacterTables.wornBy, wornRows_other hn hne, CharacterTables.wornBy]

theorem wornBy_new (hn : n.Fresh t) :
    (t.created p n).wornBy n.character = (p.worn.map (·.item.itemId)).reverse := by
  rw [CharacterTables.wornBy, wornRows_created hn, List.map_reverse, List.map_snd_zip]
  rw [length_block, List.length_map]

/-- A gender that is not zero is stored as one. -/
theorem gender_stored (h : p.gender = r.gender) : (p.row.sheet.gender != 0) = (r.gender != 0) := by
  rw [← h]
  change ((if p.gender ≤ 127 then p.gender else 127) != 0) = _
  split
  · rfl
  · rename_i hgt
    have hne : p.gender ≠ 0 := fun hzero => hgt (hzero ▸ by decide)
    rw [bne_iff_ne.2 hne]
    rfl

theorem exists_of_mem_right {α β : Type} {R : α → β → Prop} {as : List α} {bs : List β} (h : List.Forall₂ R as bs)
    {b : β} (hb : b ∈ bs) : ∃ a, R a b := by
  induction h with
  | nil => exact absurd hb List.not_mem_nil
  | @cons a _ _ _ hab _ ih =>
    rcases List.mem_cons.1 hb with rfl | hb
    · exact ⟨a, hab⟩
    · exact ih hb

/-- The account can be listed when there is a place for the character. -/
theorem charactersFor_created_iff (hn : n.Fresh t) (hp : r.Requests account world p)
    (memory : ℕ → ListedCharacter) :
    (∃ l, doGetCharactersForAccountForWorld (t.created p n) account world memory = .ok l) ↔
      (t.charactersOf account world).length < accountMaxCharactersPerWorld ∧
        ∀ row ∈ t.charactersOf account world, (t.wornBy row.1).length ≤ equipSlotCount := by
  have hfew : (p.worn.map (·.item.itemId)).reverse.length ≤ equipSlotCount := by
    rw [List.length_reverse, List.length_map]
    exact NewCharacter.length_worn_le.trans (by decide)
  rw [charactersFor_iff, charactersOf_created hn hp, List.length_cons, List.forall_mem_cons, wornBy_new hn]
  refine and_congr Nat.succ_le_iff ((and_iff_right hfew).trans ?_)
  exact forall₂_congr fun row hrow => by rw [wornBy_created hn row hrow]

/-- If the name is taken, success is reported all the same. -/
theorem not_asShown_of_taken (htaken : t.taken key r.name = true) {memory : UInt32} {res : CreateCharacterResult}
    {t' : CharacterTables} (h : createCharacterHandlerHandle key wz account world r n memory t = .ok (res, t')) :
    ¬res.AsShown key account world r.name t t' := by
  intro hshown
  obtain ⟨p, -, h⟩ := Exec.bind_eq_ok.1 h
  cases h
  have hsame := hshown.taken htaken
  obtain ⟨id, row, hnone, hsome⟩ := hshown.reported.1 rfl
  rw [hsame, hnone] at hsome
  cases hsome

/-- What the client is shown is what there is if and only if the name is free, the top is a coat, and there is a
    place in the list. -/
theorem createCharacter_iff (hn : n.Fresh t)
    (hdata : ∀ id ∈ [r.top, r.bottom, r.shoes, r.weapon], (wz.equipInfo id).isSome) (memory : UInt32) :
    (∃ res t' packet, createCharacterHandlerHandle key wz account world r n memory t = .ok (res, t') ∧
      createCharacterResponsePacket res.chr = .ok packet ∧ res.AsShown key account world r.name t t') ↔
      t.taken key r.name = false ∧ isCoat r.top = true ∧
        (t.charactersOf account world).length < accountMaxCharactersPerWorld ∧
        ∀ row ∈ t.charactersOf account world, (t.wornBy row.1).length ≤ equipSlotCount := by
  obtain ⟨p, hparams, hp⟩ := params_ok account world hdata
  have hhandle : createCharacterHandlerHandle key wz account world r n memory t =
      .ok (⟨0, r.shown ((doTryCreateCharacter key p n t).1.getD memory)⟩, (doTryCreateCharacter key p n t).2) := by
    rw [createCharacterHandlerHandle, hparams]
    rfl
  cases htaken : t.taken key r.name with
  | true =>
    constructor
    · rintro ⟨res, t', packet, h, -, hshown⟩
      exact absurd hshown (not_asShown_of_taken htaken h)
    · rintro ⟨hfree, -⟩
      cases hfree
  | false =>
    rw [hhandle]
    have htry : doTryCreateCharacter key p n t = (some n.character, t.created p n) := by
      rw [doTryCreateCharacter, hp.name, htaken]
      rfl
    rw [htry]
    constructor
    · rintro ⟨res, t', packet, hres, -, hshown⟩
      cases hres
      obtain ⟨l, hl, c, hc, hlisted⟩ := hshown.listed rfl fun _ => ⟨0, p.row.sheet, ⟨0, fun _ => 0⟩⟩
      refine ⟨rfl, ?_, (charactersFor_created_iff hn hp _).1 ⟨l, hl⟩⟩
      -- What is listed for the character is one less under anything but a coat.
      obtain ⟨row, hrow⟩ := exists_of_mem_right (charactersFor_listed hl) hc
      have hlength := hlisted.worn.length_eq
      rw [hrow.worn, ← hrow.id, hlisted.id] at hlength
      change ((t.created p n).wornBy n.character).length = _ at hlength
      rw [wornBy_new hn, hp.worn, List.length_reverse] at hlength
      by_contra hcoat
      rw [if_neg hcoat] at hlength
      cases hlength
    · rintro ⟨-, hcoat, hplaces⟩
      obtain ⟨packet, hpacket⟩ := createCharacterResponsePacket_ok r n.character
      refine ⟨_, _, packet, rfl, hpacket, ?_, fun _ memory => ?_, fun _ => ?_, fun htaken' => ?_⟩
      · exact ⟨fun _ => ⟨n.character, p.row, hn.character, Table.get?_put_self⟩, fun _ => rfl⟩
      · obtain ⟨l, hl⟩ := (charactersFor_created_iff hn hp memory).2 hplaces
        have hlist := charactersFor_listed hl
        rw [charactersOf_created hn hp] at hlist
        obtain ⟨c, cs, hc, -, hcs⟩ := List.forall₂_cons_left_iff.1 hlist
        refine ⟨l, hl, c, hcs ▸ List.mem_cons_self, hc.id, ?_, ?_, ?_, ?_, ?_, ?_⟩
        · exact (congrArg CharacterSheet.name hc.sheet).trans hp.name
        · rw [hc.sheet]
          exact gender_stored hp.gender
        · exact (congrArg CharacterSheet.skin hc.sheet).trans hp.skin
        · exact (congrArg CharacterSheet.face hc.sheet).trans hp.face
        · exact (congrArg CharacterSheet.hair hc.sheet).trans hp.hair
        · rw [hc.worn, wornBy_new hn, hp.worn, if_pos hcoat]
          exact List.reverse_perm _
      · change (((t.created p n).wornRows n.character).map Prod.fst).Nodup
        rw [wornRows_created hn, List.map_reverse, List.map_fst_zip]
        · exact List.nodup_reverse.2 (nodup_block _ (NewCharacter.length_worn_le.trans (by decide)))
        · rw [length_block, List.length_map]
      · rw [htaken] at htaken'
        cases htaken'

end Proof

/-- A packet for a character in a coat, or in whatever the top is. -/
def newBeginner (top : UInt32) : CreateCharacterHandler :=
  ⟨⟨[0x41], length_letter⟩, 0, 0, 0, 30000, 20000, top, 1060002, 1072001, 1302000⟩

/-- What is known of the equipment. -/
def someWear : Wz := (Env.ofLists [] [.plain 1040002, .plain 1050000, .plain 1060002, .plain 1072001, .plain 1302000]
  [] []).toWz

/-- There are no characters yet. -/
def noCharacters : CharacterTables :=
  ⟨.empty, ⟨.empty, .empty, .empty, .empty, .empty, .empty, .empty, .empty, .empty, .empty⟩⟩

/-- The first character of all. -/
theorem createCharacter_first : ∃ res t' packet,
    createCharacterHandlerHandle id someWear 1 0 (newBeginner 1040002) ⟨1, 1, 1, 1⟩ 0 noCharacters = .ok (res, t') ∧
      createCharacterResponsePacket res.chr = .ok packet ∧
      res.AsShown id 1 0 (newBeginner 1040002).name noCharacters t' := by
  refine (createCharacter_iff ⟨rfl, ?_, ?_, ?_, ?_, ?_, ?_, ?_⟩ (List.all_eq_true.1 (by decide)) 0).2
    ⟨rfl, by decide, by decide, ?_⟩
  · exact fun _ _ h => nomatch h
  · exact fun _ _ => rfl
  · exact fun _ _ => rfl
  · exact fun _ _ => rfl
  · exact fun _ _ h => nomatch h
  · exact fun _ _ h => nomatch h
  · exact fun _ _ h => nomatch h
  · exact fun _ h => absurd h List.not_mem_nil

/-- A name that is taken: the client is told that the character has been created. -/
theorem createCharacter_fails : ¬∃ res t' packet,
    createCharacterHandlerHandle id someWear 2 0 (newBeginner 1040002) ⟨2, 1, 1, 1⟩ 0 (oneCharacter 50) =
        .ok (res, t') ∧
      createCharacterResponsePacket res.chr = .ok packet ∧
      res.AsShown id 2 0 (newBeginner 1040002).name (oneCharacter 50) t' := by
  rintro ⟨res, t', packet, h, -, hshown⟩
  exact not_asShown_of_taken rfl h hshown

end Syrup
