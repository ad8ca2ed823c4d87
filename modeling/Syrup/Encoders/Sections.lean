import Syrup.Encoders.OneEncoding

/-!
# The two sections of what is worn

What a character wears is sent in two sections, first what can be seen in the slots below 100, then what is cosmetic.
So it should be where others are shown the character (`readLook`) and where it comes to itself at login
(`readWornSections`).

The loop over the slots ends the first section one slot too late, and the packet at login has everything in its first
section: `sections_iff`.
-/

namespace Syrup

open Wire

/-! ## The rule -/

/-- What is worn in the slots below 100. -/
def Character.nonCosmetic (chr : Character) : List (ℤ × Equipment) := chr.wornShown.filter (·.1 < 100)

/-- What is worn in the cosmetic slots. -/
def Character.cosmetic (chr : Character) : List (ℤ × Equipment) := chr.wornShown.filter (100 ≤ ·.1)

/-- A slot and the id of what is worn there. -/
def lookPair (r : ℤ × Equipment) : ℤ × ℤ := (r.1, r.2.item.itemId.toNat)

/-! ## Reading -/

/-- Slots with ids, at most `n`, up to a slot of number `0xFF`. -/
def readPairs : ℕ → List UInt8 → Option (List (ℤ × ℤ) × List UInt8)
  | 0, _ => none
  | n + 1, bs => do
    let (slot, bs) ← u8.read bs
    if slot = 0xFF then some ([], bs)
    else
      let (id, bs) ← u32.read bs
      let (pairs, bs) ← readPairs n bs
      some ((slot, id) :: pairs, bs)

/-- The two sections of the look of a character, which begin after its gender, skin, face and hair. -/
def readLook (bs : List UInt8) : Option (List (ℤ × ℤ) × List (ℤ × ℤ)) := do
  let bs := bs.drop 11
  let (nonCosmetic, bs) ← readPairs (equipSlotCount + 1) bs
  let (cosmetic, _) ← readPairs (equipSlotCount + 1) bs
  return (nonCosmetic, cosmetic)

/-- The two sections of what is worn in a login packet. -/
def readWornSections (bs : List UInt8) : Option (List (ℤ × ReadItem) × List (ℤ × ReadItem)) := do
  let bs := bs.drop setFieldHeadLength
  let (nonCosmetic, bs) ← readSlots u16 readEquip (maxItemCount + 1) bs
  let (cosmetic, _) ← readSlots u16 readEquip (maxItemCount + 1) bs
  return (nonCosmetic, cosmetic)

/-- Others are shown everything in its section. -/
def LookRight (chr : Character) (p : Presence) (mega : Bool) : Prop :=
  readLook (bytesOf (writerCharAppearance chr p mega)) =
    some (chr.nonCosmetic.map lookPair, chr.cosmetic.map lookPair)

/-- The login packet has everything in its section. -/
def FieldRight (chr : Character) (bs : List UInt8) : Prop :=
  readWornSections bs = some (chr.nonCosmetic.map (Prod.map id Equipment.toRead),
    chr.cosmetic.map (Prod.map id Equipment.toRead))

/-! ## The look -/

/-- The writes of a section. -/
def pairWrites (l : List (ℤ × Equipment)) : List Write :=
  l.flatMap fun r => [.num u8 r.1, .num u32 r.2.item.itemId.toNat]

/-- A section and its end are read. -/
theorem readPairs_spec {l : List (ℤ × Equipment)} {n : ℕ} (hn : l.length < n)
    (hslot : ∀ r ∈ l, u8.InRange r.1 ∧ r.1 ≠ 0xFF) (rest : List UInt8) :
    readPairs n (bytesOf (pairWrites l) ++ (u8.encode 0xFF ++ rest)) = some (l.map lookPair, rest) := by
  induction l generalizing n with
  | nil =>
    obtain ⟨n, rfl⟩ := Nat.exists_eq_succ_of_ne_zero (Nat.ne_of_gt hn)
    rw [pairWrites, List.flatMap_nil, bytesOf_nil, List.nil_append, readPairs,
      Format.read_encode (show u8.InRange 0xFF by decide)]
    rfl
  | cons r l ih =>
    obtain ⟨n, rfl⟩ := Nat.exists_eq_succ_of_ne_zero (Nat.ne_of_gt (Nat.zero_lt_of_lt hn))
    obtain ⟨hr, hslot⟩ := List.forall_mem_cons.1 hslot
    have hrest := ih (Nat.lt_of_succ_lt_succ hn) hslot
    rw [pairWrites, List.flatMap_cons, bytesOf_append, bytesOf_cons, bytesOf_cons, bytesOf_nil, Write.bytes,
      Write.bytes, List.append_nil, List.append_assoc, List.append_assoc, readPairs, Format.read_encode hr.1]
    change (if r.1 = 0xFF then _ else _) = _
    rw [if_neg hr.2, Format.read_encode (inRange_u32 r.2.item.itemId)]
    change (readPairs n _).bind _ = _
    rw [← pairWrites, hrest]
    rfl

/-- What is worn in some slots. -/
def Character.wornIn (chr : Character) (l : List (Fin equipSlotCount)) : List (ℤ × Equipment) :=
  l.filterMap fun i => (chr.worn i).map fun e => ((equipSlotFromCompact (UInt8.ofNat i.val)).toNat, e)

/-- The compact slots below that at which the first section ends. -/
def lowSlots : List (Fin equipSlotCount) := (List.finRange equipSlotCount).take 17

/-- The compact slots above that at which the first section ends. -/
def highSlots : List (Fin equipSlotCount) := (List.finRange equipSlotCount).drop 18

theorem finRange_eq : List.finRange equipSlotCount = lowSlots ++ 17 :: highSlots := by decide +kernel

theorem lowSlots_ne : (lowSlots.all fun i => i.val ≠ equipSlotNonCosmeticCount ∧
    (equipSlotFromCompact (UInt8.ofNat i.val)).toNat < 100) = true := by decide +kernel

theorem highSlots_ne : (highSlots.all fun i => i.val ≠ equipSlotNonCosmeticCount ∧
    100 ≤ (equipSlotFromCompact (UInt8.ofNat i.val)).toNat) = true := by decide +kernel

section Look

variable (chr : Character)

/-- Outside of the slot at which the first section ends, what is worn is written as it is. -/
theorem flatMap_wornLook {l : List (Fin equipSlotCount)} (h : ∀ i ∈ l, i.val ≠ equipSlotNonCosmeticCount) :
    l.flatMap (wornLook chr) = pairWrites (chr.wornIn l) := by
  induction l with
  | nil => rfl
  | cons i l ih =>
    obtain ⟨hi, hl⟩ := List.forall_mem_cons.1 h
    rw [List.flatMap_cons, ih hl, wornLook, if_neg hi, List.append_nil, Character.wornIn, Character.wornIn,
      List.filterMap_cons, Character.worn]
    cases he : (chr.equippedEquipment i).isEmpty with
    | false =>
      rw [Cell.get?_of_not_isEmpty he]
      rfl
    | true =>
      rw [Cell.get?_of_isEmpty he]
      rfl

/-- The slot at which the first section ends is in it. -/
theorem wornLook_last : wornLook chr 17 = pairWrites (chr.wornIn [17]) ++ [.num u8 0xFF] := by
  rw [wornLook, if_pos (show (17 : Fin equipSlotCount).val = equipSlotNonCosmeticCount from rfl), Character.wornIn,
    List.filterMap_cons, Character.worn]
  cases he : (chr.equippedEquipment 17).isEmpty with
  | false =>
    rw [Cell.get?_of_not_isEmpty he]
    rfl
  | true =>
    rw [Cell.get?_of_isEmpty he]
    rfl

theorem wornIn_append (l l' : List (Fin equipSlotCount)) : chr.wornIn (l ++ l') = chr.wornIn l ++ chr.wornIn l' :=
  List.filterMap_append

theorem wornShown_eq : chr.wornShown = chr.wornIn lowSlots ++ (chr.wornIn [17] ++ chr.wornIn highSlots) := by
  rw [← wornIn_append, ← wornIn_append, List.singleton_append, ← finRange_eq]
  rfl

/-- What is worn in a slot is written with its number. -/
theorem slot_wornIn {l : List (Fin equipSlotCount)} {r : ℤ × Equipment} (h : r ∈ chr.wornIn l) :
    ∃ i ∈ l, r.1 = (equipSlotFromCompact (UInt8.ofNat i.val)).toNat := by
  obtain ⟨i, hi, hr⟩ := List.mem_filterMap.1 h
  obtain ⟨e, _, rfl⟩ := Option.map_eq_some_iff.1 hr
  exact ⟨i, hi, rfl⟩

theorem slot_low {r : ℤ × Equipment} (h : r ∈ chr.wornIn lowSlots) : r.1 < 100 := by
  obtain ⟨i, hi, hr⟩ := slot_wornIn chr h
  have hlow := (of_decide_eq_true (List.all_eq_true.1 lowSlots_ne i hi)).2
  rw [hr]
  exact_mod_cast hlow

theorem slot_high {r : ℤ × Equipment} (h : r ∈ chr.wornIn [17] ++ chr.wornIn highSlots) : 100 ≤ r.1 := by
  rcases List.mem_append.1 h with h | h
  · obtain ⟨i, hi, hr⟩ := slot_wornIn chr h
    rw [hr, List.mem_singleton.1 hi]
    decide
  · obtain ⟨i, hi, hr⟩ := slot_wornIn chr h
    have hhigh := (of_decide_eq_true (List.all_eq_true.1 highSlots_ne i hi)).2
    rw [hr]
    exact_mod_cast hhigh

theorem nonCosmetic_eq : chr.nonCosmetic = chr.wornIn lowSlots := by
  have hlow : (chr.wornIn lowSlots).filter (·.1 < 100) = chr.wornIn lowSlots :=
    List.filter_eq_self.2 fun r hr => decide_eq_true (slot_low chr hr)
  have hhigh : (chr.wornIn [17] ++ chr.wornIn highSlots).filter (·.1 < 100) = [] :=
    List.filter_eq_nil_iff.2 fun r hr hlt => absurd (slot_high chr hr) (not_le.2 (of_decide_eq_true hlt))
  rw [Character.nonCosmetic, wornShown_eq, List.filter_append, hlow, hhigh, List.append_nil]

theorem cosmetic_eq : chr.cosmetic = chr.wornIn [17] ++ chr.wornIn highSlots := by
  have hlow : (chr.wornIn lowSlots).filter (100 ≤ ·.1) = [] :=
    List.filter_eq_nil_iff.2 fun r hr hle => absurd (slot_low chr hr) (not_lt.2 (of_decide_eq_true hle))
  have hhigh : (chr.wornIn [17] ++ chr.wornIn highSlots).filter (100 ≤ ·.1) =
      chr.wornIn [17] ++ chr.wornIn highSlots :=
    List.filter_eq_self.2 fun r hr => decide_eq_true (slot_high chr hr)
  rw [Character.cosmetic, wornShown_eq, List.filter_append, hlow, hhigh, List.nil_append]

/-- A slot has a number that is not that of an end. -/
theorem slot_inRange {l : List (Fin equipSlotCount)} {r : ℤ × Equipment} (h : r ∈ chr.wornIn l) :
    u8.InRange r.1 ∧ r.1 ≠ 0xFF := by
  have hslot : ∀ i : Fin equipSlotCount,
      u8.InRange ((equipSlotFromCompact (UInt8.ofNat i.val)).toNat : ℤ) ∧
        ((equipSlotFromCompact (UInt8.ofNat i.val)).toNat : ℤ) ≠ 0xFF := by
    decide
  obtain ⟨i, _, hr⟩ := slot_wornIn chr h
  rw [hr]
  exact hslot i

theorem length_wornIn {l : List (Fin equipSlotCount)} (h : l.length ≤ equipSlotCount) :
    (chr.wornIn l).length < equipSlotCount + 1 :=
  Nat.lt_succ_of_le ((List.length_filterMap_le _ _).trans h)

/-- What others are shown: the first slot of the second section is in the first. -/
theorem readLook_writerCharAppearance (p : Presence) (mega : Bool) :
    readLook (bytesOf (writerCharAppearance chr p mega)) =
      some ((chr.wornIn lowSlots ++ chr.wornIn [17]).map lookPair, (chr.wornIn highSlots).map lookPair) := by
  have hlow := flatMap_wornLook chr fun i hi => (of_decide_eq_true (List.all_eq_true.1 lowSlots_ne i hi)).1
  have hhigh := flatMap_wornLook chr fun i hi => (of_decide_eq_true (List.all_eq_true.1 highSlots_ne i hi)).1
  have hbytes : bytesOf (writerCharAppearance chr p mega) =
      bytesOf [.num u8 p.gender.toNat, .num u8 chr.persona.skin.toNat, .num u32 chr.persona.face.toNat,
        .num u8 (if mega then 0 else 1), .num u32 chr.persona.hair.toNat] ++
      (bytesOf (pairWrites (chr.wornIn (lowSlots ++ [17]))) ++ (u8.encode 0xFF ++
        (bytesOf (pairWrites (chr.wornIn highSlots)) ++ (u8.encode 0xFF ++
          bytesOf [.num u32 (cosmeticWeapon chr), .num u32 0, .num u32 0, .num u32 0])))) := by
    have hpairs : pairWrites (chr.wornIn (lowSlots ++ [17])) =
        pairWrites (chr.wornIn lowSlots) ++ pairWrites (chr.wornIn [17]) := by
      rw [wornIn_append, pairWrites, List.flatMap_append]
      rfl
    rw [writerCharAppearance, finRange_eq, List.flatMap_append, List.flatMap_cons, hlow, hhigh, wornLook_last,
      hpairs]
    simp only [bytesOf_append, bytesOf_cons, bytesOf_nil, List.append_nil, List.append_assoc]
    rfl
  have hhead : (bytesOf [.num u8 p.gender.toNat, .num u8 chr.persona.skin.toNat,
      .num u32 chr.persona.face.toNat, .num u8 (if mega then 0 else 1),
      .num u32 chr.persona.hair.toNat]).length = 11 := by
    simp only [bytesOf_cons, bytesOf_nil, Write.bytes, List.length_append, Format.length_encode]
    rfl
  -- The slot in the middle, which is cosmetic, is in the first section.
  have hfirst (rest : List UInt8) := readPairs_spec (length_wornIn chr (l := lowSlots ++ [17]) (by decide +kernel))
    (fun r hr => slot_inRange chr hr) rest
  have hsecond (rest : List UInt8) := readPairs_spec (length_wornIn chr (l := highSlots) (by decide +kernel))
    (fun r hr => slot_inRange chr hr) rest
  rw [readLook, hbytes, List.drop_left' hhead]
  simp only [bind, Option.bind, hfirst, hsecond]
  rw [wornIn_append]
  rfl

theorem wornIn_eq_nil {l : List (Fin equipSlotCount)} :
    chr.wornIn l = [] ↔ ∀ i ∈ l, (chr.equippedEquipment i).isEmpty = true := by
  rw [Character.wornIn, List.filterMap_eq_nil_iff]
  refine forall₂_congr fun i _ => ?_
  rw [Option.map_eq_none_iff, Character.worn]
  cases he : (chr.equippedEquipment i).isEmpty with
  | false =>
    rw [Cell.get?_of_not_isEmpty he]
    exact iff_of_false (Option.some_ne_none _) (Bool.false_ne_true)
  | true =>
    rw [Cell.get?_of_isEmpty he]
    exact iff_of_true rfl rfl

theorem wornIn_last : chr.wornIn [17] = [] ↔ (chr.equippedEquipment 17).isEmpty = true :=
  (wornIn_eq_nil chr).trans List.forall_mem_singleton

/-- Others are shown everything in its section exactly if nothing is worn in the first of the cosmetic slots. -/
theorem lookRight_iff (p : Presence) (mega : Bool) :
    LookRight chr p mega ↔ (chr.equippedEquipment 17).isEmpty = true := by
  rw [LookRight, readLook_writerCharAppearance, nonCosmetic_eq, cosmetic_eq, ← wornIn_last, Option.some.injEq,
    Prod.mk.injEq]
  constructor
  · rintro ⟨h, _⟩
    have hlen := congrArg List.length h
    rw [List.length_map, List.length_map, List.length_append] at hlen
    exact List.eq_nil_of_length_eq_zero (by omega)
  · intro h
    rw [h, List.append_nil, List.nil_append]
    exact ⟨rfl, rfl⟩

end Look

/-! ## The login packet -/

section Field

variable {chr : Character} {p : Presence} {clock : Clock} {bs : List UInt8}

/-- All that is worn is in the first section, whatever it is. -/
theorem readWornSections_setFieldPacket (h : setFieldPacket clock chr p = .ok bs) :
    readWornSections bs = some (chr.wornShown.map (Prod.map id Equipment.toRead), []) := by
  obtain ⟨hsound, _, rfl⟩ := packetOf_eq_ok.1 h
  have hhead : (bytesOf (setFieldHead chr p)).length = setFieldHeadLength := by
    have hs : ∀ w ∈ setFieldHead chr p, w.Sound := fun w hw =>
      hsound w (List.mem_append_left _ (List.mem_append_left _ hw))
    rw [length_bytesOf hs, lengthOf_setFieldHead (sound_setFieldHead.1 hs)]
    rfl
  have hworn : ∀ w ∈ entryWrites u16 setFieldEquip chr.wornShown, w.Sound := fun w hw =>
    hsound w <| List.mem_append_left _ <| List.mem_append_right _ <| by
      rw [setFieldInventories, setFieldWorn_eq]
      simp only [List.append_assoc]
      exact List.mem_append_left _ hw
  have hread (rest : List UInt8) : readSlots u16 readEquip (maxItemCount + 1)
      (bytesOf (entryWrites u16 setFieldEquip chr.wornShown) ++ (u16.encode 0 ++ rest)) =
        some (chr.wornShown.map (Prod.map id Equipment.toRead), rest) :=
    readSlots_spec (by decide) length_wornShown (fun r hr => wornShown_slot hr)
      (fun r hr => readEquip_setFieldEquip
        (sound_equipBlock.1 (sound_of_entry hworn (List.Subset.refl _) hr)).1) rest
  have hbytes : ∃ rest, bytesOf (setFieldHead chr p ++ setFieldInventories chr ++ setFieldTail clock chr) =
      bytesOf (setFieldHead chr p) ++ (bytesOf (entryWrites u16 setFieldEquip chr.wornShown) ++
        (u16.encode 0 ++ (u16.encode 0 ++ rest))) := by
    rw [setFieldInventories, setFieldWorn_eq]
    simp only [bytesOf_append, bytesOf_cons, bytesOf_nil, List.append_nil, List.append_assoc]
    exact ⟨_, rfl⟩
  -- Both ends follow the first section, so that the second is empty.
  obtain ⟨rest, hbytes⟩ := hbytes
  rw [readWornSections, hbytes, List.drop_left' hhead]
  simp only [bind, Option.bind, hread, readSlots_nil (show u16.InRange 0 by decide)]
  rfl

/-- The login packet has everything in its section exactly if nothing cosmetic is worn. -/
theorem fieldRight_iff (h : setFieldPacket clock chr p = .ok bs) : FieldRight chr bs ↔ chr.cosmetic = [] := by
  have happend : chr.wornShown = chr.nonCosmetic ++ chr.cosmetic := by
    rw [nonCosmetic_eq, cosmetic_eq]
    exact wornShown_eq chr
  rw [FieldRight, readWornSections_setFieldPacket h, Option.some.injEq, Prod.mk.injEq, happend]
  constructor
  · rintro ⟨_, hnil⟩
    exact List.map_eq_nil_iff.1 hnil.symm
  · intro hnil
    rw [hnil, List.append_nil]
    exact ⟨rfl, rfl⟩

/-- A slot is one of the cosmetic ones. -/
theorem cosmetic_eq_nil : chr.cosmetic = [] ↔
    ∀ i : Fin equipSlotCount, equipSlotNonCosmeticCount ≤ i.val → (chr.equippedEquipment i).isEmpty = true := by
  have hslots : ∀ i : Fin equipSlotCount, i ∈ [17] ++ highSlots ↔ equipSlotNonCosmeticCount ≤ i.val := by
    decide +kernel
  rw [cosmetic_eq, ← wornIn_append, wornIn_eq_nil]
  exact forall_congr' fun i => imp_congr_left (hslots i)

/-- Everything is sent in its section, to others and to the character itself, exactly if nothing cosmetic is worn; to
    others, exactly if nothing is worn in the first of the cosmetic slots. -/
theorem sections_iff (h : setFieldPacket clock chr p = .ok bs) (mega : Bool) :
    (LookRight chr p mega ∧ FieldRight chr bs ↔ ∀ i : Fin equipSlotCount,
      equipSlotNonCosmeticCount ≤ i.val → (chr.equippedEquipment i).isEmpty = true) ∧
    (LookRight chr p mega ↔ (chr.equippedEquipment 17).isEmpty = true) := by
  rw [lookRight_iff, fieldRight_iff h, cosmetic_eq_nil]
  exact ⟨⟨fun h => h.2, fun h => ⟨h 17 (by decide), h⟩⟩, Iff.rfl⟩

end Field

/-- A character that wears a cap, and perhaps a cosmetic one. -/
def capped (cosmetic : Bool) : Character :=
  { (default : Character) with
    equippedEquipment := fun i =>
      if i = 0 then .full (.plain 1002000)
      else if i = 17 ∧ cosmetic then .full (.plain 1000000)
      else ⟨true, default⟩ }

theorem setFieldPacket_capped (cosmetic : Bool) :
    ∃ bs, setFieldPacket ⟨0, fun _ => 0⟩ (capped cosmetic) default = .ok bs := by
  cases cosmetic <;> refine ⟨_, packetOf_eq_ok.2 ⟨?_, ?_, rfl⟩⟩ <;> decide +kernel

/-- A cap is sent in the first section. -/
theorem sections_cap : ∃ bs, setFieldPacket ⟨0, fun _ => 0⟩ (capped false) default = .ok bs ∧
    LookRight (capped false) default false ∧ FieldRight (capped false) bs := by
  obtain ⟨bs, hbs⟩ := setFieldPacket_capped false
  exact ⟨bs, hbs, (sections_iff hbs false).1.2 (by decide +kernel)⟩

/-- So is a cosmetic one. -/
theorem sections_cosmeticCap : ¬LookRight (capped true) default false ∧
    ∃ bs, setFieldPacket ⟨0, fun _ => 0⟩ (capped true) default = .ok bs ∧ ¬FieldRight (capped true) bs := by
  obtain ⟨bs, hbs⟩ := setFieldPacket_capped true
  refine ⟨fun h => absurd ((lookRight_iff _ _ _).1 h) (by decide +kernel), bs, hbs, fun h => ?_⟩
  have hnil := cosmetic_eq_nil.1 ((fieldRight_iff hbs).1 h) 17 (by decide)
  exact absurd hnil (by decide +kernel)

end Syrup
