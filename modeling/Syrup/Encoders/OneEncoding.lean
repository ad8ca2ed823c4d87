import Syrup.Encoders.Character
import Syrup.Encoders.Items

/-!
# One item, one encoding

An item should be shown alike whether it has just been gained, is in the storage, or comes with the
character at login, and the packet that is sent at login should have all items in it.

* `equip_agrees_iff`, `stack_agrees_iff`: for which items the functions write the same;
* `readSetField_setFieldPacket`: what a program that reads the login packet finds in it, all items but
  those of the cash inventory;
* `oneEncoding_iff`, with a counterexample to each part.
-/

namespace Syrup

open Wire

/-! ## The same bytes -/

/-- All functions that write out a piece of equipment write the same. -/
def EquipAgrees (e : Equipment) : Prop :=
  bytesOf (modifyItemsEquip e) = bytesOf (setFieldEquip e) ∧
    bytesOf (openStorageEquip e) = bytesOf (setFieldEquip e)

/-- All functions that write out a stack of an inventory write the same. -/
def StackAgrees (k : Fin inventoryCount) (it : InventoryItem) : Prop :=
  bytesOf (modifyItemsStack it) = bytesOf (setFieldStack k it) ∧
    bytesOf (openStorageStack it) = bytesOf (setFieldStack k it)

/-- Numbers in the same place are the same. -/
theorem bytesOf_num_inj {f : Format} {v v' : ℤ} {ws ws' : List Write}
    (h : bytesOf (.num f v :: ws) = bytesOf (.num f v' :: ws')) :
    f.encode v = f.encode v' ∧ bytesOf ws = bytesOf ws' :=
  List.append_inj h ((Format.length_encode v).trans (Format.length_encode v').symm)

/-- Numbers that are in range are told from each other. -/
theorem encode_inj {f : Format} {v v' : ℤ} (hv : f.InRange v) (hv' : f.InRange v')
    (h : f.encode v = f.encode v') : v = v' := by
  rw [← Format.decode_encode hv, ← Format.decode_encode hv', h]

/-- A piece of equipment is written alike exactly if it is neither a cash item nor has had a scroll
    applied to it. -/
theorem equip_agrees_iff (e : Equipment) : EquipAgrees e ↔ e.cash = false ∧ e.level = 0 := by
  refine ⟨fun ⟨h, _⟩ => ?_, fun ⟨hcash, hlevel⟩ => ⟨?_, rfl⟩⟩
  · obtain ⟨_, h⟩ := bytesOf_num_inj h
    obtain ⟨_, h⟩ := bytesOf_num_inj h
    obtain ⟨hcash, h⟩ := bytesOf_num_inj h
    obtain ⟨_, h⟩ := bytesOf_num_inj h
    obtain ⟨_, h⟩ := bytesOf_num_inj h
    obtain ⟨hlevel, _⟩ := bytesOf_num_inj h
    refine ⟨?_, Int8.toInt_inj.1 ?_⟩
    · have hzero : (e.cash.toNat : ℤ) = 0 :=
        encode_inj (by cases e.cash <;> decide) (by decide) hcash
      cases hc : e.cash with
      | false => rfl
      | true => rw [hc] at hzero; cases hzero
    · -- The level is written as an unsigned number, in as many bytes.
      have hrange : i8.InRange e.level.toInt := by
        have hle := e.level.le_toInt
        have hlt := e.level.toInt_lt
        change -256 ≤ e.level.toInt * 2 ∧ e.level.toInt * 2 < 256
        omega
      exact encode_inj (f := i8) hrange (by decide) hlevel
  · rw [modifyItemsEquip, hcash, hlevel]
    rfl

/-- A stack is written alike exactly if it is not in the cash inventory and, if it can be recharged, is in
    the use inventory. -/
theorem stack_agrees_iff (k : Fin inventoryCount) (it : InventoryItem) :
    StackAgrees k it ↔
      k ≠ 3 ∧ (itemIsRechargeable it.item.itemId = true → k = useInventory) := by
  have hboth : StackAgrees k it ↔
      bytesOf (stackBlock true it) = bytesOf (setFieldStack k it) := and_self_iff
  rw [hboth, setFieldStack]
  split
  · rename_i hk
    refine iff_of_false (fun h => ?_) fun h => h.1 hk
    exact absurd (congrArg List.length h) (Nat.succ_ne_zero _)
  · rename_i hk
    rw [stackBlock, stackBlock, bytesOf_append, bytesOf_append, List.append_cancel_left_eq]
    cases itemIsRechargeable it.item.itemId with
    | false => simp [hk]
    | true =>
      by_cases huse : k = useInventory
      · simp [huse]
        decide
      · simp only [huse, decide_false]
        exact iff_of_false (by decide) (by simp)

/-! ## Reading the login packet -/

/-- What is read of an item: of a stack its quantity, and of a piece of equipment its slots and
    bonuses. -/
structure ReadItem where
  itemId : ℤ
  numbers : List ℤ
  owner : List UInt8
  flags : ℤ
  deriving DecidableEq

/-- Some numbers. -/
def readAll : List Format → List UInt8 → Option (List ℤ × List UInt8)
  | [], bs => some ([], bs)
  | f :: fs, bs => do
    let (v, bs) ← f.read bs
    let (vs, bs) ← readAll fs bs
    return (v :: vs, bs)

/-- A string with its length. -/
def readString (bs : List UInt8) : Option (List UInt8 × List UInt8) := do
  let (size, bs) ← u16.read bs
  if size.toNat ≤ bs.length then some (bs.take size.toNat, bs.drop size.toNat) else none

/-- A piece of equipment. -/
def readEquip (bs : List UInt8) : Option (ReadItem × List UInt8) := do
  let (head, bs) ← readAll [u8, u32, u8, u64, i8, u8] bs
  let (bonuses, bs) ← readAll (.replicate 15 i16) bs
  let (owner, bs) ← readString bs
  let (tail, bs) ← readAll [u16, u8, u8, i32, u32, u64, u64, i32] bs
  match head, tail with
  | [1, itemId, _, _, slots, _], flags :: _ => some (⟨itemId, slots :: bonuses, owner, flags⟩, bs)
  | _, _ => none

/-- A stack, with what follows if it can be recharged. -/
def readStack (recharge : Bool) (bs : List UInt8) : Option (ReadItem × List UInt8) := do
  let (head, bs) ← readAll [u8, u32, u8, u64, i16] bs
  let (owner, bs) ← readString bs
  let (flags, bs) ← u16.read bs
  match head with
  | [2, itemId, _, _, quantity] =>
    let item : ReadItem := ⟨itemId, [quantity], owner, flags⟩
    if recharge && itemIsRechargeable (UInt32.ofNat itemId.toNat) then do
      let (_, bs) ← readAll [u32, u32] bs
      some (item, bs)
    else some (item, bs)
  | _ => none

/-- Items with the numbers of their slots, at most `n`, up to a slot of number `0`. -/
def readSlots (format : Format) (read : List UInt8 → Option (ReadItem × List UInt8)) :
    ℕ → List UInt8 → Option (List (ℤ × ReadItem) × List UInt8)
  | 0, _ => none
  | n + 1, bs => do
    let (slot, bs) ← format.read bs
    if slot = 0 then some ([], bs)
    else
      let (item, bs) ← read bs
      let (items, bs) ← readSlots format read n bs
      some ((slot, item) :: items, bs)

/-- What is read of the inventories of a character. -/
structure ReadInventories where
  worn : List (ℤ × ReadItem)
  equipment : List (ℤ × ReadItem)
  inventory : Fin inventoryCount → List (ℤ × ReadItem)
  deriving DecidableEq

/-- The length of what comes before the inventories. -/
def setFieldHeadLength : ℕ := 143

/-- What a program that reads a login packet finds in it. There are two lists of what is worn, and after
    that of the carried equipment there is one more, all of which end with a `0`. -/
def readSetField (bs : List UInt8) : Option ReadInventories := do
  let bs := bs.drop setFieldHeadLength
  let (worn, bs) ← readSlots u16 readEquip (maxItemCount + 1) bs
  let (cosmetic, bs) ← readSlots u16 readEquip (maxItemCount + 1) bs
  let (equipment, bs) ← readSlots u16 readEquip (maxItemCount + 1) bs
  let (more, bs) ← readSlots u16 readEquip (maxItemCount + 1) bs
  let (use, bs) ← readSlots u8 (readStack true) (maxItemCount + 1) bs
  let (setUp, bs) ← readSlots u8 (readStack false) (maxItemCount + 1) bs
  let (etc, bs) ← readSlots u8 (readStack false) (maxItemCount + 1) bs
  let (cash, _) ← readSlots u8 (readStack false) (maxItemCount + 1) bs
  return ⟨worn ++ cosmetic, equipment ++ more, ![use, setUp, etc, cash]⟩

/-! ## What there is to be read -/

/-- The bytes of the name of an owner. -/
def Item.ownerBytes (item : Item) : List UInt8 := item.owner.toList.take item.ownerLength.toNat

/-- The flags that are written, which are the lower half of them. -/
def Item.sentFlags (item : Item) : ℤ := item.flags.toNat % 65536

/-- What there is to be read of a piece of equipment. -/
def Equipment.toRead (e : Equipment) : ReadItem :=
  ⟨e.item.itemId.toNat, e.slots.toInt :: e.bonuses.map Int16.toInt, e.item.ownerBytes,
    e.item.sentFlags⟩

/-- What there is to be read of a stack. -/
def InventoryItem.toRead (it : InventoryItem) : ReadItem :=
  ⟨it.item.itemId.toNat, [it.quantity.toInt], it.item.ownerBytes, it.item.sentFlags⟩

/-- What is in an inventory, with the numbers of the slots. -/
def Inventory.entries {α : Type} (inv : Inventory α) : List (ℤ × α) :=
  inv.slots.filterMap fun i => (inv.items i).get?.map fun a => (i.val + 1, a)

/-- What is worn, with the numbers of the slots. -/
def Character.wornShown (chr : Character) : List (ℤ × Equipment) :=
  (List.finRange equipSlotCount).filterMap fun i =>
    (chr.worn i).map fun e => ((equipSlotFromCompact (UInt8.ofNat i.val)).toNat, e)

/-- All that there is to be read of a character. -/
def Character.toRead (chr : Character) : ReadInventories where
  worn := chr.wornShown.map (Prod.map id Equipment.toRead)
  equipment := chr.equipmentInventory.entries.map (Prod.map id Equipment.toRead)
  inventory k := (chr.inventory k).entries.map (Prod.map id InventoryItem.toRead)

/-! ## Reading what has been written -/

/-- Numbers that are read as they have been written. -/
theorem readAll_bytesOf {nums : List (Format × ℤ)} (h : ∀ r ∈ nums, r.1.InRange r.2)
    (rest : List UInt8) :
    readAll (nums.map Prod.fst) (bytesOf (nums.map fun r => .num r.1 r.2) ++ rest) =
      some (nums.map Prod.snd, rest) := by
  induction nums with
  | nil => rfl
  | cons r nums ih =>
    obtain ⟨hr, hnums⟩ := List.forall_mem_cons.1 h
    rw [List.map_cons, List.map_cons, List.map_cons, bytesOf_cons, Write.bytes, List.append_assoc,
      readAll, Format.read_encode hr]
    simp only [bind, Option.bind, ih hnums]
    rfl

theorem readString_writeOwner {item : Item} (h : item.Sound) (rest : List UInt8) :
    readString ((writeOwner item).bytes ++ rest) = some (item.ownerBytes, rest) := by
  have hsize : u16.InRange (item.ownerLength.toUInt16.toNat : ℤ) :=
    ⟨by positivity, by exact_mod_cast item.ownerLength.toUInt16.toNat_lt⟩
  have hlen : (item.owner.toList.take item.ownerLength.toNat).length = item.ownerLength.toNat := by
    rw [List.length_take, Vector.length_toList]
    exact min_eq_left h
  rw [writeOwner, Write.bytes, List.append_assoc, readString, Format.read_encode hsize]
  simp only [bind, Option.bind, Int.toNat_natCast, UInt8.toNat_toUInt16]
  rw [if_pos (by rw [List.length_append, hlen]; omega), List.take_left' hlen, List.drop_left' hlen]
  rfl

/-- The flags are cut off where they are written. -/
theorem encode_flags (item : Item) : u16.encode item.flags.toNat = u16.encode item.sentFlags := by
  have hmod : (item.flags.toNat : ℤ) % 256 ^ u16.width = item.sentFlags % 256 ^ u16.width :=
    (Int.emod_emod_of_dvd _ (dvd_refl _)).symm
  rw [Format.encode, Format.encode, hmod]

theorem inRange_sentFlags (item : Item) : u16.InRange item.sentFlags :=
  ⟨Int.emod_nonneg _ (by decide), Int.emod_lt_of_pos _ (by decide)⟩

theorem inRange_u32 (n : UInt32) : u32.InRange n.toNat :=
  ⟨by positivity, by exact_mod_cast n.toNat_lt⟩

theorem inRange_i16 (n : Int16) : i16.InRange n.toInt := by
  have hle := n.le_toInt
  have hlt := n.toInt_lt
  change -65536 ≤ n.toInt * 2 ∧ n.toInt * 2 < 65536
  omega

theorem inRange_i8 (n : Int8) : i8.InRange n.toInt := by
  have hle := n.le_toInt
  have hlt := n.toInt_lt
  change -256 ≤ n.toInt * 2 ∧ n.toInt * 2 < 256
  omega

/-- A piece of equipment is read. -/
theorem readEquip_setFieldEquip {e : Equipment} (h : e.item.Sound) (rest : List UInt8) :
    readEquip (bytesOf (setFieldEquip e) ++ rest) = some (e.toRead, rest) := by
  let head : List (Format × ℤ) :=
    [(u8, 1), (u32, e.item.itemId.toNat), (u8, 0), (u64, defaultTime), (i8, e.slots.toInt), (u8, 0)]
  let bonuses : List (Format × ℤ) := e.bonuses.map fun n => (i16, n.toInt)
  let tail : List (Format × ℤ) :=
    [(u16, e.item.sentFlags), (u8, 0), (u8, 1), (i32, 0), (u32, 0), (u64, 0), (u64, zeroTime),
      (i32, -1)]
  have hbytes : bytesOf (setFieldEquip e) ++ rest =
      bytesOf (head.map fun r => .num r.1 r.2) ++ (bytesOf (bonuses.map fun r => .num r.1 r.2) ++
        ((writeOwner e.item).bytes ++ (bytesOf (tail.map fun r => .num r.1 r.2) ++ rest))) := by
    have hflags : (Write.num u16 e.item.flags.toNat).bytes = (Write.num u16 e.item.sentFlags).bytes :=
      encode_flags e.item
    simp only [setFieldEquip, equipBlock, equipLevel, bytesOf_append, bytesOf_cons, bytesOf_nil, hflags,
      List.append_nil, List.append_assoc, List.map_map, head, bonuses, tail, List.map_cons, List.map_nil]
    rfl
  have hhead : ∀ r ∈ head, r.1.InRange r.2 := by
    simp only [head, List.forall_mem_cons, inRange_u32, inRange_i8, List.not_mem_nil,
      false_implies, implies_true, and_true, true_and]
    decide
  have hbonuses : ∀ r ∈ bonuses, r.1.InRange r.2 := by
    simp only [bonuses, List.forall_mem_map, inRange_i16, implies_true]
  have htail : ∀ r ∈ tail, r.1.InRange r.2 := by
    simp only [tail, List.forall_mem_cons, inRange_sentFlags, List.not_mem_nil, false_implies,
      implies_true, and_true, true_and]
    decide
  have hmap : bonuses.map Prod.snd = e.bonuses.map Int16.toInt := by
    rw [List.map_map]
    rfl
  have hreadHead (bs : List UInt8) :
      readAll [u8, u32, u8, u64, i8, u8] (bytesOf (head.map fun r => .num r.1 r.2) ++ bs) =
        some ([1, (e.item.itemId.toNat : ℤ), 0, defaultTime, e.slots.toInt, 0], bs) :=
    readAll_bytesOf hhead bs
  have hreadBonuses (bs : List UInt8) :
      readAll (.replicate 15 i16) (bytesOf (bonuses.map fun r => .num r.1 r.2) ++ bs) =
        some (e.bonuses.map Int16.toInt, bs) :=
    hmap ▸ readAll_bytesOf hbonuses bs
  have hreadTail (bs : List UInt8) : readAll [u16, u8, u8, i32, u32, u64, u64, i32]
      (bytesOf (tail.map fun r => .num r.1 r.2) ++ bs) =
        some ([e.item.sentFlags, 0, 1, 0, 0, 0, zeroTime, -1], bs) :=
    readAll_bytesOf htail bs
  simp only [hbytes, readEquip, bind, Option.bind, hreadHead, hreadBonuses, hreadTail,
    readString_writeOwner h]
  rfl

/-- A stack is read, in an inventory for which `set_field_packet` has a loop. -/
theorem readStack_setFieldStack {k : Fin inventoryCount} (hk : k ≠ 3) {it : InventoryItem}
    (h : it.item.Sound) (rest : List UInt8) :
    readStack (k = useInventory) (bytesOf (setFieldStack k it) ++ rest) = some (it.toRead, rest) := by
  let head : List (Format × ℤ) :=
    [(u8, 2), (u32, it.item.itemId.toNat), (u8, 0), (u64, defaultTime), (i16, it.quantity.toInt)]
  have hhead : ∀ r ∈ head, r.1.InRange r.2 := by
    simp only [head, List.forall_mem_cons, inRange_u32, inRange_i16, List.not_mem_nil,
      false_implies, implies_true, and_true, true_and]
    decide
  have hid : UInt32.ofNat (it.item.itemId.toNat : ℤ).toNat = it.item.itemId := by
    rw [Int.toNat_natCast, UInt32.ofNat_toNat]
  have hflags : (Write.num u16 it.item.flags.toNat).bytes = u16.encode it.item.sentFlags :=
    encode_flags it.item
  let more : List Write :=
    if (k = useInventory : Bool) && itemIsRechargeable it.item.itemId then
      [.num u32 2, .array 4 [0x54, 0x00, 0x00, 0x34]]
    else []
  have hbytes : bytesOf (setFieldStack k it) ++ rest =
      bytesOf (head.map fun r => .num r.1 r.2) ++ ((writeOwner it.item).bytes ++
        (u16.encode it.item.sentFlags ++ (bytesOf more ++ rest))) := by
    rw [setFieldStack, if_neg hk, stackBlock, bytesOf_append]
    simp only [bytesOf_cons, bytesOf_nil, hflags, List.append_nil, List.append_assoc, head,
      List.map_cons, List.map_nil]
    rfl
  have hreadHead (bs : List UInt8) :
      readAll [u8, u32, u8, u64, i16] (bytesOf (head.map fun r => .num r.1 r.2) ++ bs) =
        some ([2, (it.item.itemId.toNat : ℤ), 0, defaultTime, it.quantity.toInt], bs) :=
    readAll_bytesOf hhead bs
  simp only [hbytes, readStack, bind, Option.bind, hreadHead, readString_writeOwner h,
    Format.read_encode (inRange_sentFlags it.item), hid, more]
  split <;> rfl

/-- Slots are read until their end. -/
theorem readSlots_spec {α : Type} {format : Format} (hzero : format.InRange 0)
    {read : List UInt8 → Option (ReadItem × List UInt8)} {block : α → List Write}
    {toRead : α → ReadItem} {l : List (ℤ × α)} {n : ℕ} (hn : l.length < n)
    (hslot : ∀ r ∈ l, format.InRange r.1 ∧ r.1 ≠ 0)
    (hread : ∀ r ∈ l, ∀ rest, read (bytesOf (block r.2) ++ rest) = some (toRead r.2, rest))
    (rest : List UInt8) :
    readSlots format read n (bytesOf (l.flatMap fun r => .num format r.1 :: block r.2) ++
        (format.encode 0 ++ rest)) =
      some (l.map (Prod.map id toRead), rest) := by
  induction l generalizing n with
  | nil =>
    obtain ⟨n, rfl⟩ := Nat.exists_eq_succ_of_ne_zero (Nat.ne_of_gt hn)
    rw [List.flatMap_nil, bytesOf_nil, List.nil_append, readSlots, Format.read_encode hzero]
    rfl
  | cons r l ih =>
    obtain ⟨n, rfl⟩ := Nat.exists_eq_succ_of_ne_zero (Nat.ne_of_gt (Nat.zero_lt_of_lt hn))
    obtain ⟨hr, hslot⟩ := List.forall_mem_cons.1 hslot
    obtain ⟨hblock, hread⟩ := List.forall_mem_cons.1 hread
    have hrest := ih (Nat.lt_of_succ_lt_succ hn) hslot hread
    rw [List.flatMap_cons, bytesOf_append, bytesOf_cons, Write.bytes, List.append_assoc,
      List.append_assoc, readSlots, Format.read_encode hr.1]
    change (if r.1 = 0 then _ else _) = _
    rw [if_neg hr.2]
    change (read _).bind _ = _
    rw [hblock]
    change (readSlots format read n _).bind _ = _
    rw [hrest]
    rfl

/-! ## The whole packet -/

section Packet

variable {chr : Character} {p : Presence} {clock : Clock}

/-- The writes of some entries. -/
def entryWrites {α : Type} (format : Format) (block : α → List Write) (l : List (ℤ × α)) :
    List Write :=
  l.flatMap fun r => .num format r.1 :: block r.2

/-- Going through what is there, or through the slots without those that are empty. -/
theorem entryWrites_filterMap {ι α : Type} {format : Format} {block : α → List Write}
    {entry : ι → Option (ℤ × α)} {writes : ι → List Write}
    (h : ∀ i, writes i = (entry i).elim [] fun r => .num format r.1 :: block r.2) (l : List ι) :
    l.flatMap writes = entryWrites format block (l.filterMap entry) := by
  induction l with
  | nil => rfl
  | cons i l ih =>
    rw [List.flatMap_cons, h, ih, List.filterMap_cons]
    cases entry i with
    | none => rfl
    | some r => rfl

theorem setFieldSlots_eq {α : Type} (format : Format) (block : α → List Write)
    (inv : Inventory α) :
    setFieldSlots format block inv = entryWrites format block inv.entries :=
  entryWrites_filterMap (fun i => by
    cases he : (inv.items i).isEmpty with
    | false =>
      rw [Cell.get?_of_not_isEmpty he]
      rfl
    | true =>
      rw [Cell.get?_of_isEmpty he]
      rfl) inv.slots

theorem setFieldWorn_eq : setFieldWorn chr = entryWrites u16 setFieldEquip chr.wornShown :=
  entryWrites_filterMap (fun i => by
    rw [Character.worn]
    cases he : (chr.equippedEquipment i).isEmpty with
    | false =>
      rw [Cell.get?_of_not_isEmpty he]
      rfl
    | true =>
      rw [Cell.get?_of_isEmpty he]
      rfl) (List.finRange equipSlotCount)

theorem length_entries {α : Type} (inv : Inventory α) : inv.entries.length < maxItemCount + 1 :=
  Nat.lt_succ_of_le <| (List.length_filterMap_le _ _).trans <|
    (List.length_filter_le _ _).trans_eq (List.length_finRange)

theorem entries_slot {α : Type} {inv : Inventory α} {r : ℤ × α} (h : r ∈ inv.entries) :
    1 ≤ r.1 ∧ r.1 ≤ 252 := by
  obtain ⟨i, _, hi⟩ := List.mem_filterMap.1 h
  obtain ⟨a, _, rfl⟩ := Option.map_eq_some_iff.1 hi
  have hlt : i.val < 252 := i.isLt
  exact ⟨by push_cast; omega, by push_cast; omega⟩

theorem length_wornShown : chr.wornShown.length < maxItemCount + 1 :=
  Nat.lt_succ_of_le <| (List.length_filterMap_le _ _).trans <|
    (List.length_finRange).trans_le (by decide)

theorem wornShown_slot {r : ℤ × Equipment} (h : r ∈ chr.wornShown) :
    u16.InRange r.1 ∧ r.1 ≠ 0 := by
  obtain ⟨i, _, hi⟩ := List.mem_filterMap.1 h
  obtain ⟨e, _, rfl⟩ := Option.map_eq_some_iff.1 hi
  have hslot : ∀ i : Fin equipSlotCount,
      u16.InRange ((equipSlotFromCompact (UInt8.ofNat i.val)).toNat : ℤ) ∧
        ((equipSlotFromCompact (UInt8.ofNat i.val)).toNat : ℤ) ≠ 0 := by
    decide
  exact hslot i

/-- Where entries can be written, so can what is in each. -/
theorem sound_of_entry {α : Type} {format : Format} {block : α → List Write} {l : List (ℤ × α)}
    {ws : List Write} (hs : ∀ w ∈ ws, w.Sound) (hsub : entryWrites format block l ⊆ ws)
    {r : ℤ × α} (hr : r ∈ l) : ∀ w ∈ block r.2, w.Sound := fun w hw =>
  hs w (hsub (List.mem_flatMap.2 ⟨r, hr, List.mem_cons_of_mem _ hw⟩))

/-- A list of entries and its end are read. -/
theorem readSlots_entries {α : Type} {read : List UInt8 → Option (ReadItem × List UInt8)}
    {block : α → List Write} {toRead : α → ReadItem} {inv : Inventory α} {format : Format}
    (hformat : ∀ n : ℤ, 0 ≤ n → n ≤ 252 → format.InRange n)
    (hread : ∀ r ∈ inv.entries, ∀ rest,
      read (bytesOf (block r.2) ++ rest) = some (toRead r.2, rest)) (rest : List UInt8) :
    readSlots format read (maxItemCount + 1)
        (bytesOf (setFieldSlots format block inv) ++ (format.encode 0 ++ rest)) =
      some (inv.entries.map (Prod.map id toRead), rest) := by
  rw [setFieldSlots_eq]
  refine readSlots_spec (hformat 0 (by decide) (by decide)) (length_entries inv) (fun r hr => ?_)
    hread rest
  obtain ⟨hle, hlt⟩ := entries_slot hr
  exact ⟨hformat r.1 (by omega) hlt, by omega⟩

/-- The end of a list in which there is nothing. -/
theorem readSlots_nil {format : Format} (hzero : format.InRange 0)
    (read : List UInt8 → Option (ReadItem × List UInt8)) (rest : List UInt8) :
    readSlots format read (maxItemCount + 1) (format.encode 0 ++ rest) = some ([], rest) := by
  rw [readSlots, Format.read_encode hzero]
  rfl

/-- All is read but the cash inventory. -/
theorem readSetField_setFieldPacket {bs : List UInt8}
    (h : setFieldPacket clock chr p = .ok bs) :
    readSetField bs = some { chr.toRead with
      inventory := Function.update chr.toRead.inventory 3 [] } := by
  obtain ⟨hsound, _, rfl⟩ := packetOf_eq_ok.1 h
  have hhead : (bytesOf (setFieldHead chr p)).length = setFieldHeadLength := by
    have hs : ∀ w ∈ setFieldHead chr p, w.Sound := fun w hw =>
      hsound w (List.mem_append_left _ (List.mem_append_left _ hw))
    rw [length_bytesOf hs, lengthOf_setFieldHead (sound_setFieldHead.1 hs)]
    rfl
  have hinv : ∀ w ∈ setFieldInventories chr, w.Sound := fun w hw =>
    hsound w (List.mem_append_left _ (List.mem_append_right _ hw))
  simp only [setFieldInventories, List.forall_mem_append, setFieldInventory, setFieldWorn_eq] at hinv
  obtain ⟨⟨⟨⟨⟨⟨⟨hworn, _⟩, hequip⟩, _⟩, huse, _⟩, hsetUp, _⟩, hetc, _⟩, _⟩ := hinv
  rw [if_neg (by decide), setFieldSlots_eq] at huse hsetUp hetc
  rw [setFieldSlots_eq] at hequip
  have h16 (n : ℤ) (h0 : 0 ≤ n) (hn : n ≤ 252) : u16.InRange n := by
    change 0 ≤ n ∧ n < 65536
    omega
  have h8 (n : ℤ) (h0 : 0 ≤ n) (hn : n ≤ 252) : u8.InRange n := by
    change 0 ≤ n ∧ n < 256
    omega
  have hstack (k : Fin inventoryCount) (hk : k ≠ 3)
      (hs : ∀ w ∈ entryWrites u8 (setFieldStack k) (chr.inventory k).entries, w.Sound)
      (rest : List UInt8) :
      readSlots u8 (readStack (k = useInventory)) (maxItemCount + 1)
          (bytesOf (setFieldSlots u8 (setFieldStack k) (chr.inventory k)) ++ (u8.encode 0 ++ rest)) =
        some (chr.toRead.inventory k, rest) :=
    readSlots_entries h8 (fun r hr => readStack_setFieldStack hk (by
      have hblock := sound_of_entry hs (List.Subset.refl _) hr
      rw [setFieldStack, if_neg hk] at hblock
      exact sound_stackBlock.1 hblock)) rest
  have hwornRead (rest : List UInt8) :
      readSlots u16 readEquip (maxItemCount + 1)
          (bytesOf (setFieldWorn chr) ++ (u16.encode 0 ++ rest)) =
        some (chr.toRead.worn, rest) := by
    rw [setFieldWorn_eq]
    exact readSlots_spec (by decide) length_wornShown (fun r hr => wornShown_slot hr)
      (fun r hr => readEquip_setFieldEquip
        (sound_equipBlock.1 (sound_of_entry hworn (List.Subset.refl _) hr)).1) rest
  have hequipRead (rest : List UInt8) :
      readSlots u16 readEquip (maxItemCount + 1)
          (bytesOf (setFieldSlots u16 setFieldEquip chr.equipmentInventory) ++
            (u16.encode 0 ++ rest)) =
        some (chr.toRead.equipment, rest) :=
    readSlots_entries h16 (fun r hr => readEquip_setFieldEquip
      (sound_equipBlock.1 (sound_of_entry hequip (List.Subset.refl _) hr)).1) rest
  have hbytes (tail : List Write) :
      bytesOf (setFieldHead chr p ++ setFieldInventories chr ++ tail) =
        bytesOf (setFieldHead chr p) ++ (bytesOf (setFieldWorn chr) ++ (u16.encode 0 ++
          (u16.encode 0 ++ (bytesOf (setFieldSlots u16 setFieldEquip chr.equipmentInventory) ++
          (u16.encode 0 ++ (u16.encode 0 ++
          (bytesOf (setFieldSlots u8 (setFieldStack 0) (chr.inventory 0)) ++ (u8.encode 0 ++
          (bytesOf (setFieldSlots u8 (setFieldStack 1) (chr.inventory 1)) ++ (u8.encode 0 ++
          (bytesOf (setFieldSlots u8 (setFieldStack 2) (chr.inventory 2)) ++ (u8.encode 0 ++
          (u8.encode 0 ++ bytesOf tail))))))))))))) := by
    simp only [setFieldInventories, setFieldInventory, bytesOf_append, bytesOf_cons, bytesOf_nil,
      List.append_nil, List.append_assoc]
    rfl
  have huseRead (rest : List UInt8) : readSlots u8 (readStack true) (maxItemCount + 1) _ = _ :=
    hstack 0 (by decide) huse rest
  have hsetUpRead (rest : List UInt8) : readSlots u8 (readStack false) (maxItemCount + 1) _ = _ :=
    hstack 1 (by decide) hsetUp rest
  have hetcRead (rest : List UInt8) : readSlots u8 (readStack false) (maxItemCount + 1) _ = _ :=
    hstack 2 (by decide) hetc rest
  simp only [readSetField, hbytes, List.drop_left' hhead, bind, Option.bind, hwornRead, hequipRead,
    readSlots_nil (h16 0 (by decide) (by decide)), readSlots_nil (h8 0 (by decide) (by decide)),
    huseRead, hsetUpRead, hetcRead, List.append_nil]
  refine congrArg some (congrArg (ReadInventories.mk _ _) (funext fun k => ?_))
  fin_cases k <;> rfl

end Packet

/-! ## All of it -/

theorem entries_eq_nil {α : Type} {inv : Inventory α} :
    inv.entries = [] ↔ ∀ i : Fin maxItemCount, inv.view i = none := by
  rw [Inventory.entries, List.filterMap_eq_nil_iff]
  refine forall_congr' fun i => ?_
  rw [Inventory.mem_slots, Option.map_eq_none_iff, Inventory.view]
  split
  · rename_i hlt
    exact ⟨fun h => h hlt, fun h _ => h⟩
  · rename_i hlt
    exact ⟨fun _ => rfl, fun _ hlt' => absurd hlt' hlt⟩

/-- An item is written alike by all functions exactly if it is a piece of equipment that is no cash item and
    has had no scroll applied to it, or a stack outside the cash inventory that, if it can be recharged,
    is in the use inventory; and all items are read in the login packet exactly if there are none in the
    cash inventory. -/
theorem oneEncoding_iff {clock : Clock} {chr : Character} {p : Presence} {bs : List UInt8}
    (h : setFieldPacket clock chr p = .ok bs) :
    (∀ e, EquipAgrees e ↔ e.cash = false ∧ e.level = 0) ∧
      (∀ k it, StackAgrees k it ↔
        k ≠ 3 ∧ (itemIsRechargeable it.item.itemId = true → k = useInventory)) ∧
      (readSetField bs = some chr.toRead ↔ ∀ i, (chr.inventory 3).view i = none) := by
  refine ⟨equip_agrees_iff, stack_agrees_iff, ?_⟩
  have hcash : chr.toRead.inventory 3 = [] ↔ ∀ i, (chr.inventory 3).view i = none :=
    List.map_eq_nil_iff.trans entries_eq_nil
  rw [readSetField_setFieldPacket h, ← hcash, Option.some.injEq]
  constructor
  · intro heq
    have h3 := congrFun (congrArg ReadInventories.inventory heq) 3
    rw [← h3]
    exact Function.update_self (3 : Fin inventoryCount) [] chr.toRead.inventory
  · intro hnil
    rw [← hnil, Function.update_eq_self]

/-- A character with a throwing star and an item of the cash shop. -/
def cashHolder : Character :=
  ((default : Character).setItem useInventory 0 (.full (.plain 2070000 500))).setItem 3 0
    (.full (.plain 5150000 1))

theorem setFieldPacket_cashHolder :
    ∃ bs, setFieldPacket ⟨0, fun _ => 0⟩ cashHolder default = .ok bs := by
  refine ⟨_, packetOf_eq_ok.2 ⟨?_, ?_, rfl⟩⟩ <;> decide +kernel

/-- The star is read with its quantity, but the packet has not all that the character holds. -/
theorem oneEncoding_iff_cash : ∃ bs, setFieldPacket ⟨0, fun _ => 0⟩ cashHolder default = .ok bs ∧
    (readSetField bs = some cashHolder.toRead ↔ ∀ i, (cashHolder.inventory 3).view i = none) := by
  obtain ⟨bs, hbs⟩ := setFieldPacket_cashHolder
  exact ⟨bs, hbs, (oneEncoding_iff hbs).2.2⟩

/-- A piece of equipment to which a scroll has been applied is written with and without it, and an item
    in the cash inventory is not in the login packet. -/
theorem oneEncoding_fails : ¬EquipAgrees { Equipment.plain 1302000 with level := 1 } ∧
    ∃ bs, setFieldPacket ⟨0, fun _ => 0⟩ cashHolder default = .ok bs ∧
      readSetField bs ≠ some cashHolder.toRead := by
  refine ⟨fun h => absurd ((equip_agrees_iff _).1 h).2 (by decide), ?_⟩
  obtain ⟨bs, hbs⟩ := setFieldPacket_cashHolder
  have hheld : (cashHolder.toRead.inventory 3).length = 1 := by
    decide +kernel
  refine ⟨bs, hbs, fun hread => ?_⟩
  rw [readSetField_setFieldPacket hbs, Option.some.injEq] at hread
  have h3 : [] = cashHolder.toRead.inventory 3 :=
    congrFun (congrArg ReadInventories.inventory hread) 3
  rw [← h3] at hheld
  cases hheld

end Syrup
