import Syrup.Client.GainItems
import Syrup.Encoders.Character
import Syrup.Encoders.Items
import Syrup.Holdings

/-!
# Packets and their buffers

Every function of `packet.c` writes into a buffer whose size has been worked out by hand. Here it is
worked out how long the packets are, and so which of them are written without a failing assertion.

* `fills_openStoragePacket`, `fills_addPlayerToMapPacket`, `fills_updateCharLookPacket`: always;
* `fills_setFieldPacket`, `fills_modifyItemsPacket`, `fills_openShopPacket`, `fills_updateQuestPacket`: exactly
  up to some length of what is written;
* `fills_iff`, with a counterexample: many pieces of equipment that are gained at once.
-/

namespace Syrup

open Wire

/-- A packet is filled, and its length is one that the prefix of `session_write` can tell. -/
def Fills (x : Exec (List UInt8)) : Prop := ∃ bs, x = .ok bs ∧ bs.length ≤ 65535

theorem fills_packetOf {size : ℕ} {ws : List Write} (hsize : size ≤ 65535)
    (hs : ∀ w ∈ ws, w.Sound) : Fills (packetOf size ws) ↔ lengthOf ws ≤ size := by
  constructor
  · rintro ⟨bs, hbs, -⟩
    exact (packetOf_eq_ok.1 hbs).2.1
  · intro hfits
    refine ⟨_, packetOf_eq_ok.2 ⟨hs, hfits, rfl⟩, ?_⟩
    rw [length_bytesOf hs]
    exact hfits.trans hsize

/-- Parts that are each no longer than a bound. -/
theorem lengthOf_flatMap_le {α : Type} {l : List α} {f : α → List Write} {n : ℕ}
    (h : ∀ a ∈ l, lengthOf (f a) ≤ n) : lengthOf (l.flatMap f) ≤ l.length * n := by
  rw [lengthOf_flatMap, ← List.length_map (f := fun a => lengthOf (f a))]
  exact List.sum_le_card_nsmul _ n (List.forall_mem_map.2 h)

theorem sound_flatMap {α : Type} {l : List α} {f : α → List Write}
    (h : ∀ a ∈ l, ∀ w ∈ f a, w.Sound) : ∀ w ∈ l.flatMap f, w.Sound := by
  intro w hw
  obtain ⟨a, ha, hwa⟩ := List.mem_flatMap.1 hw
  exact h a ha w hwa

/-! ## Changes of inventories -/

/-- No more bytes of the names in a change are said to be there than there are. -/
def InventoryModify.Sound : InventoryModify → Prop
  | .addItem _ _ item => item.item.Sound
  | .addEquip _ _ equip => equip.item.Sound
  | .modify _ _ _ | .move _ _ _ | .remove _ _ => True

/-- How long a change is. -/
def InventoryModify.length : InventoryModify → ℕ
  | .addItem _ _ item => 4 + stackLength true item
  | .addEquip _ _ equip => (if equip.cash then 76 else 84) + equip.item.ownerLength.toNat
  | .modify _ _ _ => 6
  | .move _ slot dst => if slot < 0 ∨ dst < 0 then 7 else 6
  | .remove _ slot => if slot < 0 then 5 else 4

theorem lengthOf_writes (m : InventoryModify) : lengthOf m.writes = m.length := by
  cases m with
  | addItem inventory slot item =>
    rw [InventoryModify.writes, lengthOf_append, modifyItemsStack, lengthOf_stackBlock]
    rfl
  | addEquip inventory slot equip =>
    have hrest : lengthOf (if equip.cash then equipCash else equipLevel) =
        if equip.cash then 10 else 18 := by
      cases equip.cash <;> rfl
    rw [InventoryModify.writes, lengthOf_append, modifyItemsEquip, lengthOf_equipBlock, hrest]
    change 4 + _ = (if equip.cash then 76 else 84) + equip.item.ownerLength.toNat
    split <;> omega
  | modify inventory slot quantity => rfl
  | move inventory slot dst =>
    rw [InventoryModify.writes, InventoryModify.length]
    split <;> rfl
  | remove inventory slot =>
    rw [InventoryModify.writes, InventoryModify.length]
    split <;> rfl

theorem sound_writes {m : InventoryModify} (h : m.Sound) : ∀ w ∈ m.writes, w.Sound := by
  have hhead (mode : ℤ) (inventory : UInt8) (slot : Int16) :
      ∀ w ∈ InventoryModify.writes.head mode inventory slot, w.Sound := by
    simp [InventoryModify.writes.head]
  cases m with
  | addItem inventory slot item =>
    exact List.forall_mem_append.2 ⟨hhead 0 inventory slot, sound_stackBlock.2 h⟩
  | addEquip inventory slot equip =>
    refine List.forall_mem_append.2 ⟨hhead 0 inventory slot, sound_equipBlock.2 ⟨h, ?_⟩⟩
    cases equip.cash <;> decide
  | modify inventory slot quantity =>
    exact List.forall_mem_append.2 ⟨hhead 1 inventory slot, by simp⟩
  | move inventory slot dst =>
    refine List.forall_mem_append.2 ⟨hhead 2 inventory slot, List.forall_mem_cons.2 ⟨trivial, ?_⟩⟩
    split <;> simp
  | remove inventory slot =>
    refine List.forall_mem_append.2 ⟨hhead 3 inventory slot, ?_⟩
    split <;> simp

/-- Changes are told up to ten thousand bytes. -/
theorem fills_modifyItemsPacket {mods : List InventoryModify} (hs : ∀ m ∈ mods, m.Sound) :
    Fills (modifyItemsPacket mods) ↔
      (∀ m ∈ mods, m.Allowed) ∧ 4 + (mods.map InventoryModify.length).sum ≤ 10204 := by
  rw [modifyItemsPacket]
  split
  · rename_i hallowed
    rw [and_iff_right hallowed, fills_packetOf (by decide), lengthOf_append, lengthOf_flatMap]
    · simp only [lengthOf_writes]
      rfl
    · refine List.forall_mem_append.2 ⟨by simp, sound_flatMap fun m hm => sound_writes (hs m hm)⟩
  · rename_i hallowed
    exact iff_of_false (fun ⟨_, h, _⟩ => nomatch h) fun h => hallowed h.1

/-! ## The storage -/

/-- No more bytes of the name of an owner are said to be there than there are. -/
def Stored.Sound : Stored → Prop
  | .equip e => e.item.Sound
  | .item it => it.item.Sound

theorem Stored.lengthOf_writes_le {s : Stored} (h : s.Sound) : lengthOf s.writes ≤ 92 := by
  cases s with
  | equip e =>
    have hrest : lengthOf equipLevel = 18 := rfl
    have howner : e.item.ownerLength.toNat ≤ 12 := h
    rw [Stored.writes, openStorageEquip, lengthOf_equipBlock, hrest]
    omega
  | item it =>
    have howner : it.item.ownerLength.toNat ≤ 12 := h
    rw [Stored.writes, openStorageStack, lengthOf_stackBlock, stackLength]
    split <;> omega

theorem Stored.sound_writes {s : Stored} (h : s.Sound) : ∀ w ∈ s.writes, w.Sound := by
  cases s with
  | equip e => exact sound_equipBlock.2 ⟨h, by decide⟩
  | item it => exact sound_stackBlock.2 h

/-- A storage has so few slots that there is room for anything in them. -/
theorem fills_openStoragePacket {storage : Storage} (hs : ∀ s ∈ storage.storage, s.Sound)
    (npc : UInt32) : Fills (openStoragePacket storage npc) := by
  have hlength : lengthOf (storage.storage.flatMap Stored.writes) ≤ storage.storage.length * 92 :=
    lengthOf_flatMap_le fun s hm => Stored.lengthOf_writes_le (hs s hm)
  have hcount : storage.storage.length ≤ 252 := storage.count_le
  refine (fills_packetOf (by decide) ?_).2 ?_
  · simp only [List.forall_mem_append, List.forall_mem_cons, Write.sound_num, List.not_mem_nil,
      false_implies, implies_true, and_true, true_and]
    exact sound_flatMap fun s hm => Stored.sound_writes (hs s hm)
  · simp only [lengthOf_append, lengthOf_cons, lengthOf_nil, Write.size_num, width_u8, width_u16,
      width_u32, width_i32, openStoragePacketMaxLength]
    omega

/-! ## Quests -/

/-- The string of a quest has at most fifteen characters. -/
theorem fills_updateQuestPacket (id : UInt16) (progress : List UInt8) :
    Fills (updateQuestPacket id progress) ↔ progress.length % 65536 ≤ 15 := by
  have hsize : (UInt16.ofNat progress.length).toNat = progress.length % 65536 := UInt16.toNat_ofNat'
  rw [updateQuestPacket, fills_packetOf (by decide)]
  · simp only [lengthOf_cons, lengthOf_nil, Write.size_num, Write.size_sizedString, Write.size_zero,
      width_u8, width_u16, hsize, updateQuestPacketMaxLength]
    omega
  · simp only [List.forall_mem_cons, Write.sound_num, Write.sound_zero, Write.sound_sizedString, hsize,
      List.not_mem_nil, false_implies, implies_true, and_true, true_and]
    exact Nat.mod_le _ _

/-! ## Shops -/

/-- The items that `open_shop_packet` goes through. -/
def soldItems (items : List ShopItemInfo) : List ShopItemInfo :=
  items.take (UInt16.ofNat items.length).toNat

/-- How long an item of a shop is. -/
def ShopItemInfo.length (item : ShopItemInfo) : ℕ := if itemIsRechargeable item.id then 30 else 24

/-- Of what can be recharged, something is known. -/
def ShopItemInfo.Known (env : Env) (item : ShopItemInfo) : Prop :=
  itemIsRechargeable item.id = true → env.itemInfo item.id ≠ none

theorem shopItemWrites_eq_ok {env : Env} {bits : UInt32 → UInt64} {item : ShopItemInfo}
    {ws : List Write} (h : shopItemWrites env bits item = .ok ws) :
    item.Known env ∧ lengthOf ws = item.length ∧ ∀ w ∈ ws, w.Sound := by
  rw [shopItemWrites] at h
  rw [ShopItemInfo.Known, ShopItemInfo.length]
  cases hr : itemIsRechargeable item.id with
  | false =>
    rw [hr] at h
    cases h
    exact ⟨nofun, rfl, by simp⟩
  | true =>
    rw [hr] at h
    obtain ⟨info, hinfo, h⟩ := Exec.bind_eq_ok.1 h
    cases h
    refine ⟨fun _ hnone => ?_, rfl, by simp⟩
    rw [hnone] at hinfo
    cases hinfo

theorem shopItemWrites_of_known {env : Env} (bits : UInt32 → UInt64) {item : ShopItemInfo}
    (h : item.Known env) : ∃ ws, shopItemWrites env bits item = .ok ws := by
  rw [shopItemWrites]
  cases hr : itemIsRechargeable item.id with
  | false => exact ⟨_, rfl⟩
  | true =>
    obtain ⟨info, hinfo⟩ := Option.ne_none_iff_exists'.1 (h hr)
    rw [hinfo]
    exact ⟨_, rfl⟩

theorem mapM_shopItemWrites_eq_ok {env : Env} {bits : UInt32 → UInt64} {items : List ShopItemInfo}
    {ws : List (List Write)} (h : items.mapM (shopItemWrites env bits) = .ok ws) :
    (∀ item ∈ items, item.Known env) ∧
      lengthOf ws.flatten = (items.map ShopItemInfo.length).sum ∧ ∀ w ∈ ws.flatten, w.Sound := by
  induction items generalizing ws with
  | nil =>
    cases h
    exact ⟨by simp, rfl, by simp⟩
  | cons item items ih =>
    rw [List.mapM_cons] at h
    obtain ⟨w, hw, h⟩ := Exec.bind_eq_ok.1 h
    obtain ⟨ws, hws, h⟩ := Exec.bind_eq_ok.1 h
    cases h
    obtain ⟨hknown, hlength, hsound⟩ := shopItemWrites_eq_ok hw
    obtain ⟨hknowns, hlengths, hsounds⟩ := ih hws
    rw [List.flatten_cons, lengthOf_append, hlength, hlengths, List.map_cons, List.sum_cons]
    exact ⟨List.forall_mem_cons.2 ⟨hknown, hknowns⟩, rfl,
      List.forall_mem_append.2 ⟨hsound, hsounds⟩⟩

theorem mapM_shopItemWrites_of_known {env : Env} (bits : UInt32 → UInt64)
    {items : List ShopItemInfo} (h : ∀ item ∈ items, item.Known env) :
    ∃ ws, items.mapM (shopItemWrites env bits) = .ok ws := by
  induction items with
  | nil => exact ⟨_, rfl⟩
  | cons item items ih =>
    obtain ⟨hknown, hknowns⟩ := List.forall_mem_cons.1 h
    obtain ⟨w, hw⟩ := shopItemWrites_of_known bits hknown
    obtain ⟨ws, hws⟩ := ih hknowns
    rw [List.mapM_cons, hw, hws]
    exact ⟨_, rfl⟩

/-- A shop has some two hundred items, fewer if they can be recharged. -/
theorem fills_openShopPacket (env : Env) (bits : UInt32 → UInt64) (id : UInt32)
    (items : List ShopItemInfo) :
    Fills (openShopPacket env bits id items) ↔
      (∀ item ∈ soldItems items, item.Known env) ∧
        8 + ((soldItems items).map ShopItemInfo.length).sum ≤ 6128 := by
  have hpacket : openShopPacket env bits id items =
      (soldItems items).mapM (shopItemWrites env bits) >>= fun ws => packetOf openShopPacketMaxLength
        ([.num u16 0x0131, .num u32 id.toNat, .num u16 (UInt16.ofNat items.length).toNat] ++
          ws.flatten) := rfl
  have hfills {ws : List (List Write)}
      (hws : (soldItems items).mapM (shopItemWrites env bits) = .ok ws) :
      Fills (openShopPacket env bits id items) ↔
        8 + ((soldItems items).map ShopItemInfo.length).sum ≤ 6128 := by
    obtain ⟨-, hlength, hsound⟩ := mapM_shopItemWrites_eq_ok hws
    rw [hpacket, hws]
    refine (fills_packetOf (by decide) (List.forall_mem_append.2 ⟨by simp, hsound⟩)).trans ?_
    rw [lengthOf_append, hlength]
    rfl
  constructor
  · intro h
    obtain ⟨bs, hbs, hlength⟩ := h
    have hbs' := hbs
    rw [hpacket] at hbs'
    obtain ⟨ws, hws, -⟩ := Exec.bind_eq_ok.1 hbs'
    exact ⟨(mapM_shopItemWrites_eq_ok hws).1, (hfills hws).1 ⟨bs, hbs, hlength⟩⟩
  · rintro ⟨hknown, hlength⟩
    obtain ⟨ws, hws⟩ := mapM_shopItemWrites_of_known bits hknown
    exact (hfills hws).2 hlength

/-! ## The look -/

theorem lengthOf_wornLook_le (chr : Character) (i : Fin equipSlotCount) :
    lengthOf (wornLook chr i) ≤ 5 + if i.val = equipSlotNonCosmeticCount then 1 else 0 := by
  rw [wornLook, lengthOf_append]
  refine add_le_add ?_ ?_
  · split
    · exact Nat.zero_le _
    · exact le_rfl
  · split <;> exact le_rfl

/-- Everything that can be worn makes a look no longer than this. -/
theorem lengthOf_writerCharAppearance_le (chr : Character) (p : Presence) (mega : Bool) :
    lengthOf (writerCharAppearance chr p mega) ≤ 349 := by
  have hworn : lengthOf ((List.finRange equipSlotCount).flatMap (wornLook chr)) ≤ 321 := by
    rw [lengthOf_flatMap]
    refine (List.sum_le_sum fun i _ => lengthOf_wornLook_le chr i).trans ?_
    decide +kernel
  simp only [writerCharAppearance, lengthOf_append, lengthOf_cons, lengthOf_nil, Write.size_num,
    width_u8, width_u32]
  omega

theorem sound_writerCharAppearance (chr : Character) (p : Presence) (mega : Bool) :
    ∀ w ∈ writerCharAppearance chr p mega, w.Sound := by
  refine List.forall_mem_append.2 ⟨List.forall_mem_append.2 ⟨by simp, sound_flatMap fun i _ => ?_⟩,
    by simp⟩
  refine List.forall_mem_append.2 ⟨?_, ?_⟩ <;> split <;> simp

theorem fills_addPlayerToMapPacket (chr : Character) {p : Presence} (hp : p.Sound) :
    Fills (addPlayerToMapPacket chr p) := by
  have hlook := lengthOf_writerCharAppearance_le chr p false
  have hname : p.nameLength.toNat ≤ 12 := hp
  refine (fills_packetOf (by decide) ?_).2 ?_
  · refine List.forall_mem_append.2 ⟨List.forall_mem_append.2 ⟨?_, sound_writerCharAppearance chr p false⟩,
      by simp⟩
    simp only [List.forall_mem_cons, Write.sound_num, Write.sound_zero, Write.sound_sizedString,
      UInt8.toNat_toUInt16, Vector.length_toList, List.not_mem_nil, false_implies, implies_true,
      and_true, true_and]
    exact hname
  · simp only [lengthOf_append, lengthOf_cons, lengthOf_nil, Write.size_num, Write.size_zero,
      Write.size_sizedString, UInt8.toNat_toUInt16, width_u8, width_u16, width_u32, width_u64, width_i16,
      addPlayerToMapPacketMaxLength]
    omega

theorem fills_updateCharLookPacket (chr : Character) (p : Presence) :
    Fills (updateCharLookPacket chr p) := by
  have hlook := lengthOf_writerCharAppearance_le chr p false
  refine (fills_packetOf (by decide) ?_).2 ?_
  · exact List.forall_mem_append.2 ⟨List.forall_mem_append.2 ⟨by simp,
      sound_writerCharAppearance chr p false⟩, by simp⟩
  · simp only [lengthOf_append, lengthOf_cons, lengthOf_nil, Write.size_num, width_u8, width_u16,
      width_u32, updateCharLookMaxLength]
    omega

/-! ## The login packet -/

section Login

variable {clock : Clock} {chr : Character} {p : Presence}

/-- How long a piece of equipment is in the login packet. -/
def equipLength (e : Equipment) : ℕ := 80 + e.item.ownerLength.toNat

/-- How long the slots of an inventory are that are not empty, given how long the number of a slot and
    what is in it are. -/
def slotsLength {α : Type} (width : ℕ) (length : α → ℕ) (inv : Inventory α) : ℕ :=
  (inv.slots.map fun i =>
    if (inv.items i).isEmpty then 0 else width + length (inv.items i).val).sum

/-- How long what is worn is. -/
def wornLength (chr : Character) : ℕ :=
  ((List.finRange equipSlotCount).map fun i =>
    if (chr.equippedEquipment i).isEmpty then 0
    else 2 + equipLength (chr.equippedEquipment i).val).sum

/-- How long the skills, the quests and the monster book are. -/
def tailLength (chr : Character) : ℕ :=
  16 * chr.skills.records.length +
    (chr.quests.records.map fun quest => 4 + 3 * quest.progressCount.toNat).sum +
    (chr.questInfos.records.map fun info => 4 + info.bytes.length % 256).sum +
    10 * chr.completedQuests.records.length + 3 * chr.monsterBook.records.length

/-- How long a login packet is. -/
def setFieldLength (chr : Character) : ℕ :=
  252 + wornLength chr + slotsLength 2 equipLength chr.equipmentInventory +
    slotsLength 1 (stackLength true) (chr.inventory 0) +
    slotsLength 1 (stackLength false) (chr.inventory 1) +
    slotsLength 1 (stackLength false) (chr.inventory 2) + tailLength chr

/-- Of no string of a character more bytes are said to be there than there are. -/
structure Character.Sound (chr : Character) (p : Presence) : Prop where
  name : p.Sound
  worn : ∀ i, (chr.equippedEquipment i).isEmpty = false → (chr.equippedEquipment i).val.item.Sound
  equipment : ∀ i ∈ chr.equipmentInventory.slots, (chr.equipmentInventory.items i).isEmpty = false →
    (chr.equipmentInventory.items i).val.item.Sound
  inventory : ∀ k, ∀ i ∈ (chr.inventory k).slots, ((chr.inventory k).items i).isEmpty = false →
    ((chr.inventory k).items i).val.item.Sound
  quests : ∀ quest ∈ chr.quests.records, quest.progressCount.toNat ≤ 5

theorem lengthOf_setFieldEquip (e : Equipment) : lengthOf (setFieldEquip e) = equipLength e := by
  have hrest : lengthOf equipLevel = 18 := rfl
  rw [setFieldEquip, lengthOf_equipBlock, equipLength, hrest]
  omega

theorem lengthOf_setFieldWorn : lengthOf (setFieldWorn chr) = wornLength chr := by
  rw [setFieldWorn, lengthOf_flatMap, wornLength]
  refine congrArg List.sum (List.map_congr_left fun i _ => ?_)
  split
  · rfl
  · rw [lengthOf_cons, lengthOf_setFieldEquip]
    rfl

theorem lengthOf_setFieldSlots {α : Type} {format : Format} {block : α → List Write} {length : α → ℕ}
    {inv : Inventory α} (h : ∀ a, lengthOf (block a) = length a) :
    lengthOf (setFieldSlots format block inv) = slotsLength format.width length inv := by
  rw [setFieldSlots, lengthOf_flatMap, slotsLength]
  refine congrArg List.sum (List.map_congr_left fun i _ => ?_)
  split
  · rfl
  · rw [lengthOf_cons, h]
    rfl

theorem lengthOf_foreach {R : Type} (set : HashSet R) (write : R → List Write) :
    lengthOf (foreach set write) = (set.records.map fun r => lengthOf (write r)).sum :=
  lengthOf_flatMap set.records write

theorem lengthOf_foreach_const {R : Type} {set : HashSet R} {write : R → List Write} {n : ℕ}
    (h : ∀ r, lengthOf (write r) = n) : lengthOf (foreach set write) = n * set.records.length := by
  simp only [lengthOf_foreach, h, List.map_const', List.sum_replicate, smul_eq_mul, mul_comm]

theorem toNat_three_mul {n : UInt8} (h : n.toNat ≤ 5) : (3 * n.toUInt16).toNat = 3 * n.toNat := by
  have hmul : (3 * n.toUInt16).toNat = 3 * n.toNat % 2 ^ 16 := UInt16.toNat_mul 3 n.toUInt16
  rw [hmul]
  exact Nat.mod_eq_of_lt (by omega)

theorem lengthOf_addQuests {quest : Quest} (h : quest.progressCount.toNat ≤ 5) :
    lengthOf (addQuests quest) = 4 + 3 * quest.progressCount.toNat := by
  simp only [addQuests, lengthOf_cons, lengthOf_nil, Write.size_num, Write.size_sizedString, width_u16,
    toNat_three_mul h]
  omega

theorem lengthOf_addQuestInfos (info : QuestInfoProgress) :
    lengthOf (addQuestInfos info) = 4 + info.bytes.length % 256 := by
  simp only [addQuestInfos, lengthOf_cons, lengthOf_nil, Write.size_num, Write.size_sizedString,
    width_u16, UInt8.toNat_toUInt16, UInt8.toNat_ofNat']
  omega

/-- A number takes three characters. -/
theorem length_progressDigits (n : Int32) : (progressDigits n).length = 3 := by
  rw [progressDigits, List.length_take, List.length_append, List.length_append,
    List.length_replicate]
  omega

theorem sound_addQuests {quest : Quest} (h : quest.progressCount.toNat ≤ 5) :
    ∀ w ∈ addQuests quest, w.Sound := by
  have hlength : (questGetProgressString quest).length = 3 * quest.progressCount.toNat := by
    rw [questGetProgressString, List.length_flatMap]
    simp only [length_progressDigits, List.map_const', List.sum_replicate, List.length_take,
      Vector.length_toList, smul_eq_mul, min_eq_left h, mul_comm]
  simp only [addQuests, List.forall_mem_cons, Write.sound_num, Write.sound_sizedString,
    toNat_three_mul h, hlength, le_refl, List.not_mem_nil, false_implies, implies_true, and_self]

theorem sound_addQuestInfos (info : QuestInfoProgress) : ∀ w ∈ addQuestInfos info, w.Sound := by
  simp only [addQuestInfos, List.forall_mem_cons, Write.sound_num, Write.sound_sizedString,
    UInt8.toNat_toUInt16, UInt8.toNat_ofNat', Nat.mod_le, List.not_mem_nil, false_implies,
    implies_true, and_self]

theorem lengthOf_setFieldTail (h : chr.Sound p) :
    lengthOf (setFieldTail clock chr) = 97 + tailLength chr := by
  have hquests : lengthOf (foreach chr.quests addQuests) =
      (chr.quests.records.map fun quest => 4 + 3 * quest.progressCount.toNat).sum := by
    rw [lengthOf_foreach]
    exact congrArg List.sum (List.map_congr_left fun quest hq => lengthOf_addQuests (h.quests quest hq))
  have hinfos : lengthOf (foreach chr.questInfos addQuestInfos) =
      (chr.questInfos.records.map fun info => 4 + info.bytes.length % 256).sum := by
    simp only [lengthOf_foreach, lengthOf_addQuestInfos]
  have hslots : lengthOf (List.replicate 15 (.num u32 999999999)) = 60 := rfl
  have hskills : lengthOf (foreach chr.skills addSkills) = 16 * chr.skills.records.length :=
    lengthOf_foreach_const fun _ => rfl
  have hcompleted : lengthOf (foreach chr.completedQuests (addCompletedQuests clock)) =
      10 * chr.completedQuests.records.length := lengthOf_foreach_const fun _ => rfl
  have hbook : lengthOf (foreach chr.monsterBook addMonsterBookEntries) =
      3 * chr.monsterBook.records.length := lengthOf_foreach_const fun _ => rfl
  simp only [setFieldTail, lengthOf_append, lengthOf_cons, lengthOf_nil, Write.size_num, width_u8,
    width_u16, width_u32, width_u64, width_i16, hslots, hskills, hquests, hinfos,
    hcompleted, hbook, tailLength]
  omega

theorem sound_setFieldTail (h : chr.Sound p) : ∀ w ∈ setFieldTail clock chr, w.Sound := by
  have hskills : ∀ w ∈ foreach chr.skills addSkills, w.Sound :=
    sound_flatMap fun skill _ => by simp [addSkills]
  have hquests : ∀ w ∈ foreach chr.quests addQuests, w.Sound :=
    sound_flatMap fun quest hq => sound_addQuests (h.quests quest hq)
  have hinfos : ∀ w ∈ foreach chr.questInfos addQuestInfos, w.Sound :=
    sound_flatMap fun info _ => sound_addQuestInfos info
  have hcompleted : ∀ w ∈ foreach chr.completedQuests (addCompletedQuests clock), w.Sound :=
    sound_flatMap fun quest _ => by simp [addCompletedQuests]
  have hbook : ∀ w ∈ foreach chr.monsterBook addMonsterBookEntries, w.Sound :=
    sound_flatMap fun entry _ => by simp [addMonsterBookEntries]
  have hslots : ∀ w ∈ List.replicate 15 (Write.num u32 999999999), w.Sound := by decide
  simp only [setFieldTail, List.forall_mem_append, List.forall_mem_cons, Write.sound_num,
    List.not_mem_nil, false_implies, implies_true, and_true, true_and]
  exact ⟨⟨⟨⟨⟨hskills, hquests⟩, hinfos⟩, hcompleted⟩, hslots⟩, hbook⟩

theorem lengthOf_setFieldInventories : lengthOf (setFieldInventories chr) =
    12 + wornLength chr + slotsLength 2 equipLength chr.equipmentInventory +
      slotsLength 1 (stackLength true) (chr.inventory 0) +
      slotsLength 1 (stackLength false) (chr.inventory 1) +
      slotsLength 1 (stackLength false) (chr.inventory 2) := by
  have hequip : lengthOf (setFieldSlots u16 setFieldEquip chr.equipmentInventory) =
      slotsLength 2 equipLength chr.equipmentInventory :=
    lengthOf_setFieldSlots lengthOf_setFieldEquip
  have hstack (recharge : Bool) (k : Fin inventoryCount) (hk : k ≠ 3)
      (hr : decide (k = useInventory) = recharge) :
      lengthOf (setFieldInventory chr k) =
        slotsLength 1 (stackLength recharge) (chr.inventory k) + 1 := by
    have hblock (it : InventoryItem) : lengthOf (setFieldStack k it) = stackLength recharge it := by
      rw [setFieldStack, if_neg hk, hr, lengthOf_stackBlock]
    rw [setFieldInventory, if_neg hk, lengthOf_append, lengthOf_setFieldSlots hblock]
    rfl
  have hcash : lengthOf (setFieldInventory chr 3) = 1 := rfl
  simp only [setFieldInventories, lengthOf_append, lengthOf_cons, lengthOf_nil, Write.size_num,
    width_u16, width_u32, lengthOf_setFieldWorn, hequip, hstack true 0 (by decide) rfl,
    hstack false 1 (by decide) rfl, hstack false 2 (by decide) rfl, hcash]
  omega

theorem sound_setFieldEquip {e : Equipment} (h : e.item.Sound) : ∀ w ∈ setFieldEquip e, w.Sound :=
  sound_equipBlock.2 ⟨h, by decide⟩

theorem sound_setFieldSlots {α : Type} {format : Format} {block : α → List Write} {inv : Inventory α}
    (h : ∀ i ∈ inv.slots, (inv.items i).isEmpty = false → ∀ w ∈ block (inv.items i).val, w.Sound) :
    ∀ w ∈ setFieldSlots format block inv, w.Sound := by
  refine sound_flatMap fun i hi => ?_
  split
  · simp
  · rename_i hempty
    exact List.forall_mem_cons.2 ⟨trivial, h i hi (Bool.eq_false_of_not_eq_true hempty)⟩

theorem sound_setFieldInventory (h : chr.Sound p) (k : Fin inventoryCount) :
    ∀ w ∈ setFieldInventory chr k, w.Sound := by
  refine List.forall_mem_append.2 ⟨?_, by simp⟩
  split
  · simp
  · rename_i hk
    refine sound_setFieldSlots fun i hi hempty => ?_
    rw [setFieldStack, if_neg hk]
    exact sound_stackBlock.2 (h.inventory k i hi hempty)

theorem sound_setFieldInventories (h : chr.Sound p) : ∀ w ∈ setFieldInventories chr, w.Sound := by
  have hworn : ∀ w ∈ setFieldWorn chr, w.Sound := by
    refine sound_flatMap fun i _ => ?_
    split
    · simp
    · rename_i hempty
      exact List.forall_mem_cons.2
        ⟨trivial, sound_setFieldEquip (h.worn i (Bool.eq_false_of_not_eq_true hempty))⟩
  have hequip : ∀ w ∈ setFieldSlots u16 setFieldEquip chr.equipmentInventory, w.Sound :=
    sound_setFieldSlots fun i hi hempty => sound_setFieldEquip (h.equipment i hi hempty)
  simp only [setFieldInventories, List.forall_mem_append, List.forall_mem_cons, Write.sound_num,
    List.not_mem_nil, false_implies, implies_true, and_true]
  exact ⟨⟨⟨⟨⟨hworn, hequip⟩, sound_setFieldInventory h 0⟩, sound_setFieldInventory h 1⟩,
    sound_setFieldInventory h 2⟩, sound_setFieldInventory h 3⟩

/-- A character of which there is not too much is told to its player. -/
theorem fills_setFieldPacket (clock : Clock) (h : chr.Sound p) :
    Fills (setFieldPacket clock chr p) ↔ setFieldLength chr ≤ 65535 := by
  rw [setFieldPacket, fills_packetOf (by decide), lengthOf_append, lengthOf_append,
    lengthOf_setFieldHead h.name, lengthOf_setFieldInventories, lengthOf_setFieldTail h,
    setFieldLength, setFieldPacketMaxLength]
  · omega
  · exact List.forall_mem_append.2 ⟨List.forall_mem_append.2
      ⟨sound_setFieldHead.2 h.name, sound_setFieldInventories h⟩, sound_setFieldTail h⟩

end Login

/-! ## All of it -/

/-- The packets that are written: a login packet, and changes of inventories, and shops, as long as what
    is in them is not too much, a string of a quest of up to fifteen characters, and storages and looks in
    any case. -/
theorem fills_iff {chr : Character} {p : Presence} (mods : List InventoryModify)
    (storage : Storage) (env : Env) (clock : Clock) (bits : UInt32 → UInt64) (npc : UInt32)
    (items : List ShopItemInfo) (quest : UInt16) (progress : List UInt8) (hchr : chr.Sound p) (hmods : ∀ m ∈ mods, m.Sound)
    (hstorage : ∀ s ∈ storage.storage, s.Sound) :
    (Fills (setFieldPacket clock chr p) ↔ setFieldLength chr ≤ 65535) ∧
      (Fills (modifyItemsPacket mods) ↔
        (∀ m ∈ mods, m.Allowed) ∧ 4 + (mods.map InventoryModify.length).sum ≤ 10204) ∧
      (Fills (openShopPacket env bits npc items) ↔
        (∀ item ∈ soldItems items, item.Known env) ∧
          8 + ((soldItems items).map ShopItemInfo.length).sum ≤ 6128) ∧
      (Fills (updateQuestPacket quest progress) ↔ progress.length % 65536 ≤ 15) ∧
      Fills (openStoragePacket storage npc) ∧ Fills (addPlayerToMapPacket chr p) ∧
      Fills (updateCharLookPacket chr p) :=
  ⟨fills_setFieldPacket clock hchr, fills_modifyItemsPacket hmods,
    fills_openShopPacket env bits npc items, fills_updateQuestPacket quest progress,
    fills_openStoragePacket hstorage npc, fills_addPlayerToMapPacket chr hchr.name,
    fills_updateCharLookPacket chr p⟩

instance (m : InventoryModify) : Decidable m.Sound :=
  match m with
  | .addItem _ _ item => inferInstanceAs (Decidable item.item.Sound)
  | .addEquip _ _ equip => inferInstanceAs (Decidable equip.item.Sound)
  | .modify _ _ _ | .move _ _ _ | .remove _ _ => inferInstanceAs (Decidable True)

/-- Data in which there is a sword. -/
def bladeEnv : Env := .ofLists [] [.plain 1302000] [] []

/-- A character that has room for as much equipment as there can be. -/
def roomy : Character :=
  (default : Character).setEquipmentInventory ⟨252, by decide, fun _ => ⟨true, default⟩⟩

theorem sound_roomy : roomy.Sound default where
  name := by decide
  worn _ h := nomatch h
  equipment _ _ h := nomatch h
  inventory _ _ _ h := nomatch h
  quests := by decide

/-- Two swords are told of, and the character with its empty inventories. -/
theorem fills_iff_roomy :
    (Fills (setFieldPacket ⟨0, fun _ => 0⟩ roomy default) ↔ setFieldLength roomy ≤ 65535) ∧
      (Fills (modifyItemsPacket [.addEquip 1 1 (.plain 1302000), .addEquip 1 2 (.plain 1302000)]) ↔
        (∀ m ∈ ([.addEquip 1 1 (.plain 1302000), .addEquip 1 2 (.plain 1302000)] :
          List InventoryModify), m.Allowed) ∧ 172 ≤ 10204) :=
  have h := fills_iff [.addEquip 1 1 (.plain 1302000), .addEquip 1 2 (.plain 1302000)]
    ⟨4, 0, [], by decide⟩ bladeEnv ⟨0, fun _ => 0⟩ (fun _ => 0) 0 [] 0 [] sound_roomy
    (by decide) (by simp)
  ⟨h.1, h.2.1⟩

/-- Whether a packet tells of more changes than there is room for. -/
def Packet.overruns : Packet → Bool
  | .modifyItems mods =>
    mods.all (fun m => decide m.Sound) && decide (10204 < 4 + (mods.map InventoryModify.length).sum)
  | _ => false

theorem not_fills_of_overruns {mods : List InventoryModify}
    (h : (Packet.modifyItems mods).overruns = true) : ¬Fills (modifyItemsPacket mods) := by
  obtain ⟨hsound, hlength⟩ := Bool.and_eq_true_iff.1 h
  have hs : ∀ m ∈ mods, m.Sound := fun m hm => of_decide_eq_true (List.all_eq_true.1 hsound m hm)
  rw [fills_modifyItemsPacket hs]
  exact fun hfills => absurd hfills.2 (Nat.not_le_of_lt (of_decide_eq_true hlength))

theorem overruns_of_returns {x : Exec (Option Bool × Client)}
    (h : x.Returns fun r => r.1 = some true ∧ r.2.sent.map Packet.overruns = [true]) :
    ∃ c mods, x = .ok (some true, c) ∧ c.sent = [.modifyItems mods] ∧
      ¬Fills (modifyItemsPacket mods) := by
  obtain ⟨⟨ret, c⟩, hr, rfl, hover⟩ := Exec.returns_iff.1 h
  obtain ⟨packet, hsent, hpacket⟩ := List.map_eq_singleton_iff.1 hover
  cases packet with
  | modifyItems mods => exact ⟨c, mods, hr, hsent, not_fills_of_overruns hpacket⟩
  | _ => cases hpacket

/-- A hundred and thirty swords are gained at once: the packet that is to tell of them does not hold
    them. -/
theorem gainItems_overruns :
    ∃ c mods, clientGainItems bladeEnv true (.new roomy) [(1302000, 130)] false =
        .ok (some true, c) ∧
      c.sent = [.modifyItems mods] ∧ ¬Fills (modifyItemsPacket mods) :=
  overruns_of_returns (by decide +kernel)

end Syrup
