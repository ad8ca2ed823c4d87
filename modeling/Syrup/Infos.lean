import Syrup.Client.RangedAttack
import Syrup.Wz.Portals
import Syrup.Wz.Reactors

/-!
# The static tables

Maps, monsters, items, drops and so on are read once, when the server starts, into arrays of records. Then
`cmph_new` makes a perfect hash of the ids of the records, and a loop puts each record at the index that
`cmph_search` gives for its id. A record is looked up at the index of its id, where it is looked whether the id is
the right one: for an id that there is no record of, `cmph_search` gives some index.

The hash is a parameter (`cmphNew`), and has to be perfect (`IsPerfectHash`) for what is proved: the loop ends, and
records are found by their ids (`infos_found`).
-/

namespace Syrup

/-- A table: `INFOS`, and `cmph_search` in `INFO_MPH`. -/
structure InfoTable (K R : Type) where
  infos : List R
  cmphSearch : K → UInt32

namespace InfoTable

variable {K R : Type} [DecidableEq K] (key : R → K)

/-- `cmph_new` with the ids of the records, and the loop after it, for so many rounds at most. This is done with
    each table, in `wz_init`, `wz_init_equipment`, `drops_load_from_db` and `shops_load_from_db`. -/
def init (cmphNew : List K → K → UInt32) (rounds : ℕ) (infos : List R) : Exec (InfoTable K R) := do
  let cmphSearch := cmphNew (infos.map key)
  let infos ← hashOrder (fun info => (cmphSearch (key info)).toNat) rounds 0 infos
  return ⟨infos, cmphSearch⟩

/-- `&INFOS[cmph_search(INFO_MPH, &id, sizeof(id))]`, or `NULL` if the record there has another id. -/
def find (t : InfoTable K R) (id : K) : Exec (Option R) :=
  match t.infos[(t.cmphSearch id).toNat]? with
  | none => .error .outOfBounds
  | some info => .ok (if key info ≠ id then none else some info)

end InfoTable

/-! ## The records -/

/-- `struct DropInfoNode`. -/
structure DropInfoNode where
  id : UInt32
  info : List DropInfo

/-- `struct ShopInfoNode`. -/
structure ShopInfoNode where
  id : UInt32
  info : List ShopItemInfo

/-- `struct MobInfo`, as far as it is used. -/
structure MobInfo where
  id : UInt32
  hp : Int32

/-- `struct SkillInfo`, with its id and its levels. -/
structure SkillRecord where
  id : UInt32
  levels : List SkillLevelInfo
  reqId : UInt64
  reqLevel : UInt64

/-! ## What the database has -/

/-- `struct ItemDrop`. -/
structure ItemDrop where
  itemId : UInt32
  chance : Int32

/-- `struct QuestItemDrop`. -/
structure QuestItemDrop where
  itemId : UInt32
  questId : UInt16
  chance : Int32

/-- `struct MesoDrop`. -/
structure MesoDrop where
  min : Int32
  max : Int32
  chance : Int32

/-- `struct MultiItemDrop`. -/
structure MultiItemDrop where
  id : UInt32
  min : Int32
  max : Int32
  chance : Int32

/-- `struct MonsterDrops`. -/
structure MonsterDrops where
  id : UInt32
  itemDrops : List ItemDrop
  questItemDrops : List QuestItemDrop
  mesoDrop : MesoDrop
  multiItemDrops : List MultiItemDrop

/-- `struct ReactorDrops`, the mesos of which are not read. -/
structure ReactorDrops where
  id : UInt32
  itemDrops : List ItemDrop
  questItemDrops : List QuestItemDrop

/-- One item. (Only the quest of a drop for a quest is set; it is `0` here otherwise.) -/
def ItemDrop.info (drop : ItemDrop) : DropInfo where
  itemId := drop.itemId
  min := 1
  max := 1
  isQuest := false
  questId := 0
  chance := drop.chance.toInt

/-- One item, for a quest. -/
def QuestItemDrop.info (drop : QuestItemDrop) : DropInfo where
  itemId := drop.itemId
  min := 1
  max := 1
  isQuest := true
  questId := drop.questId
  chance := drop.chance.toInt

/-- Mesos are the item `0`. -/
def MesoDrop.info (drop : MesoDrop) : DropInfo where
  itemId := 0
  min := drop.min.toInt
  max := drop.max.toInt
  isQuest := false
  questId := 0
  chance := drop.chance.toInt

/-- Some items. -/
def MultiItemDrop.info (drop : MultiItemDrop) : DropInfo where
  itemId := drop.id
  min := drop.min.toInt
  max := drop.max.toInt
  isQuest := false
  questId := 0
  chance := drop.chance.toInt

/-- The drops of a monster. -/
def MonsterDrops.info (monster : MonsterDrops) : List DropInfo :=
  monster.itemDrops.map ItemDrop.info ++ monster.questItemDrops.map QuestItemDrop.info ++
    (if monster.mesoDrop.max ≠ 0 then [monster.mesoDrop.info] else []) ++
    monster.multiItemDrops.map MultiItemDrop.info

/-- The drops of a reactor. -/
def ReactorDrops.info (reactor : ReactorDrops) : List DropInfo :=
  reactor.itemDrops.map ItemDrop.info ++ reactor.questItemDrops.map QuestItemDrop.info

/-- `drop_info_find`. -/
def dropInfoFind (t : InfoTable UInt32 DropInfoNode) (id : UInt32) : Exec (Option (List DropInfo)) :=
  Option.map DropInfoNode.info <$> t.find DropInfoNode.id id

/-- `reactor_drop_info_find`. -/
def reactorDropInfoFind (t : InfoTable UInt32 DropInfoNode) (id : UInt32) : Exec (Option (List DropInfo)) :=
  Option.map DropInfoNode.info <$> t.find DropInfoNode.id id

/-- `shop_info_find`. -/
def shopInfoFind (t : InfoTable UInt32 ShopInfoNode) (id : UInt32) : Exec (Option (List ShopItemInfo)) :=
  Option.map ShopInfoNode.info <$> t.find ShopInfoNode.id id

/-- `wz_get_map`. -/
def wzGetMap (t : InfoTable UInt32 MapPortals) (id : UInt32) : Exec (Option MapPortals) :=
  t.find MapPortals.id id

/-- `wz_get_equip_info`. -/
def wzGetEquipInfo (t : InfoTable UInt32 EquipInfo) (id : UInt32) : Exec (Option EquipInfo) :=
  t.find EquipInfo.id id

/-- `wz_get_consumable_info`. -/
def wzGetConsumableInfo (t : InfoTable UInt32 ConsumableInfo) (id : UInt32) : Exec (Option ConsumableInfo) :=
  t.find ConsumableInfo.id id

/-- `wz_get_monster_stats`. -/
def wzGetMonsterStats (t : InfoTable UInt32 MobInfo) (id : UInt32) : Exec (Option MobInfo) :=
  t.find MobInfo.id id

/-- `wz_get_quest_info`. -/
def wzGetQuestInfo (t : InfoTable UInt16 QuestInfo) (id : UInt16) : Exec (Option QuestInfo) :=
  t.find QuestInfo.id id

/-- `wz_get_item_info`. -/
def wzGetItemInfo (t : InfoTable UInt32 ItemInfo) (id : UInt32) : Exec (Option ItemInfo) :=
  t.find ItemInfo.id id

/-- `wz_get_reactor_info`. -/
def wzGetReactorInfo (t : InfoTable UInt32 ReactorInfo) (id : UInt32) : Exec (Option ReactorInfo) :=
  t.find ReactorInfo.id id

/-- `wz_get_skill_info`. -/
def wzGetSkillInfo (t : InfoTable UInt32 SkillRecord) (id : UInt32) : Exec (Option SkillRecord) :=
  t.find SkillRecord.id id

/-- The maps, as they are gone through for portals. -/
def InfoTable.portalData (t : InfoTable UInt32 MapPortals) : PortalData where
  maps := t.infos
  cmphSearch id := (t.cmphSearch id).toNat

/-! ## What is asked of them -/

/-- `cmph_search` maps different ids one-to-one onto the first numbers, and any other key to one of them. (There is
    none if there are no ids.) -/
structure IsPerfectHash {K : Type} (cmphSearch : K → UInt32) (ids : List K) : Prop where
  nodup : ids.Nodup
  bijOn : Set.BijOn (fun id => (cmphSearch id).toNat) {id | id ∈ ids} (Set.Iio ids.length)
  lt : ids ≠ [] → ∀ id ∉ ids, (cmphSearch id).toNat < ids.length

namespace InfoTable

variable {K R V : Type}

/-- The records are in the order of the hash. -/
structure InOrder (key : R → K) (infos : List R) (t : InfoTable K R) : Prop where
  perm : t.infos.Perm infos
  placed : ∀ info ∈ infos, t.infos[(t.cmphSearch (key info)).toNat]? = some info

/-- What is found for an id is the record that has it, or what is shown of it; nothing is found for an id that no
    record has. -/
structure FindsAll (key : R → K) (view : R → V) (infos : List R) (find : K → Exec (Option V)) : Prop where
  present : ∀ info ∈ infos, find (key info) = .ok (some (view info))
  absent : infos ≠ [] → ∀ id, (∀ info ∈ infos, key info ≠ id) → find id = .ok none

/-- Whatever the order of the records, if their ids are hashed perfectly, the loop ends with a table that is in the
    order of the hash, and in which all of them are found. -/
def Found (key : R → K) (view : R → V) (cmphNew : List K → K → UInt32)
    (find : InfoTable K R → K → Exec (Option V)) : Prop :=
  ∀ infos : List R, IsPerfectHash (cmphNew (infos.map key)) (infos.map key) →
    ∃ t n₀, (∀ n ≥ n₀, init key cmphNew n infos = .ok t) ∧ t.InOrder key infos ∧ FindsAll key view infos (find t)

end InfoTable

/-- The same of the portals of maps: those of the map that has the id are found, and none if there is no such
    map. -/
def PortalsFound (cmphNew : List UInt32 → UInt32 → UInt32) : Prop :=
  ∀ maps : List MapPortals, IsPerfectHash (cmphNew (maps.map MapPortals.id)) (maps.map MapPortals.id) →
    ∃ t n₀, (∀ n ≥ n₀, InfoTable.init MapPortals.id cmphNew n maps = .ok t) ∧
      (∀ m ∈ maps, ∀ pid, t.portalData.wzGetPortalInfo m.id pid = .ok m.portals[pid.toNat]?) ∧
      (maps ≠ [] → ∀ id, (∀ m ∈ maps, m.id ≠ id) → ∀ pid, t.portalData.wzGetPortalInfo id pid = .ok none)

/-- All tables are filled and looked into in this way. -/
structure InfosFound (cmphNew16 : List UInt16 → UInt16 → UInt32) (cmphNew32 : List UInt32 → UInt32 → UInt32) :
    Prop where
  drops : InfoTable.Found DropInfoNode.id DropInfoNode.info cmphNew32 dropInfoFind
  reactorDrops : InfoTable.Found DropInfoNode.id DropInfoNode.info cmphNew32 reactorDropInfoFind
  shops : InfoTable.Found ShopInfoNode.id ShopInfoNode.info cmphNew32 shopInfoFind
  maps : InfoTable.Found MapPortals.id id cmphNew32 wzGetMap
  portals : PortalsFound cmphNew32
  equips : InfoTable.Found EquipInfo.id id cmphNew32 wzGetEquipInfo
  consumables : InfoTable.Found ConsumableInfo.id id cmphNew32 wzGetConsumableInfo
  mobs : InfoTable.Found MobInfo.id id cmphNew32 wzGetMonsterStats
  quests : InfoTable.Found QuestInfo.id id cmphNew16 wzGetQuestInfo
  items : InfoTable.Found ItemInfo.id id cmphNew32 wzGetItemInfo
  reactors : InfoTable.Found ReactorInfo.id id cmphNew32 wzGetReactorInfo
  skills : InfoTable.Found SkillRecord.id id cmphNew32 wzGetSkillInfo
  mobSkills : InfoTable.Found SkillRecord.id id cmphNew32 (InfoTable.find SkillRecord.id)

namespace InfoTable

variable {K R V : Type} {key : R → K} {view : R → V} {infos : List R} {t : InfoTable K R}

/-- Each record has the place that the hash gives to its id. -/
theorem hasPlaces {cmphSearch : K → UInt32} (h : IsPerfectHash cmphSearch (infos.map key)) :
    HasPlaces (fun info => (cmphSearch (key info)).toNat) infos := by
  constructor
  · have hnodup := h.nodup.map_on fun a ha b hb heq => h.bijOn.injOn ha hb heq
    rwa [List.map_map] at hnodup
  · intro info hinfo
    have hlt := h.bijOn.mapsTo (List.mem_map_of_mem hinfo)
    rwa [List.length_map] at hlt

/-- The loop ends with the records in the order of the hash. -/
theorem init_inOrder {cmphNew : List K → K → UInt32} (h : IsPerfectHash (cmphNew (infos.map key)) (infos.map key)) :
    ∃ t, (∀ n ≥ 2 * infos.length + 1, init key cmphNew n infos = .ok t) ∧
      t.cmphSearch = cmphNew (infos.map key) ∧ t.InOrder key infos := by
  obtain ⟨l, hl, hperm, hplaced⟩ := hashOrder_spec (hasPlaces h)
  refine ⟨⟨l, cmphNew (infos.map key)⟩, fun n hn => ?_, rfl, hperm, fun info hinfo => ?_⟩
  · rw [init]
    rw [hashOrder_mono hl hn]
    rfl
  · obtain ⟨i, hi⟩ := List.mem_iff_getElem?.1 (hperm.mem_iff.2 hinfo)
    rw [hplaced i info hi]
    exact hi

/-- An index of the hash is in the table. -/
theorem InOrder.exists_info (h : t.InOrder key infos) (hhash : IsPerfectHash t.cmphSearch (infos.map key))
    (hne : infos ≠ []) (id : K) : ∃ info ∈ infos, t.infos[(t.cmphSearch id).toNat]? = some info := by
  have hlt : (t.cmphSearch id).toNat < t.infos.length := by
    rw [h.perm.length_eq, ← List.length_map key]
    by_cases hid : id ∈ infos.map key
    · exact hhash.bijOn.mapsTo hid
    · exact hhash.lt (fun hnil => hne (List.map_eq_nil_iff.1 hnil)) id hid
  exact ⟨_, h.perm.mem_iff.1 (List.getElem_mem hlt), List.getElem?_eq_getElem hlt⟩

theorem FindsAll.map {find : K → Exec (Option R)} (h : FindsAll key id infos find) (view : R → V) :
    FindsAll key view infos fun id => Option.map view <$> find id := by
  constructor
  · intro info hinfo
    rw [h.present info hinfo]
    rfl
  · intro hne id hid
    rw [h.absent hne id hid]
    rfl

variable [DecidableEq K]

/-- In a table that is in order, the ids are found. -/
theorem InOrder.findsAll (h : t.InOrder key infos) (hhash : IsPerfectHash t.cmphSearch (infos.map key)) :
    FindsAll key id infos (t.find key) := by
  constructor
  · intro info hinfo
    rw [find, h.placed info hinfo]
    exact congrArg Except.ok (if_neg (not_not.2 rfl))
  · intro hne id hid
    obtain ⟨info, hinfo, hget⟩ := h.exists_info hhash hne id
    rw [find, hget]
    exact congrArg Except.ok (if_pos (hid info hinfo))

theorem found (key : R → K) (cmphNew : List K → K → UInt32) : Found key id cmphNew (find key) := by
  intro infos h
  obtain ⟨t, ht, hsearch, horder⟩ := init_inOrder h
  exact ⟨t, _, ht, horder, horder.findsAll (by rwa [hsearch])⟩

theorem Found.map {cmphNew : List K → K → UInt32} (h : Found key id cmphNew (find key)) (view : R → V) :
    Found key view cmphNew fun t id => Option.map view <$> t.find key id := by
  intro infos hhash
  obtain ⟨t, n₀, ht, horder, hfinds⟩ := h infos hhash
  exact ⟨t, n₀, ht, horder, hfinds.map view⟩

end InfoTable

/-- The portals of a map are looked up in the map. -/
theorem wzGetPortalInfo_eq (t : InfoTable UInt32 MapPortals) (id : UInt32) (pid : UInt8) :
    t.portalData.wzGetPortalInfo id pid =
      (fun m => m.bind fun m : MapPortals => m.portals[pid.toNat]?) <$> wzGetMap t id := by
  rw [PortalData.wzGetPortalInfo, PortalData.mapInfo, InfoTable.portalData, wzGetMap, InfoTable.find]
  dsimp only
  cases t.infos[(t.cmphSearch id).toNat]? with
  | none => rfl
  | some m =>
    dsimp only
    split
    · rename_i hne
      exact congrArg Except.ok (if_pos hne)
    · rename_i heq
      exact congrArg Except.ok (if_neg heq)

theorem portals_found (cmphNew : List UInt32 → UInt32 → UInt32) : PortalsFound cmphNew := by
  intro maps hhash
  obtain ⟨t, n₀, ht, -, hfinds⟩ := InfoTable.found MapPortals.id cmphNew maps hhash
  refine ⟨t, n₀, ht, fun m hm pid => ?_, fun hne id hid pid => ?_⟩
  · rw [wzGetPortalInfo_eq, wzGetMap, hfinds.present m hm]
    rfl
  · rw [wzGetPortalInfo_eq, wzGetMap, hfinds.absent hne id hid]
    rfl

/-- In every table, whatever the order of its records, the loop ends, and all records are found by their ids. -/
theorem infos_found (cmphNew16 : List UInt16 → UInt16 → UInt32) (cmphNew32 : List UInt32 → UInt32 → UInt32) :
    InfosFound cmphNew16 cmphNew32 where
  drops := (InfoTable.found DropInfoNode.id cmphNew32).map DropInfoNode.info
  reactorDrops := (InfoTable.found DropInfoNode.id cmphNew32).map DropInfoNode.info
  shops := (InfoTable.found ShopInfoNode.id cmphNew32).map ShopInfoNode.info
  maps := InfoTable.found MapPortals.id cmphNew32
  portals := portals_found cmphNew32
  equips := InfoTable.found EquipInfo.id cmphNew32
  consumables := InfoTable.found ConsumableInfo.id cmphNew32
  mobs := InfoTable.found MobInfo.id cmphNew32
  quests := InfoTable.found QuestInfo.id cmphNew16
  items := InfoTable.found ItemInfo.id cmphNew32
  reactors := InfoTable.found ReactorInfo.id cmphNew32
  skills := InfoTable.found SkillRecord.id cmphNew32
  mobSkills := InfoTable.found SkillRecord.id cmphNew32

/-- Three shops. -/
def threeShops : List ShopInfoNode := [⟨30, [⟨2000000, 50⟩]⟩, ⟨10, []⟩, ⟨20, [⟨2000001, 7⟩]⟩]

/-- A hash of their ids, by which none of them is at its index. -/
def threeShopsHash (_ : List UInt32) (id : UInt32) : UInt32 := if id = 10 then 0 else if id = 20 then 1 else 2

/-- They are put in order, and found. -/
theorem infos_found_three : ∃ t n₀,
    (∀ n ≥ n₀, InfoTable.init ShopInfoNode.id threeShopsHash n threeShops = .ok t) ∧
    shopInfoFind t 20 = .ok (some [⟨2000001, 7⟩]) ∧ shopInfoFind t 40 = .ok none := by
  have hhash : IsPerfectHash (threeShopsHash [30, 10, 20]) [30, 10, 20] := by
    refine ⟨by decide, ⟨?_, ?_, ?_⟩, fun _ id _ => ?_⟩
    · intro id hid
      simp only [List.mem_cons, List.not_mem_nil, or_false, Set.mem_ofPred_eq] at hid
      rcases hid with rfl | rfl | rfl <;> decide
    · intro a ha b hb
      simp only [List.mem_cons, List.not_mem_nil, or_false, Set.mem_ofPred_eq] at ha hb
      rcases ha with rfl | rfl | rfl <;> rcases hb with rfl | rfl | rfl <;> decide
    · intro i hi
      have hi : i < 3 := hi
      interval_cases i
      · exact ⟨10, by decide, rfl⟩
      · exact ⟨20, by decide, rfl⟩
      · exact ⟨30, by decide, rfl⟩
    · rw [threeShopsHash]
      split
      · decide
      · split <;> decide
  obtain ⟨t, n₀, ht, -, hfinds⟩ := (infos_found (fun _ _ => 0) threeShopsHash).shops threeShops hhash
  refine ⟨t, n₀, ht, ?_, ?_⟩
  · exact hfinds.present ⟨20, [⟨2000001, 7⟩]⟩ (by simp [threeShops])
  · exact hfinds.absent (List.cons_ne_nil _ _) 40 (by simp [threeShops])

/-! ## From the database -/

section Database

variable {cmphNew : List UInt32 → UInt32 → UInt32}

/-- What is found of records that have been made of other things is found of these. -/
theorem InfoTable.FindsAll.of_map {K R S V : Type} {key : R → K} {view : R → V} {f : S → R} {l : List S}
    {find : K → Exec (Option V)} (h : FindsAll key view (l.map f) find) :
    FindsAll (fun s => key (f s)) (fun s => view (f s)) l find := by
  constructor
  · intro s hs
    exact h.present (f s) (List.mem_map_of_mem hs)
  · intro hne id hid
    refine h.absent (fun hnil => hne (List.map_eq_nil_iff.1 hnil)) id fun info hinfo => ?_
    obtain ⟨s, hs, rfl⟩ := List.mem_map.1 hinfo
    exact hid s hs

end Database

/-! ## What the program looks up -/

namespace InfoTable

variable {K R : Type} [DecidableEq K] {key : R → K} {t : InfoTable K R} {id : K}

/-- Every key has an index in the table. -/
def InBounds (t : InfoTable K R) : Prop := ∀ id, (t.cmphSearch id).toNat < t.infos.length

/-- The record of an id, if there is one. -/
def look (key : R → K) (t : InfoTable K R) (id : K) : Option R :=
  t.infos[(t.cmphSearch id).toNat]?.filter fun info => key info = id

theorem look_key {info : R} (h : t.look key id = some info) : key info = id :=
  of_decide_eq_true (Option.filter_eq_some_iff.1 h).2

theorem find_eq_look (h : t.InBounds) (id : K) : t.find key id = .ok (t.look key id) := by
  have hlt := h id
  rw [find, look, List.getElem?_eq_getElem hlt, Option.filter_some]
  by_cases heq : key t.infos[(t.cmphSearch id).toNat] = id
  · rw [if_pos (decide_eq_true heq)]
    exact congrArg Except.ok (if_neg (not_not.2 heq))
  · rw [if_neg (by simpa using heq)]
    exact congrArg Except.ok (if_pos heq)

end InfoTable

/-- The tables of a server that has started. -/
structure Infos where
  maps : InfoTable UInt32 MapPortals
  mobs : InfoTable UInt32 MobInfo
  quests : InfoTable UInt16 QuestInfo
  items : InfoTable UInt32 ItemInfo
  equips : InfoTable UInt32 EquipInfo
  consumables : InfoTable UInt32 ConsumableInfo
  shops : InfoTable UInt32 ShopInfoNode
  drops : InfoTable UInt32 DropInfoNode
  reactorDrops : InfoTable UInt32 DropInfoNode

namespace Infos

variable (t : Infos)

/-- What is looked up in the tables. -/
def wz : Wz where
  itemInfo := t.items.look ItemInfo.id
  itemInfo_id := InfoTable.look_key
  equipInfo := t.equips.look EquipInfo.id
  equipInfo_id := InfoTable.look_key
  consumableInfo := t.consumables.look ConsumableInfo.id
  consumableInfo_id := InfoTable.look_key
  questInfo := t.quests.look QuestInfo.id
  questInfo_id := InfoTable.look_key
  mapForcedReturn id := (t.maps.portalData.wzGetMapForcedReturn id).toOption.getD id
  shopInfo id := (t.shops.look ShopInfoNode.id id).map ShopInfoNode.info

/-- The environment of maps with these tables. -/
def mapEnv (env : MapEnv) : MapEnv where
  toWz := t.wz
  hash16 := env.hash16
  hash32 := env.hash32
  unitPriceTimes := env.unitPriceTimes
  monsterHp id := (t.mobs.look MobInfo.id id).map MobInfo.hp
  dropInfo id := (t.drops.look DropInfoNode.id id).map DropInfoNode.info
  reactorDropInfo id := (t.reactorDrops.look DropInfoNode.id id).map DropInfoNode.info
  maxSpawnCount := env.maxSpawnCount
  maxSpawnCount_le := env.maxSpawnCount_le

/-- No lookup leaves its table. -/
structure InBounds : Prop where
  maps : t.maps.InBounds
  mobs : t.mobs.InBounds
  quests : t.quests.InBounds
  items : t.items.InBounds
  equips : t.equips.InBounds
  consumables : t.consumables.InBounds
  shops : t.shops.InBounds
  drops : t.drops.InBounds
  reactorDrops : t.reactorDrops.InBounds

/-- The functions of the program return what the environment says. -/
structure LooksUp (env : MapEnv) : Prop where
  itemInfo : ∀ id, wzGetItemInfo t.items id = .ok (env.itemInfo id)
  equipInfo : ∀ id, wzGetEquipInfo t.equips id = .ok (env.equipInfo id)
  consumableInfo : ∀ id, wzGetConsumableInfo t.consumables id = .ok (env.consumableInfo id)
  questInfo : ∀ id, wzGetQuestInfo t.quests id = .ok (env.questInfo id)
  mapForcedReturn : ∀ id, t.maps.portalData.wzGetMapForcedReturn id = .ok (env.mapForcedReturn id)
  shopInfo : ∀ id, shopInfoFind t.shops id = .ok (env.shopInfo id)
  monsterHp : ∀ id, Option.map MobInfo.hp <$> wzGetMonsterStats t.mobs id = .ok (env.monsterHp id)
  dropInfo : ∀ id, dropInfoFind t.drops id = .ok (env.dropInfo id)
  reactorDropInfo : ∀ id, reactorDropInfoFind t.reactorDrops id = .ok (env.reactorDropInfo id)

variable {t}

theorem InBounds.looksUp (h : t.InBounds) (env : MapEnv) : t.LooksUp (t.mapEnv env) where
  itemInfo := InfoTable.find_eq_look h.items
  equipInfo := InfoTable.find_eq_look h.equips
  consumableInfo := InfoTable.find_eq_look h.consumables
  questInfo := InfoTable.find_eq_look h.quests
  mapForcedReturn id := by
    have hlt : (t.maps.cmphSearch id).toNat < t.maps.infos.length := h.maps id
    have hmap : t.maps.portalData.mapInfo id = .ok t.maps.infos[(t.maps.cmphSearch id).toNat] := by
      rw [PortalData.mapInfo, InfoTable.portalData, List.getElem?_eq_getElem hlt]
    change _ = Except.ok ((t.maps.portalData.wzGetMapForcedReturn id).toOption.getD id)
    rw [PortalData.wzGetMapForcedReturn, hmap]
    rfl
  shopInfo id := by
    rw [shopInfoFind, InfoTable.find_eq_look h.shops]
    rfl
  monsterHp id := by
    rw [wzGetMonsterStats, InfoTable.find_eq_look h.mobs]
    rfl
  dropInfo id := by
    rw [dropInfoFind, InfoTable.find_eq_look h.drops]
    rfl
  reactorDropInfo id := by
    rw [reactorDropInfoFind, InfoTable.find_eq_look h.reactorDrops]
    rfl

end Infos

end Syrup
