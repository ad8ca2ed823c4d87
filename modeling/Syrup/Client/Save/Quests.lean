import Syrup.Client.Save.Progress

/-!
# The quests, saved and loaded again

The quests are saved in one list, and their progress in another one. The login makes a set of blank
quests of the first list, and then writes every progress to the quest it belongs to. As no quest is
there twice, each of them gets the progress that has been saved of it, and no other.

Meanwhile the items of the quests are looked up, so that an item that is not known is in the way of
the login (`loadQuests_iff`).
-/

namespace Syrup

open HashSet

namespace Exec

variable {α β : Type}

/-- A loop returns if and only if each of its rounds does, where what has been done before is no
    matter. -/
theorem foldlM_ok_iff {P : β → Prop} {Q : α → Prop} {f : β → α → Exec β}
    (hstep : ∀ a b, P b → ((∃ b', f b a = .ok b') ↔ Q a))
    (hP : ∀ a b b', P b → f b a = .ok b' → P b') {l : List α} {b : β} (hb : P b) :
    (∃ b', l.foldlM f b = .ok b') ↔ ∀ a ∈ l, Q a := by
  induction l generalizing b with
  | nil => exact ⟨fun _ => nofun, fun _ => ⟨b, rfl⟩⟩
  | cons a l ih =>
    rw [List.foldlM_cons, List.forall_mem_cons, ← hstep a b hb]
    constructor
    · rintro ⟨b', h⟩
      obtain ⟨b₁, h₁, h⟩ := bind_eq_ok.1 h
      exact ⟨⟨b₁, h₁⟩, (ih (hP a b b₁ hb h₁)).1 ⟨b', h⟩⟩
    · rintro ⟨⟨b₁, h₁⟩, hl⟩
      obtain ⟨b', h⟩ := (ih (hP a b b₁ hb h₁)).2 hl
      exact ⟨b', bind_eq_ok.2 ⟨b₁, h₁, h⟩⟩

end Exec

namespace Represents

variable {R K : Type} {h : Hashing R K} {set set' : HashSet R} {m : K → Option R}

/-- A set with other records under the same keys. -/
theorem map (hr : Represents h set m) {f : R → R} (hf : ∀ r, h.key (f r) = h.key r)
    (hw : set'.WF h) (he : set'.entries = set.entries.map f) :
    Represents h set' fun k => (m k).map f := by
  refine ⟨hw, ?_, fun k r => ?_⟩
  · have hkeys : h.key ∘ f = h.key := funext hf
    rw [he, Multiset.map_map, hkeys]
    exact hr.nodup
  · rw [he, Option.map_eq_some_iff, Multiset.mem_map]
    constructor
    · rintro ⟨q, hq, rfl⟩
      obtain ⟨hq, hk⟩ := (hr.lookup k q).1 hq
      exact ⟨⟨q, hq, rfl⟩, (hf q).trans hk⟩
    · rintro ⟨⟨q, hq, rfl⟩, hk⟩
      exact ⟨q, (hr.lookup k q).2 ⟨hq, (hf q).symm.trans hk⟩, rfl⟩

/-- The records of two sets that represent maps are the same, as far as it is told by an `f` that tells
    their keys, if and only if the maps are. -/
theorem perm_iff {S : Type} (hr : Represents h set m) {m' : K → Option R}
    (hr' : Represents h set' m') {f : R → S} (key : S → K) (hf : ∀ r, key (f r) = h.key r) :
    (set'.records.map f).Perm (set.records.map f) ↔ ∀ k, (m' k).map f = (m k).map f := by
  have hnodup {set : HashSet R} {m : K → Option R} (hr : Represents h set m) :
      (set.records.map f).Nodup := by
    refine List.Nodup.of_map key ?_
    have hkeys : key ∘ f = h.key := funext hf
    rw [List.map_map, hkeys]
    exact hr.records_nodup
  have hmem {set : HashSet R} {m : K → Option R} (hr : Represents h set m) (s : S) :
      s ∈ set.records.map f ↔ (m (key s)).map f = some s := by
    rw [List.mem_map, Option.map_eq_some_iff]
    refine exists_congr fun r => and_congr_left fun hs => ?_
    rw [hr.mem_records, ← hs, hf]
  rw [List.perm_ext_iff_of_nodup (hnodup hr') (hnodup hr)]
  simp only [hmem hr, hmem hr']
  refine ⟨fun hs k => ?_, fun hk s => by rw [hk]⟩
  -- What is under a key tells the key.
  have hself {set : HashSet R} {m : K → Option R} (hr : Represents h set m) {s : S}
      (h : (m k).map f = some s) : key s = k := by
    obtain ⟨r, hrk, rfl⟩ := Option.map_eq_some_iff.1 h
    rw [hf]
    exact ((hr.lookup k r).1 hrk).2
  refine Option.ext fun s => ⟨fun hs' => ?_, fun hs' => ?_⟩
  · have hk := hself hr' hs'
    rw [← hk] at hs' ⊢
    exact (hs s).1 hs'
  · have hk := hself hr hs'
    rw [← hk] at hs' ⊢
    exact (hs s).2 hs'

end Represents

/-! ## The items of quests -/

/-- An item that can be looked up, and counted if it is one that is found only for quests. -/
def ItemKnown (env : Env) (id : UInt32) : Prop :=
  ∃ info, env.itemInfo id = some info ∧
    (info.quest = true → (id / 1000000).toUInt8 = 1 ∨ ∃ k, inventoryOfId id = .ok k)

/-- The items of a quest can be looked up. -/
def QuestInfo.ItemsKnown (env : Env) (info : QuestInfo) : Prop :=
  ∀ id count, .item id count ∈ info.endRequirements → ItemKnown env id

/-- The sets are hash sets. -/
structure QuestSets.WF (env : Env) (s : QuestSets) : Prop where
  quests : s.quests.WF env.quests
  monsterQuests : s.monsterQuests.WF env.monsterQuests
  itemQuests : s.itemQuests.WF env.itemQuests

variable {env : Env} {chr : Character} {s s' : QuestSets}

theorem QuestSets.empty_wf : QuestSets.empty.WF env :=
  ⟨hashSetInit_wf, hashSetInit_wf, hashSetInit_wf⟩

theorem itemTotal_iff (chr : Character) {id : UInt32} :
    (∃ total, itemTotal chr id = .ok total) ↔
      (id / 1000000).toUInt8 = 1 ∨ ∃ k, inventoryOfId id = .ok k := by
  rw [itemTotal]
  split
  · rename_i h
    exact iff_of_true ⟨_, rfl⟩ (.inl h)
  · rename_i h
    constructor
    · rintro ⟨total, htotal⟩
      obtain ⟨k, hk, -⟩ := Exec.bind_eq_ok.1 htotal
      exact .inr ⟨k, hk⟩
    · rintro (h' | ⟨k, hk⟩)
      · exact absurd h' h
      · exact ⟨_, Exec.bind_eq_ok.2 ⟨k, hk, rfl⟩⟩

theorem loadItemQuest_iff {set : HashSet UInt32} (hw : set.WF env.itemQuests)
    (r : QuestRequirement) :
    (∃ set', loadItemQuest env true chr set r = .ok set') ↔
      ∀ id count, r = .item id count → ItemKnown env id := by
  cases r with
  | item id count =>
    rw [loadItemQuest]
    constructor
    · rintro ⟨set', h⟩ id' count' e
      cases e
      obtain ⟨info, hinfo, h⟩ := Exec.bind_eq_ok.1 h
      refine ⟨info, Exec.deref_eq_ok.1 hinfo, fun hquest => (itemTotal_iff chr).1 ?_⟩
      rw [if_pos hquest] at h
      obtain ⟨total, htotal, -⟩ := Exec.bind_eq_ok.1 h
      exact ⟨total, htotal⟩
    · intro h
      obtain ⟨info, hinfo, hknown⟩ := h id count rfl
      by_cases hquest : info.quest = true
      · obtain ⟨total, htotal⟩ := (itemTotal_iff chr).2 (hknown hquest)
        obtain ⟨set₁, h₁, -⟩ := insertRecord_spec hw id
        refine ⟨if total < count then set₁ else set,
          Exec.bind_eq_ok.2 ⟨info, Exec.deref_eq_ok.2 hinfo, ?_⟩⟩
        rw [if_pos hquest]
        refine Exec.bind_eq_ok.2 ⟨total, htotal, ?_⟩
        split
        · exact h₁
        · rfl
      · refine ⟨set, Exec.bind_eq_ok.2 ⟨info, Exec.deref_eq_ok.2 hinfo, ?_⟩⟩
        rw [if_neg hquest]
        rfl
  | _ => exact iff_of_true ⟨set, rfl⟩ nofun

theorem loadItemQuest_wf {set set' : HashSet UInt32} {r : QuestRequirement}
    (hw : set.WF env.itemQuests) (h : loadItemQuest env true chr set r = .ok set') :
    set'.WF env.itemQuests := by
  cases r with
  | item id count =>
    obtain ⟨info, -, h⟩ := Exec.bind_eq_ok.1 h
    split at h
    · obtain ⟨total, -, h⟩ := Exec.bind_eq_ok.1 h
      split at h
      · obtain ⟨set₁, h₁, hw₁, -⟩ := insertRecord_spec hw id
        rw [h₁] at h
        cases h
        exact hw₁
      · cases h
        exact hw
    · cases h
      exact hw
  | _ =>
    cases h
    exact hw

/-! ## The list of quests -/

/-- A quest that can be looked up, with its items. -/
def QuestKnown (env : Env) (id : UInt16) : Prop :=
  ∃ info, env.questInfo id = some info ∧ info.ItemsKnown env

theorem loadQuest_iff (hw : s.WF env) (id : UInt16) :
    (∃ s', loadQuest env true chr s id = .ok s') ↔ QuestKnown env id := by
  have hitems (info : QuestInfo) :
      (∃ set', info.endRequirements.foldlM (loadItemQuest env true chr) s.itemQuests = .ok set') ↔
        info.ItemsKnown env := by
    rw [Exec.foldlM_ok_iff (P := fun set : HashSet UInt32 => set.WF env.itemQuests)
      (fun r set hset => loadItemQuest_iff hset r) (fun _ _ _ => loadItemQuest_wf) hw.itemQuests]
    exact ⟨fun h id count hr => h _ hr id count rfl, fun h r hr id count e => h id count (e ▸ hr)⟩
  rw [loadQuest]
  constructor
  · rintro ⟨s', h⟩
    obtain ⟨quests, -, h⟩ := Exec.bind_eq_ok.1 h
    obtain ⟨info, hinfo, h⟩ := Exec.bind_eq_ok.1 h
    obtain ⟨itemQuests, hfold, -⟩ := Exec.bind_eq_ok.1 h
    exact ⟨info, Exec.deref_eq_ok.1 hinfo, (hitems info).1 ⟨itemQuests, hfold⟩⟩
  · rintro ⟨info, hinfo, hknown⟩
    obtain ⟨quests, hquests, -⟩ := insertRecord_spec hw.quests (.blank id)
    obtain ⟨itemQuests, hfold⟩ := (hitems info).2 hknown
    exact ⟨_, Exec.bind_eq_ok.2 ⟨quests, hquests, Exec.bind_eq_ok.2
      ⟨info, Exec.deref_eq_ok.2 hinfo, Exec.bind_eq_ok.2 ⟨itemQuests, hfold, rfl⟩⟩⟩⟩

theorem loadQuest_spec {id : UInt16} (hw : s.WF env) (h : loadQuest env true chr s id = .ok s') :
    s'.WF env ∧ s'.quests.entries = .blank id ::ₘ s.quests.entries := by
  obtain ⟨quests, hquests, h⟩ := Exec.bind_eq_ok.1 h
  obtain ⟨info, -, h⟩ := Exec.bind_eq_ok.1 h
  obtain ⟨itemQuests, hfold, h⟩ := Exec.bind_eq_ok.1 h
  cases h
  obtain ⟨quests', hquests', hqw, hqe⟩ := insertRecord_spec hw.quests (.blank id)
  have : quests' = quests := Except.ok.inj (hquests'.symm.trans hquests)
  subst this
  exact ⟨⟨hqw, hw.monsterQuests, Exec.foldlM_invariant hfold
    (fun _ _ _ _ hset h => loadItemQuest_wf hset h) hw.itemQuests⟩, hqe⟩

theorem loadQuestList_spec {l : List UInt16} (hw : s.WF env)
    (h : l.foldlM (loadQuest env true chr) s = .ok s') :
    s'.WF env ∧ s'.quests.entries = ↑(l.map Quest.blank) + s.quests.entries := by
  induction l generalizing s with
  | nil =>
    cases h
    exact ⟨hw, (zero_add _).symm⟩
  | cons id l ih =>
    rw [List.foldlM_cons] at h
    obtain ⟨s₁, h₁, h⟩ := Exec.bind_eq_ok.1 h
    obtain ⟨hw₁, he₁⟩ := loadQuest_spec hw h₁
    obtain ⟨hw', he'⟩ := ih hw₁ h
    refine ⟨hw', ?_⟩
    rw [he', he₁, List.map_cons, ← Multiset.cons_coe, ← Multiset.singleton_add,
      ← Multiset.singleton_add]
    abel

/-! ## The list of progresses -/

theorem countGoal_spec {set : HashSet MonsterRefCount} (hw : set.WF env.monsterQuests)
    (p : SavedProgress) (mob : QuestMob) :
    ∃ set', countGoal env true set p mob = .ok set' ∧ set'.WF env.monsterQuests := by
  rw [countGoal]
  split
  · rw [countMonster]
    cases hg : hashSetGet env.monsterQuests set p.progressId with
    | none =>
      obtain ⟨set', h, hw', -⟩ := insertRecord_spec hw ⟨p.progressId, 1⟩
      exact ⟨set', h, hw'⟩
    | some m =>
      have hkey : env.monsterQuests.key { m with refCount := m.refCount + 1 } =
        env.monsterQuests.key m := rfl
      exact ⟨_, rfl, (hashSetWrite_spec hw hg hkey).1⟩
  · exact ⟨set, rfl, hw⟩

theorem Quest.write_id {q q' : Quest} {j : ℕ} {v : Int32} (h : q.write j v = .ok q') :
    q'.id = q.id := by
  rw [Quest.write] at h
  split at h
  · cases h
    rfl
  · cases h

theorem reloadProgress_id {mobs : List QuestMob} {q q' : Quest} {p : SavedProgress}
    (h : reloadProgress mobs q p = .ok q') : q'.id = q.id := by
  obtain ⟨j, -, h⟩ := Exec.bind_eq_ok.1 h
  exact Quest.write_id h

variable {m : UInt16 → Option Quest} {info : QuestInfo} {q q' : Quest}

theorem loadProgress_spec {p : SavedProgress} (hw : s.WF env)
    (hr : Represents env.quests s.quests m) (hq : m p.questId = some q)
    (hinfo : env.questInfo p.questId = some info)
    (h : reloadProgress (questMobs info) q p = .ok q') :
    ∃ s', loadProgress env true s p = .ok s' ∧ s'.WF env ∧
      Represents env.quests s'.quests (Function.update m p.questId (some q')) := by
  have hid : q.id = p.questId := ((hr.lookup _ q).1 hq).2
  have hid' : q'.id = q.id := reloadProgress_id h
  obtain ⟨⟨j, mob⟩, hmob, hwrite⟩ := Exec.bind_eq_ok.1 h
  obtain ⟨monsterQuests, hcount, hmw⟩ := countGoal_spec hw.monsterQuests p mob
  have hquests := hr.write hq hid'
  refine ⟨⟨_, monsterQuests, s.itemQuests⟩, ?_, ⟨hquests.wf, hmw, hw.itemQuests⟩, hquests⟩
  refine Exec.bind_eq_ok.2 ⟨q, Exec.deref_eq_ok.2 ((hr.get_eq _).trans hq), ?_⟩
  refine Exec.bind_eq_ok.2 ⟨info, Exec.deref_eq_ok.2 (by rw [hid, hinfo]), ?_⟩
  refine Exec.bind_eq_ok.2 ⟨(j, mob), hmob, ?_⟩
  refine Exec.bind_eq_ok.2 ⟨monsterQuests, hcount, ?_⟩
  exact Exec.bind_eq_ok.2 ⟨q', hwrite, rfl⟩

/-- The progresses of one quest. -/
theorem loadProgresses_one {id : UInt16} (hinfo : env.questInfo id = some info)
    {l : List SavedProgress} (hl : ∀ p ∈ l, p.questId = id) (hw : s.WF env)
    (hr : Represents env.quests s.quests m) (hq : m id = some q)
    (h : l.foldlM (reloadProgress (questMobs info)) q = .ok q') :
    ∃ s', l.foldlM (loadProgress env true) s = .ok s' ∧ s'.WF env ∧
      Represents env.quests s'.quests (Function.update m id (some q')) := by
  induction l generalizing s m q with
  | nil =>
    cases h
    refine ⟨s, rfl, hw, ?_⟩
    rw [← hq, Function.update_eq_self]
    exact hr
  | cons p l ih =>
    have hp : p.questId = id := hl p List.mem_cons_self
    rw [List.foldlM_cons] at h
    obtain ⟨q₁, h₁, h⟩ := Exec.bind_eq_ok.1 h
    obtain ⟨s₁, hs₁, hw₁, hr₁⟩ := loadProgress_spec hw hr (hp ▸ hq) (hp ▸ hinfo) h₁
    rw [hp] at hr₁
    obtain ⟨s', hs', hw', hr'⟩ := ih (fun p hp => hl p (List.mem_cons_of_mem _ hp)) hw₁ hr₁
      (Function.update_self ..) h
    refine ⟨s', ?_, hw', ?_⟩
    · rw [List.foldlM_cons]
      exact Exec.bind_eq_ok.2 ⟨s₁, hs₁, hs'⟩
    · rw [Function.update_idem] at hr'
      exact hr'

/-- The progresses of all quests: what is written to one of them leaves the others alone. -/
theorem loadProgresses_all {rs : List Quest} {e : Quest → List SavedProgress} {g : Quest → Quest}
    (he : ∀ q ∈ rs, ∃ info, env.questInfo q.id = some info ∧ (∀ p ∈ e q, p.questId = q.id) ∧
      (e q).foldlM (reloadProgress (questMobs info)) (.blank q.id) = .ok (g q))
    (hnodup : (rs.map Quest.id).Nodup) (hw : s.WF env) (hr : Represents env.quests s.quests m)
    (hm : ∀ q ∈ rs, m q.id = some (.blank q.id)) :
    ∃ s' m', (rs.flatMap e).foldlM (loadProgress env true) s = .ok s' ∧
      Represents env.quests s'.quests m' ∧ (∀ q ∈ rs, m' q.id = some (g q)) ∧
      ∀ id ∉ rs.map Quest.id, m' id = m id := by
  induction rs generalizing s m with
  | nil => exact ⟨s, m, rfl, hr, nofun, fun _ _ => rfl⟩
  | cons q rs ih =>
    obtain ⟨hnot, hnodup⟩ := List.nodup_cons.1 hnodup
    obtain ⟨info, hinfo, hids, hreload⟩ := he q List.mem_cons_self
    obtain ⟨s₁, hs₁, hw₁, hr₁⟩ :=
      loadProgresses_one hinfo hids hw hr (hm q List.mem_cons_self) hreload
    have hkeep : ∀ r ∈ rs, Function.update m q.id (some (g q)) r.id = some (.blank r.id) := by
      intro r hrs
      have hne : r.id ≠ q.id := fun heq => hnot (heq ▸ List.mem_map_of_mem hrs)
      rw [Function.update_of_ne hne]
      exact hm r (List.mem_cons_of_mem _ hrs)
    obtain ⟨s', m', hs', hr', hall, hrest⟩ :=
      ih (fun r hr => he r (List.mem_cons_of_mem _ hr)) hnodup hw₁ hr₁ hkeep
    refine ⟨s', m', ?_, hr', fun r hrs => ?_, fun id hid => ?_⟩
    · rw [List.flatMap_cons, List.foldlM_append]
      exact Exec.bind_eq_ok.2 ⟨s₁, hs₁, hs'⟩
    · rcases List.mem_cons.1 hrs with rfl | hrs
      · rw [hrest _ hnot, Function.update_self]
      · exact hall r hrs
    · rw [List.map_cons, List.mem_cons, not_or] at hid
      rw [hrest id hid.2, Function.update_of_ne hid.1]

/-! ## All of them -/

/-- A quest that is as it was after it has been saved and loaded. -/
def QuestSurvives (env : Env) (q : Quest) : Prop :=
  ∃ info, env.questInfo q.id = some info ∧ info.ItemsKnown env ∧ q.Matches (questMobs info) ∧
    q.ProgressSurvives (questMobs info)

/-- The lists of quests and their progress. -/
structure QuestsSaved (env : Env) (chr : Character) (s : SavedCharacter) : Prop where
  quests : s.quests = chr.quests.records.map Quest.id
  progresses : ∃ e : Quest → List SavedProgress,
    (∀ q ∈ chr.quests.records, savedProgress env q = .ok (e q)) ∧
      s.progresses = chr.quests.records.flatMap e

/-- The progress that has been saved of a quest, loaded again. -/
theorem savedProgress_reload {l : List SavedProgress} (h : savedProgress env q = .ok l) :
    ∃ info q', env.questInfo q.id = some info ∧ q.Matches (questMobs info) ∧
      (∀ p ∈ l, p.questId = q.id) ∧
      l.foldlM (reloadProgress (questMobs info)) (.blank q.id) = .ok q' ∧ q'.id = q.id ∧
      (q'.kept = q.kept ↔ q.ProgressSurvives (questMobs info)) := by
  obtain ⟨info, hinfo, hm, rfl⟩ := savedProgress_eq_ok.1 h
  obtain ⟨q', hq', hid, hkept⟩ := reloadQuest hm
  refine ⟨info, q', hinfo, hm, fun p hp => ?_, hq', hid, hkept⟩
  obtain ⟨i, -, rfl⟩ := List.mem_map.1 hp
  rfl

/-- The quests are as they were, after they have been saved and loaded, if and only if each of them
    is. -/
theorem loadQuests_iff {saved : SavedCharacter} (hr : Represents env.quests chr.quests m)
    (hs : QuestsSaved env chr saved) (old : Character) :
    (∃ sets, loadQuests env true saved old = .ok sets ∧
      (sets.quests.records.map Quest.kept).Perm (chr.quests.records.map Quest.kept)) ↔
      ∀ q ∈ chr.quests.records, QuestSurvives env q := by
  obtain ⟨e, he, hprogresses⟩ := hs.progresses
  have : Inhabited QuestInfo := ⟨⟨0, [], [], false, false, [], []⟩⟩
  choose! info g hinfo hmatches hids hreload hgid hkept using fun q hq => savedProgress_reload (he q hq)
  -- The first list can be loaded if all quests are known, and then the second one can.
  have hfirst : (∃ sets, saved.quests.foldlM (loadQuest env true old) .empty = .ok sets) ↔
      ∀ q ∈ chr.quests.records, QuestKnown env q.id := by
    rw [Exec.foldlM_ok_iff (P := QuestSets.WF env) (fun id s hw => loadQuest_iff hw id)
      (fun _ _ _ hw h => (loadQuest_spec hw h).1) QuestSets.empty_wf, hs.quests,
      List.forall_mem_map]
  have hsecond {sets : QuestSets} (h : saved.quests.foldlM (loadQuest env true old) .empty = .ok sets) :
      ∃ sets', saved.progresses.foldlM (loadProgress env true) sets = .ok sets' ∧
        ((sets'.quests.records.map Quest.kept).Perm (chr.quests.records.map Quest.kept) ↔
          ∀ q ∈ chr.quests.records, (g q).kept = q.kept) := by
    obtain ⟨hw, hentries⟩ := loadQuestList_spec QuestSets.empty_wf h
    have hblank : Represents env.quests sets.quests fun id => (m id).map fun q => .blank q.id := by
      refine hr.map (fun _ => rfl) hw.quests ?_
      rw [hentries, hs.quests, List.map_map, QuestSets.empty, hashSetInit_entries, add_zero,
        ← listEntries_slotList]
      rfl
    obtain ⟨sets', m', hsets', hr', hall, hrest⟩ := loadProgresses_all (e := e) (g := g)
      (fun q hq => ⟨info q, hinfo q hq, hids q hq, hreload q hq⟩) hr.records_nodup hw hblank
      fun q hq => congrArg (Option.map fun q => Quest.blank q.id) ((hr.mem_records q).1 hq)
    refine ⟨sets', hprogresses ▸ hsets', ?_⟩
    rw [hr.perm_iff hr' Prod.fst fun _ => rfl]
    constructor
    · intro hsame q hq
      have hid := hsame q.id
      rw [hall q hq, show m q.id = some q from (hr.mem_records q).1 hq] at hid
      exact Option.some.inj hid
    · intro hsame id
      cases hq : m id with
      | none =>
        have hnot : id ∉ chr.quests.records.map Quest.id := fun hid => by
          obtain ⟨q, hq', rfl⟩ := List.mem_map.1 hid
          have hsome : m q.id = some q := (hr.mem_records q).1 hq'
          rw [hq] at hsome
          cases hsome
        rw [hrest id hnot, hq]
        rfl
      | some q =>
        have hid : q.id = id := ((hr.lookup id q).1 hq).2
        subst hid
        have hq' : q ∈ chr.quests.records := (hr.mem_records q).2 hq
        rw [hall q hq']
        exact congrArg some (hsame q hq')
  have hknown {q : Quest} (hq : q ∈ chr.quests.records) :
      QuestKnown env q.id ↔ (info q).ItemsKnown env := by
    refine ⟨fun ⟨i, hi, h⟩ => ?_, fun h => ⟨info q, hinfo q hq, h⟩⟩
    rw [hinfo q hq] at hi
    cases hi
    exact h
  constructor
  · rintro ⟨sets', h, hsame⟩ q hq
    obtain ⟨sets, hsets, h⟩ := Exec.bind_eq_ok.1 h
    obtain ⟨sets'', hsets'', hperm⟩ := hsecond hsets
    rw [h] at hsets''
    cases hsets''
    exact ⟨info q, hinfo q hq, (hknown hq).1 (hfirst.1 ⟨sets, hsets⟩ q hq), hmatches q hq,
      (hkept q hq).1 (hperm.1 hsame q hq)⟩
  · intro h
    have hsurvives {q : Quest} (hq : q ∈ chr.quests.records) : (info q).ItemsKnown env ∧
        q.ProgressSurvives (questMobs (info q)) := by
      obtain ⟨i, hi, hitems, -, hprogress⟩ := h q hq
      rw [hinfo q hq] at hi
      cases hi
      exact ⟨hitems, hprogress⟩
    obtain ⟨sets, hsets⟩ := hfirst.2 fun q hq => (hknown hq).2 (hsurvives hq).1
    obtain ⟨sets', hsets', hperm⟩ := hsecond hsets
    exact ⟨sets', Exec.bind_eq_ok.2 ⟨sets, hsets, hsets'⟩,
      hperm.2 fun q hq => (hkept q hq).2 (hsurvives hq).2⟩

end Syrup
