import Syrup.Client.Save.Quests
import Syrup.Client.Save.Reload

/-!
# Loading undoes saving

The request with which a character logs out is the record the login gets back. Of what is saved, all
is as it was (`RoundTrip`) if and only if what is worn and carried is in the slots its ids tell, the
progress of the quests fits into what is saved of it, the quests and items are known, the completion
times have a date, and nothing is bound to a key without a type (`roundTrip_iff`).

A player may put a piece of equipment into any of the slots: where it is worn is not saved.
-/

namespace Syrup

open HashSet

/-! ## What is to be the same -/

/-- The stats of a character that are saved. -/
structure BaseStats where
  level : UInt8
  job : UInt16
  exp : Int32
  maxHp : Int16
  hp : Int16
  maxMp : Int16
  mp : Int16
  str : Int16
  dex : Int16
  int_ : Int16
  luk : Int16
  ap : Int16
  sp : Int16
  mesos : Int32
  deriving DecidableEq

/-- The stats of a character. -/
def Character.baseStats (chr : Character) : BaseStats :=
  ⟨chr.level, chr.job, chr.exp, chr.maxHp, chr.hp, chr.maxMp, chr.mp, chr.str, chr.dex, chr.int_,
    chr.luk, chr.ap, chr.sp, chr.mesos⟩

/-- The stats in a record. -/
def SavedCharacter.baseStats (s : SavedCharacter) : BaseStats :=
  ⟨s.level, s.job, s.exp, s.maxHp, s.hp, s.maxMp, s.mp, s.str, s.dex, s.int_, s.luk, s.ap, s.sp,
    s.mesos⟩

/-- What is saved of two characters is the same. The records of a set may be in another order. -/
structure SamePersisted (chr chr' : Character) : Prop where
  stats : chr'.baseStats = chr.baseStats
  worn : chr'.keptWorn = chr.keptWorn
  carried : chr'.keptCarried = chr.keptCarried
  items : chr'.keptStacks = chr.keptStacks
  quests : (chr'.quests.records.map Quest.kept).Perm (chr.quests.records.map Quest.kept)
  questInfos : chr'.questInfos.records.Perm chr.questInfos.records
  completedQuests : chr'.completedQuests.records.Perm chr.completedQuests.records
  skills : chr'.skills.records.Perm chr.skills.records
  monsterBook : chr'.monsterBook.records.Perm chr.monsterBook.records
  keyMap : chr'.keyMap = chr.keyMap

/-- A character is saved, and a character is made of the record in the memory of another one. -/
def RoundTrip (env : Env) (alloc : Bool) (chr old : Character) : Prop :=
  ∃ r chr', clientResumeSave env alloc chr = .ok r ∧
    clientResumeLoad env true r.toSavedCharacter old = .ok chr' ∧ SamePersisted chr chr'

/-- The sets of a character that are iterated over are hash sets, and no quest is there twice. -/
structure SetsFit (env : Env) (chr : Character) : Prop where
  quests : ∃ m, Represents env.quests chr.quests m
  skills : chr.skills.WF env.skills
  monsterBook : chr.monsterBook.WF env.monsterBook

/-- There is a date for a time. -/
def HasDate (time : Int64) : Prop :=
  -2147483648 ≤ (Calendar.gmtime time.toInt).year ∧ (Calendar.gmtime time.toInt).year ≤ 2147483647

/-- Every part of a character is one that can be loaded as it was. -/
structure Survives (env : Env) (chr : Character) : Prop where
  holdings : HoldingsSurvive env chr
  quests : ∀ q ∈ chr.quests.records, QuestSurvives env q
  times : ∀ q ∈ chr.completedQuests.records, HasDate q.time
  keys : ∀ i, (chr.keyMap i).type = 0 → (chr.keyMap i).action = 0

variable {env : Env} {alloc : Bool} {chr : Character} {s : SavedCharacter}

/-! ## The lists of a request -/

/-- A `foreach` that makes a list returns if its callback does, on each record. -/
theorem hashSetU16Foreach_eq_ok {R σ : Type} {set set' : HashSet R} {l : List σ}
    {f : R → List σ → Exec (R × List σ)} (g : R → Exec (List σ))
    (hf : ∀ r l, f r l = do return (r, l ++ (← g r))) :
    hashSetU16Foreach f set [] = .ok (set', l) ↔
      set' = set ∧ ∃ g' : R → List σ, (∀ r ∈ set.records, g r = .ok (g' r)) ∧
        l = set.records.flatMap g' := by
  have : f = fun r l => do return (r, l ++ (← g r)) := funext₂ hf
  rw [this, hashSetU16Foreach_list, Exec.bind_eq_ok]
  constructor
  · rintro ⟨l', hl', h⟩
    cases h
    obtain ⟨g', hg', rfl⟩ := Exec.foldlM_append.1 hl'
    exact ⟨rfl, g', hg', rfl⟩
  · rintro ⟨rfl, g', hg', rfl⟩
    exact ⟨_, Exec.foldlM_append.2 ⟨g', hg', rfl⟩, rfl⟩

/-- A list of one entry for each record. -/
theorem flatMap_of_ok {R σ : Type} {l : List R} {e : R → σ} {g : R → List σ}
    (h : ∀ r ∈ l, (.ok [e r] : Exec (List σ)) = .ok (g r)) : l.flatMap g = l.map e := by
  have hg : ∀ r ∈ l, g r = [e r] := fun r hr => (Except.ok.inj (h r hr)).symm
  rw [List.flatMap_congr hg, ← List.map_eq_flatMap]

/-- The entry of a completed quest, whose time has a date. -/
def savedCompletion (q : CompletedQuest) : SavedCompletedQuest :=
  let tm := Calendar.gmtime q.time.toInt
  ⟨q.id, { year := tm.year + 1900, month := tm.mon + 1, day := tm.mday, hour := tm.hour,
           minute := tm.min, second := tm.sec }⟩

theorem saveTime_eq_ok {q : CompletedQuest} {t : SavedTime} :
    saveTime q.time = .ok t ↔ HasDate q.time ∧ t = (savedCompletion q).time := by
  rw [saveTime]
  constructor
  · intro h
    split at h
    · rename_i hdate
      exact ⟨hdate, (Except.ok.inj h).symm⟩
    · cases h
  · rintro ⟨hdate, rfl⟩
    exact if_pos hdate

/-- A date tells the time it was made of. -/
theorem loadTime_savedCompletion (q : CompletedQuest) :
    loadTime (savedCompletion q).time = q.time := by
  rw [loadTime, savedCompletion]
  simp only [add_sub_cancel_right]
  exact (congrArg Int64.ofInt (Calendar.timegm_gmtime q.time.toInt)).trans (Int64.ofInt_toInt _)

/-- What a request has of a character. -/
structure Saved (env : Env) (chr : Character) (s : SavedCharacter) : Prop where
  stats : s.baseStats = chr.baseStats
  holdings : HoldingsSaved chr s
  quests : QuestsSaved env chr s
  questInfos : s.questInfos = chr.questInfos.records
  completedQuests : s.completedQuests = chr.completedQuests.records.map savedCompletion
  skills : s.skills = chr.skills.records
  monsterBook : s.monsterBook = chr.monsterBook.records
  keyMap : s.keyMap = chr.savedKeys

theorem foreach_addQuest {set' : HashSet Quest} {l : List UInt16} :
    hashSetU16Foreach addQuest chr.quests [] = .ok (set', l) ↔
      set' = chr.quests ∧ l = chr.quests.records.map Quest.id := by
  refine (hashSetU16Foreach_eq_ok (fun q : Quest => .ok [q.id]) fun _ _ => rfl).trans ?_
  refine and_congr_right fun _ => ⟨fun ⟨g, hg, hl⟩ => hl.trans (flatMap_of_ok hg), fun hl => ?_⟩
  exact ⟨fun q => [q.id], fun _ _ => rfl, hl.trans List.map_eq_flatMap⟩

theorem foreach_addQuestInfo {set' : HashSet QuestInfoProgress} {l : List QuestInfoProgress} :
    hashSetU16Foreach addQuestInfo chr.questInfos [] = .ok (set', l) ↔
      set' = chr.questInfos ∧ l = chr.questInfos.records := by
  refine (hashSetU16Foreach_eq_ok (fun i : QuestInfoProgress => .ok [i]) fun _ _ => rfl).trans ?_
  refine and_congr_right fun _ => ⟨fun ⟨g, hg, hl⟩ => ?_, fun hl => ?_⟩
  · rw [hl, flatMap_of_ok hg, List.map_id']
  · exact ⟨fun i => [i], fun _ _ => rfl, hl.trans (List.flatMap_singleton' _).symm⟩

theorem foreach_addProgress {set' : HashSet Quest} {l : List SavedProgress} :
    hashSetU16Foreach (addProgress env) chr.quests [] = .ok (set', l) ↔
      set' = chr.quests ∧ ∃ e : Quest → List SavedProgress,
        (∀ q ∈ chr.quests.records, savedProgress env q = .ok (e q)) ∧
          l = chr.quests.records.flatMap e := by
  refine hashSetU16Foreach_eq_ok (savedProgress env) fun q l => ?_
  rw [addProgress, savedProgress]
  simp only [bind_assoc]
  rfl

theorem foreach_addCompletedQuest {set' : HashSet CompletedQuest} {l : List SavedCompletedQuest} :
    hashSetU16Foreach addCompletedQuest chr.completedQuests [] = .ok (set', l) ↔
      set' = chr.completedQuests ∧ (∀ q ∈ chr.completedQuests.records, HasDate q.time) ∧
        l = chr.completedQuests.records.map savedCompletion := by
  have hsave {q : CompletedQuest} {l : List SavedCompletedQuest} :
      (do return [⟨q.id, ← saveTime q.time⟩] : Exec (List SavedCompletedQuest)) = .ok l ↔
        HasDate q.time ∧ l = [savedCompletion q] := by
    rw [Exec.bind_eq_ok]
    constructor
    · rintro ⟨t, ht, h⟩
      obtain ⟨hdate, rfl⟩ := saveTime_eq_ok.1 ht
      exact ⟨hdate, (Except.ok.inj h).symm⟩
    · rintro ⟨hdate, rfl⟩
      exact ⟨_, saveTime_eq_ok.2 ⟨hdate, rfl⟩, rfl⟩
  rw [hashSetU16Foreach_eq_ok (fun q => do return [⟨q.id, ← saveTime q.time⟩]) fun q l => by
    rw [addCompletedQuest]
    simp only [bind_assoc, pure_bind]]
  refine and_congr_right fun _ => ⟨fun ⟨g, hg, hl⟩ => ?_, fun ⟨hdate, hl⟩ => ?_⟩
  · refine ⟨fun q hq => (hsave.1 (hg q hq)).1, ?_⟩
    rw [hl, List.flatMap_congr fun q hq => (hsave.1 (hg q hq)).2, ← List.map_eq_flatMap]
  · exact ⟨fun q => [savedCompletion q], fun q hq => hsave.2 ⟨hdate q hq, rfl⟩,
      hl.trans List.map_eq_flatMap⟩

/-- What is in a request, if one can be made. -/
theorem saved_of_save (hs : SetsFit env chr) {r : UpdateCharacter}
    (h : clientResumeSave env alloc chr = .ok r) :
    Saved env chr r.toSavedCharacter ∧ ∀ q ∈ chr.completedQuests.records, HasDate q.time := by
  obtain ⟨skillSet, hskills⟩ := hashSetU32Foreach_list hs.skills alloc
  obtain ⟨bookSet, hbook⟩ := hashSetU32Foreach_list hs.monsterBook alloc
  obtain ⟨⟨_, quests⟩, hquests, h⟩ := Exec.bind_eq_ok.1 h
  obtain ⟨⟨_, progresses⟩, hprogresses, h⟩ := Exec.bind_eq_ok.1 h
  obtain ⟨⟨_, questInfos⟩, hinfos, h⟩ := Exec.bind_eq_ok.1 h
  obtain ⟨⟨_, completedQuests⟩, hcompleted, h⟩ := Exec.bind_eq_ok.1 h
  obtain ⟨⟨_, skills⟩, hskills', h⟩ := Exec.bind_eq_ok.1 h
  obtain ⟨⟨_, monsterBook⟩, hbook', h⟩ := Exec.bind_eq_ok.1 h
  cases h
  cases hskills.symm.trans hskills'
  cases hbook.symm.trans hbook'
  obtain ⟨-, rfl⟩ := foreach_addQuest.1 hquests
  obtain ⟨-, e, he, rfl⟩ := foreach_addProgress.1 hprogresses
  obtain ⟨-, rfl⟩ := foreach_addQuestInfo.1 hinfos
  obtain ⟨-, hdate, rfl⟩ := foreach_addCompletedQuest.1 hcompleted
  exact ⟨⟨rfl, ⟨rfl, rfl, rfl, rfl, rfl, rfl, rfl⟩, ⟨rfl, e, he, rfl⟩, rfl, rfl, rfl, rfl, rfl⟩, hdate⟩

/-- A request can be made if there is one of the progress of each quest, and a date for each time. -/
theorem save_of_survives (alloc : Bool) (hs : SetsFit env chr) (h : Survives env chr) :
    ∃ r, clientResumeSave env alloc chr = .ok r := by
  obtain ⟨skillSet, hskills⟩ := hashSetU32Foreach_list hs.skills alloc
  obtain ⟨bookSet, hbook⟩ := hashSetU32Foreach_list hs.monsterBook alloc
  have hsaved : ∀ q ∈ chr.quests.records, ∃ l, savedProgress env q = .ok l := by
    intro q hq
    obtain ⟨info, hinfo, -, hm, -⟩ := h.quests q hq
    exact ⟨_, savedProgress_eq_ok.2 ⟨info, hinfo, hm, rfl⟩⟩
  choose! e he using hsaved
  exact ⟨_, Exec.bind_eq_ok.2 ⟨_, foreach_addQuest.2 ⟨rfl, rfl⟩,
    Exec.bind_eq_ok.2 ⟨_, foreach_addProgress.2 ⟨rfl, e, he, rfl⟩,
    Exec.bind_eq_ok.2 ⟨_, foreach_addQuestInfo.2 ⟨rfl, rfl⟩,
    Exec.bind_eq_ok.2 ⟨_, foreach_addCompletedQuest.2 ⟨rfl, h.times, rfl⟩,
    Exec.bind_eq_ok.2 ⟨_, hskills, Exec.bind_eq_ok.2 ⟨_, hbook, rfl⟩⟩⟩⟩⟩⟩⟩

/-! ## Loading the stats, the times and the keys -/

/-- The holdings do not touch the stats. -/
theorem loadHoldings_stats {old chr' : Character} (h : loadHoldings env s old = .ok chr') :
    chr'.baseStats = s.baseStats := by
  obtain ⟨equip, -, h⟩ := Exec.bind_eq_ok.1 h
  obtain ⟨use, -, h⟩ := Exec.bind_eq_ok.1 h
  obtain ⟨setup, -, h⟩ := Exec.bind_eq_ok.1 h
  obtain ⟨etc, -, h⟩ := Exec.bind_eq_ok.1 h
  obtain ⟨cash, -, h⟩ := Exec.bind_eq_ok.1 h
  obtain ⟨chr₁, h₁, h⟩ := Exec.bind_eq_ok.1 h
  obtain ⟨chr₂, h₂, h⟩ := Exec.bind_eq_ok.1 h
  obtain ⟨chr₃, h₃, h⟩ := Exec.bind_eq_ok.1 h
  have hworn : chr₁.baseStats = s.baseStats := by
    refine Exec.foldlM_invariant (P := fun chr : Character => chr.baseStats = s.baseStats) h₁
      (fun e _ chr chr' hc he => ?_) rfl
    obtain ⟨i, -, he⟩ := Exec.bind_eq_ok.1 he
    obtain ⟨info, -, he⟩ := Exec.bind_eq_ok.1 he
    cases he
    exact hc
  have hcarried : chr₂.baseStats = s.baseStats := by
    refine Exec.foldlM_invariant (P := fun chr : Character => chr.baseStats = s.baseStats) h₂
      (fun e _ chr chr' hc he => ?_) hworn
    obtain ⟨i, -, he⟩ := Exec.bind_eq_ok.1 he
    obtain ⟨info, -, he⟩ := Exec.bind_eq_ok.1 he
    cases he
    exact hc
  have hstacks : chr₃.baseStats = s.baseStats := by
    refine Exec.foldlM_invariant (P := fun chr : Character => chr.baseStats = s.baseStats) h₃
      (fun e _ chr chr' hc he => ?_) hcarried
    obtain ⟨k, -, he⟩ := Exec.bind_eq_ok.1 he
    obtain ⟨i, -, he⟩ := Exec.bind_eq_ok.1 he
    cases he
    exact hc
  cases h
  rw [loadProjectile]
  split
  · exact hstacks
  · exact hstacks

/-- The completed quests are loaded with the times they have been saved with. -/
theorem loadCompletedQuests (l : List CompletedQuest) (set : HashSet CompletedQuest) :
    (l.map savedCompletion).foldlM (loadCompletedQuest env true) set =
      l.foldlM (insertRecord env.completedQuests true) set := by
  rw [List.foldlM_map]
  congr 1
  funext set q
  rw [loadCompletedQuest, loadTime_savedCompletion]
  rfl

/-- The entry of a key, if it has a type. -/
def Character.savedKey (chr : Character) (i : Fin keyMapMaxKeys) : Option SavedKey :=
  if (chr.keyMap i).type ≠ 0 then
    some ⟨UInt32.ofNat i.val, (chr.keyMap i).type, (chr.keyMap i).action⟩
  else none

theorem loadKey_saved (keyMap : Fin keyMapMaxKeys → KeyMapEntry) (i : Fin keyMapMaxKeys)
    (e : KeyMapEntry) : loadKey keyMap ⟨UInt32.ofNat i.val, e.type, e.action⟩ =
      .ok (Function.update keyMap i e) := by
  have hi : (UInt32.ofNat i.val).toNat = i.val :=
    UInt32.toNat_ofNat_of_lt' (i.isLt.trans (by decide))
  rw [loadKey, dif_pos (by rw [hi]; exact i.isLt)]
  congr 2
  exact Fin.ext hi

theorem loadKeys_all (chr : Character) (l : List (Fin keyMapMaxKeys)) (keyMap : Fin keyMapMaxKeys → KeyMapEntry) :
    ∃ keyMap', (l.filterMap chr.savedKey).foldlM loadKey keyMap = .ok keyMap' ∧
      ∀ i, keyMap' i = if i ∈ l ∧ (chr.keyMap i).type ≠ 0 then chr.keyMap i else keyMap i := by
  induction l generalizing keyMap with
  | nil => exact ⟨keyMap, rfl, fun i => (if_neg fun h => nomatch h.1).symm⟩
  | cons j l ih =>
    by_cases hj : (chr.keyMap j).type = 0
    · obtain ⟨keyMap', h, hall⟩ := ih keyMap
      have hnone : chr.savedKey j = none := if_neg fun h => h hj
      refine ⟨keyMap', by rw [List.filterMap_cons_none hnone]; exact h, fun i => ?_⟩
      rw [hall]
      refine if_congr (and_congr_left fun hi => ?_) rfl rfl
      rw [List.mem_cons]
      exact ⟨.inr, fun h => h.resolve_left fun e => hi (e ▸ hj)⟩
    · obtain ⟨keyMap', h, hall⟩ := ih (Function.update keyMap j (chr.keyMap j))
      have hsome : chr.savedKey j =
          some ⟨UInt32.ofNat j.val, (chr.keyMap j).type, (chr.keyMap j).action⟩ := if_pos hj
      refine ⟨keyMap', ?_, fun i => ?_⟩
      · rw [List.filterMap_cons_some hsome, List.foldlM_cons, loadKey_saved]
        exact h
      · rw [hall]
        rcases eq_or_ne i j with rfl | hne
        · rw [Function.update_self, ite_self, if_pos ⟨List.mem_cons_self, hj⟩]
        · rw [Function.update_of_ne hne]
          refine if_congr (and_congr_left fun _ => ?_) rfl rfl
          rw [List.mem_cons]
          exact ⟨.inr, fun h => h.resolve_left hne⟩

/-- The keys are as they were if nothing is bound to one without a type. -/
theorem loadKeys_iff (chr : Character) : ∃ keyMap', chr.savedKeys.foldlM loadKey (fun _ => ⟨0, 0⟩) = .ok keyMap' ∧
    (keyMap' = chr.keyMap ↔ ∀ i, (chr.keyMap i).type = 0 → (chr.keyMap i).action = 0) := by
  obtain ⟨keyMap', h, hall⟩ :=
    loadKeys_all chr (List.finRange keyMapMaxKeys) fun _ => ⟨0, 0⟩
  refine ⟨keyMap', h, ?_⟩
  rw [funext_iff]
  refine forall_congr' fun i => ?_
  rw [hall]
  by_cases hi : (chr.keyMap i).type = 0
  · rw [if_neg fun h => h.2 hi]
    cases hk : chr.keyMap i with
    | mk type action =>
      rw [hk] at hi
      rw [KeyMapEntry.mk.injEq]
      exact ⟨fun h _ => h.2.symm, fun h => ⟨hi.symm, (h hi).symm⟩⟩
  · rw [if_pos ⟨List.mem_finRange i, hi⟩]
    exact iff_of_true rfl fun h => absurd h hi

/-! ## The round trip -/

/-- What has been saved is loaded as it was if and only if each part of it survives. -/
theorem load_iff (hs : SetsFit env chr) (hsaved : Saved env chr s)
    (hdate : ∀ q ∈ chr.completedQuests.records, HasDate q.time) (old : Character) :
    (∃ chr', clientResumeLoad env true s old = .ok chr' ∧ SamePersisted chr chr') ↔
      Survives env chr := by
  obtain ⟨m, hm⟩ := hs.quests
  obtain ⟨questInfos, hinfos, hinfos'⟩ := insertAll_perm (h := env.questInfos) chr.questInfos.records
  obtain ⟨completed, hcompleted, hcompleted'⟩ :=
    insertAll_perm (h := env.completedQuests) chr.completedQuests.records
  obtain ⟨skills, hskills, hskills'⟩ := insertAll_perm (h := env.skills) chr.skills.records
  obtain ⟨book, hbook, hbook'⟩ := insertAll_perm (h := env.monsterBook) chr.monsterBook.records
  obtain ⟨keyMap, hkeys, hkeys'⟩ := loadKeys_iff chr
  rw [← hsaved.questInfos] at hinfos
  rw [← loadCompletedQuests, ← hsaved.completedQuests] at hcompleted
  rw [← hsaved.skills] at hskills
  rw [← hsaved.monsterBook] at hbook
  rw [← hsaved.keyMap] at hkeys
  have hload (chr₁ : Character) (sets : QuestSets) (h₁ : loadHoldings env s old = .ok chr₁)
      (h₂ : loadQuests env true s chr₁ = .ok sets) :
      clientResumeLoad env true s old = .ok { chr₁ with
        quests := sets.quests, monsterQuests := sets.monsterQuests, itemQuests := sets.itemQuests
        questInfos := questInfos, completedQuests := completed, skills := skills
        monsterBook := book, keyMap := keyMap } :=
    Exec.bind_eq_ok.2 ⟨chr₁, h₁, Exec.bind_eq_ok.2 ⟨sets, h₂, Exec.bind_eq_ok.2 ⟨_, hinfos,
      Exec.bind_eq_ok.2 ⟨_, hcompleted, Exec.bind_eq_ok.2 ⟨_, hskills, Exec.bind_eq_ok.2 ⟨_, hbook,
        Exec.bind_eq_ok.2 ⟨_, hkeys, rfl⟩⟩⟩⟩⟩⟩⟩
  constructor
  · rintro ⟨chr', h, hsame⟩
    obtain ⟨chr₁, h₁, h'⟩ := Exec.bind_eq_ok.1 h
    obtain ⟨sets, h₂, -⟩ := Exec.bind_eq_ok.1 h'
    cases h.symm.trans (hload chr₁ sets h₁ h₂)
    exact ⟨(loadHoldings_iff hsaved.holdings old).1
        ⟨chr₁, h₁, hsame.worn, hsame.carried, hsame.items⟩,
      (loadQuests_iff hm hsaved.quests chr₁).1 ⟨sets, h₂, hsame.quests⟩, hdate,
      hkeys'.1 hsame.keyMap⟩
  · intro h
    obtain ⟨chr₁, h₁, hworn, hcarried, hitems⟩ := (loadHoldings_iff hsaved.holdings old).2 h.holdings
    obtain ⟨sets, h₂, hquests⟩ := (loadQuests_iff hm hsaved.quests chr₁).2 h.quests
    exact ⟨_, hload chr₁ sets h₁ h₂, (loadHoldings_stats h₁).trans hsaved.stats, hworn, hcarried,
      hitems, hquests, hinfos', hcompleted', hskills', hbook', hkeys'.2 h.keys⟩

/-- What is loaded as it was has been in the slots its ids tell. -/
theorem RoundTrip.survives {old : Character} (hs : SetsFit env chr)
    (h : RoundTrip env alloc chr old) : Survives env chr := by
  obtain ⟨r, chr', hsave, hload, hsame⟩ := h
  obtain ⟨hsaved, hdate⟩ := saved_of_save hs hsave
  exact (load_iff hs hsaved hdate old).1 ⟨chr', hload, hsame⟩

/-- Loading undoes saving if and only if every part of the character is one that can be loaded as it
    was. -/
theorem roundTrip_iff {old : Character} (hs : SetsFit env chr) :
    RoundTrip env alloc chr old ↔ Survives env chr := by
  refine ⟨fun h => h.survives hs, fun h => ?_⟩
  obtain ⟨r, hsave⟩ := save_of_survives alloc hs h
  obtain ⟨hsaved, hdate⟩ := saved_of_save hs hsave
  obtain ⟨chr', hload, hsame⟩ := (load_iff hs hsaved hdate old).2 h
  exact ⟨r, chr', hsave, hload, hsame⟩

/-! ## A hat -/

/-- A hat is all there is. -/
def hatEnv : Env := .ofLists [] [.plain 1000000] [] []

/-- A hat. -/
def hat : Equipment := equipmentFromInfo (.plain 1000000)

theorem setsFit_of_init {env : Env} {chr : Character} (hq : chr.quests = hashSetInit)
    (hs : chr.skills = hashSetInit) (hb : chr.monsterBook = hashSetInit) : SetsFit env chr := by
  refine ⟨⟨fun _ => none, ?_⟩, ?_, ?_⟩
  · rw [hq]
    exact .of_entries_zero hashSetInit_wf hashSetInit_entries
  · rw [hs]
    exact hashSetInit_wf
  · rw [hb]
    exact hashSetInit_wf

/-- A character that wears a hat. -/
def hatWearer : Character := (default : Character).setWorn 0 (.full hat)

/-- A hat is worn after the login if it has been worn as one. -/
theorem roundTrip_hat : RoundTrip hatEnv true hatWearer default := by
  have hworn : hatWearer.worn = Function.update (default : Character).worn 0 (some hat) :=
    Character.worn_of_update (c := .full hat) rfl
  have hview {α : Type} [Inhabited α] (i : Fin maxItemCount) :
      (Inventory.empty : Inventory α).view i = none := ite_self _
  refine (roundTrip_iff (setsFit_of_init rfl rfl rfl)).2 ⟨⟨fun i e h => ?_, fun i e h => ?_,
    fun k i it h => ?_⟩, ?_, ?_, fun _ _ => rfl⟩
  · rw [hworn] at h
    rcases eq_or_ne i 0 with rfl | hne
    · rw [Function.update_self] at h
      cases h
      exact ⟨by decide, by decide, rfl⟩
    · rw [Function.update_of_ne hne] at h
      cases h
  · cases (hview i).symm.trans h
  · cases (hview i).symm.trans h
  · intro q hq
    have hempty : hatWearer.quests.records = [] := by decide
    rw [hempty] at hq
    cases hq
  · intro q hq
    have hempty : hatWearer.completedQuests.records = [] := by decide
    rw [hempty] at hq
    cases hq

/-- A character that carries a hat. -/
def hatCarrier : Character :=
  { (default : Character) with equipmentInventory := Inventory.empty.set 0 (.full hat) }

/-- A hat may be put into the slot for earrings, and is not found there after the login. -/
theorem roundTrip_loses_slot :
    ∃ c', clientEquip (.new hatCarrier) 1 4 = .ok (true, c') ∧
      ∀ alloc old, ¬RoundTrip hatEnv alloc c'.character old := by
  refine ⟨_, rfl, fun alloc old h => ?_⟩
  have hworn := (h.survives (setsFit_of_init rfl rfl rfl)).holdings.worn 3 hat rfl
  exact absurd hworn.1 (by decide)

end Syrup
