import Mathlib.Data.List.GetD
import Syrup.Client.Load

/-!
# The progress of a quest, saved and loaded again

The progress of a quest with each of its monsters is saved under the id of the monster, and written
to the place of the first monster with that id again. So monsters that are the same share a place, and
the progress of a quest is as it was if and only if it fits into 16 bits, and there is none with
monsters that are the same (`reloadQuest`).
-/

namespace Syrup

namespace Exec

variable {α β : Type}

theorem mapM_ok {f : α → Exec β} {g : α → β} {l : List α} (h : ∀ a ∈ l, f a = .ok (g a)) :
    l.mapM f = .ok (l.map g) := by
  induction l with
  | nil => rfl
  | cons a l ih =>
    rw [List.mapM_cons, h a List.mem_cons_self, ih fun b hb => h b (List.mem_cons_of_mem _ hb)]
    rfl

theorem ok_of_mapM {f : α → Exec β} {l : List α} {out : List β} (h : l.mapM f = .ok out) :
    ∀ a ∈ l, ∃ b, f a = .ok b := by
  induction l generalizing out with
  | nil => exact nofun
  | cons a l ih =>
    rw [List.mapM_cons] at h
    obtain ⟨b, hb, h⟩ := bind_eq_ok.1 h
    obtain ⟨out', hout', -⟩ := bind_eq_ok.1 h
    intro a' ha'
    rcases List.mem_cons.1 ha' with rfl | ha'
    · exact ⟨b, hb⟩
    · exact ih hout' a' ha'

end Exec

/-! ## Saving -/

/-- The id of a monster, by its place. -/
def mobId (mobs : List QuestMob) (i : ℕ) : UInt32 := (mobs.getD i ⟨0, 0⟩).id

/-- The progress with a monster, by its place. -/
def Quest.at (quest : Quest) (i : ℕ) : Int32 := quest.progress.toList.getD i 0

/-- What is saved of the progress with a monster. -/
def savedEntry (quest : Quest) (mobs : List QuestMob) (i : ℕ) : SavedProgress :=
  ⟨quest.id, mobId mobs i, (quest.at i).toInt16⟩

/-- The monsters of a quest. -/
def questMobs (info : QuestInfo) : List QuestMob := (mobRequirement info).getD []

/-- What is saved of the progress of a quest. -/
def savedProgress (env : Env) (quest : Quest) : Exec (List SavedProgress) := do
  let info ← Exec.deref (env.questInfo quest.id)
  (List.range quest.progressCount.toNat).mapM (progressEntry quest (questMobs info))

/-- There is a monster, and a place in the array, for each progress of a quest. -/
structure Quest.Matches (quest : Quest) (mobs : List QuestMob) : Prop where
  mobs : quest.progressCount.toNat ≤ mobs.length
  places : quest.progressCount.toNat ≤ 5

variable {env : Env} {quest : Quest} {mobs : List QuestMob}

theorem progressEntry_eq_ok {i : ℕ} {e : SavedProgress} :
    progressEntry quest mobs i = .ok e ↔
      i < mobs.length ∧ i < 5 ∧ e = savedEntry quest mobs i := by
  have hlength : quest.progress.toList.length = 5 := quest.progress.length_toList
  rw [progressEntry]
  by_cases hm : i < mobs.length
  · by_cases hp : i < 5
    · have hmob : mobs[i]? = some (mobs.getD i ⟨0, 0⟩) := by
        rw [List.getD_eq_getElem _ _ hm, List.getElem?_eq_getElem hm]
      have hprogress : quest.progress.toList[i]? = some (quest.at i) := by
        have hp : i < quest.progress.toList.length := by rw [hlength]; exact hp
        rw [Quest.at, List.getD_eq_getElem _ _ hp, List.getElem?_eq_getElem hp]
      rw [hmob, hprogress]
      exact ⟨fun h => ⟨hm, hp, (Except.ok.inj h).symm⟩, fun h => congrArg Except.ok h.2.2.symm⟩
    · have hprogress : quest.progress.toList[i]? = none :=
        List.getElem?_eq_none (by rw [hlength]; exact Nat.le_of_not_lt hp)
      rw [hprogress]
      refine iff_of_false (fun h => ?_) fun h => hp h.2.1
      split at h <;> cases h
      rename_i heq
      cases heq
  · rw [List.getElem?_eq_none (Nat.le_of_not_lt hm)]
    exact iff_of_false nofun fun h => hm h.1

theorem savedProgress_eq_ok {l : List SavedProgress} :
    savedProgress env quest = .ok l ↔ ∃ info, env.questInfo quest.id = some info ∧
      quest.Matches (questMobs info) ∧
      l = (List.range quest.progressCount.toNat).map (savedEntry quest (questMobs info)) := by
  constructor
  · intro h
    obtain ⟨info, hinfo, h⟩ := Exec.bind_eq_ok.1 h
    rw [Exec.deref_eq_ok] at hinfo
    have hall : ∀ i < quest.progressCount.toNat, i < (questMobs info).length ∧ i < 5 := by
      intro i hi
      obtain ⟨e, he⟩ := Exec.ok_of_mapM h i (List.mem_range.2 hi)
      obtain ⟨hm, hp, -⟩ := progressEntry_eq_ok.1 he
      exact ⟨hm, hp⟩
    rw [Exec.mapM_ok fun i hi => progressEntry_eq_ok.2
      ⟨(hall i (List.mem_range.1 hi)).1, (hall i (List.mem_range.1 hi)).2, rfl⟩] at h
    refine ⟨info, hinfo, ⟨?_, ?_⟩, (Except.ok.inj h).symm⟩
    · exact le_of_forall_lt fun i hi => (hall i hi).1
    · exact le_of_forall_lt fun i hi => (hall i hi).2
  · rintro ⟨info, hinfo, hm, rfl⟩
    exact Exec.bind_eq_ok.2 ⟨info, Exec.deref_eq_ok.2 hinfo, Exec.mapM_ok fun i hi =>
      progressEntry_eq_ok.2 ⟨(List.mem_range.1 hi).trans_le hm.mobs,
        (List.mem_range.1 hi).trans_le hm.places, rfl⟩⟩

/-! ## Loading -/

/-- A quest without progress. -/
def Quest.blank (id : UInt16) : Quest := ⟨id, 0, .replicate 5 0⟩

/-- The quest after one of its progresses has been loaded. -/
def reloadProgress (mobs : List QuestMob) (quest : Quest) (p : SavedProgress) : Exec Quest := do
  let (j, _) ← findMob mobs p.progressId
  quest.write (UInt8.ofNat j).toNat p.progress.toInt32

/-- The place of the first monster that is the same. -/
def firstOf (mobs : List QuestMob) (i : ℕ) : ℕ :=
  (mobs.findIdx? (·.id == mobId mobs i)).getD 0

theorem firstOf_spec (mobs : List QuestMob) {i : ℕ} (hi : i < mobs.length) :
    mobs.findIdx? (·.id == mobId mobs i) = some (firstOf mobs i) ∧ firstOf mobs i ≤ i ∧
      mobId mobs (firstOf mobs i) = mobId mobs i := by
  have hself : (mobs[i].id == mobId mobs i) = true := by
    rw [mobId, List.getD_eq_getElem _ _ hi, beq_self_eq_true]
  cases hf : mobs.findIdx? (·.id == mobId mobs i) with
  | none =>
    have hno := List.findIdx?_eq_none_iff.1 hf mobs[i] (List.getElem_mem hi)
    rw [hself] at hno
    cases hno
  | some j =>
    obtain ⟨hj, hsame, hmin⟩ := List.findIdx?_eq_some_iff_getElem.1 hf
    have hfirst : firstOf mobs i = j := by rw [firstOf, hf, Option.getD_some]
    rw [hfirst]
    refine ⟨rfl, ?_, ?_⟩
    · by_contra hlt
      exact hmin i (Nat.lt_of_not_le hlt) hself
    · have := beq_iff_eq.1 hsame
      rw [← this]
      rw [mobId, List.getD_eq_getElem _ _ hj]

/-- Two monsters that are the same have the same first one. -/
theorem firstOf_congr {i j : ℕ} (h : mobId mobs i = mobId mobs j) :
    firstOf mobs i = firstOf mobs j := by
  rw [firstOf, firstOf, h]

theorem firstOf_firstOf {i : ℕ} (hi : i < mobs.length) :
    firstOf mobs (firstOf mobs i) = firstOf mobs i :=
  firstOf_congr (firstOf_spec mobs hi).2.2

/-- What the place `j` holds after the first `k` progresses have been loaded. -/
def lastWrite (quest : Quest) (mobs : List QuestMob) : ℕ → ℕ → Int32
  | 0, _ => 0
  | k + 1, j =>
    if firstOf mobs k = j then (quest.at k).toInt16.toInt32 else lastWrite quest mobs k j

theorem reload_eq {k : ℕ} (hm : k ≤ mobs.length) (hp : k ≤ 5) :
    ∃ q : Quest, ((List.range k).map (savedEntry quest mobs)).foldlM (reloadProgress mobs)
        (.blank quest.id) = .ok q ∧ q.id = quest.id ∧ q.progressCount = UInt8.ofNat k ∧
      ∀ j < 5, q.at j = lastWrite quest mobs k j := by
  induction k with
  | zero =>
    refine ⟨.blank quest.id, rfl, rfl, rfl, fun j hj => ?_⟩
    have hlist : (Quest.blank quest.id).progress.toList = List.replicate 5 0 := rfl
    rw [Quest.at, hlist]
    match j with
    | 0 | 1 | 2 | 3 | 4 => rfl
  | succ k ih =>
    obtain ⟨q, hq, hid, hcount, hat⟩ := ih (Nat.le_of_succ_le hm) (Nat.le_of_succ_le hp)
    obtain ⟨hfind, hle, -⟩ := firstOf_spec mobs (i := k) hm
    have hlt : firstOf mobs k < 5 := by omega
    have hbyte : (UInt8.ofNat (firstOf mobs k)).toNat = firstOf mobs k :=
      UInt8.toNat_ofNat_of_lt (hlt.trans (by decide))
    have hmobs : firstOf mobs k < mobs.length := by omega
    let q' : Quest :=
      { q with progress := q.progress.set (firstOf mobs k) (quest.at k).toInt16.toInt32 hlt,
               progressCount := q.progressCount + 1 }
    have hstep : reloadProgress mobs q (savedEntry quest mobs k) = .ok q' := by
      have hmob : findMob mobs (mobId mobs k) = .ok (firstOf mobs k, mobs[firstOf mobs k]) := by
        rw [findMob, hfind]
        simp only
        rw [List.getElem?_eq_getElem hmobs]
      refine Exec.bind_eq_ok.2 ⟨_, hmob, ?_⟩
      change q.write (UInt8.ofNat (firstOf mobs k)).toNat _ = _
      rw [hbyte]
      exact dif_pos hlt
    refine ⟨q', ?_, hid, ?_, fun j hj => ?_⟩
    · rw [List.range_succ, List.map_append, List.foldlM_append]
      refine Exec.bind_eq_ok.2 ⟨q, hq, ?_⟩
      rw [List.map_singleton, List.foldlM_cons]
      exact Exec.bind_eq_ok.2 ⟨q', hstep, rfl⟩
    · change q.progressCount + 1 = _
      rw [hcount, UInt8.ofNat_add]
      rfl
    · have hget (v : Vector Int32 5) : v.toList.getD j 0 = v[j] := by
        rw [List.getD_eq_getElem _ _ (by rw [Vector.length_toList]; exact hj), Vector.getElem_toList]
      change (q.progress.set (firstOf mobs k) _ hlt).toList.getD j 0 = _
      rw [hget, Vector.getElem_set, lastWrite]
      split
      · rfl
      · rw [← hget]
        exact hat j hj

/-- The progress saved with a monster, as it is loaded. -/
def Quest.reloaded (quest : Quest) (i : ℕ) : Int32 := (quest.at i).toInt16.toInt32

/-- A place holds the last progress that was written there, or nothing was. -/
theorem lastWrite_cases (quest : Quest) (mobs : List QuestMob) (n j : ℕ) :
    (lastWrite quest mobs n j = 0 ∧ ∀ k < n, firstOf mobs k ≠ j) ∨
      ∃ k < n, firstOf mobs k = j ∧ lastWrite quest mobs n j = quest.reloaded k ∧
        ∀ k' < n, k < k' → firstOf mobs k' ≠ j := by
  induction n with
  | zero => exact .inl ⟨rfl, nofun⟩
  | succ n ih =>
    rw [lastWrite]
    split
    · rename_i hn
      exact .inr ⟨n, n.lt_succ_self, hn, rfl, fun k' hk' hlt => absurd hlt (by omega)⟩
    · rename_i hn
      rcases ih with ⟨hzero, hnone⟩ | ⟨k, hk, hfirst, hlast, hafter⟩
      · refine .inl ⟨hzero, fun k hk => ?_⟩
        rcases Nat.lt_succ_iff_lt_or_eq.1 hk with hk | rfl
        · exact hnone k hk
        · exact hn
      · refine .inr ⟨k, Nat.lt_succ_of_lt hk, hfirst, hlast, fun k' hk' hlt => ?_⟩
        rcases Nat.lt_succ_iff_lt_or_eq.1 hk' with hk' | rfl
        · exact hafter k' hk' hlt
        · exact hn

/-! ## The condition -/

/-- The progress of a quest fits into 16 bits, and there is none with monsters that are the same. -/
structure Quest.ProgressSurvives (quest : Quest) (mobs : List QuestMob) : Prop where
  fits : ∀ i < quest.progressCount.toNat, quest.reloaded i = quest.at i
  distinct : ∀ i j, i < j → j < quest.progressCount.toNat → mobId mobs i = mobId mobs j →
    quest.at i = 0 ∧ quest.at j = 0

theorem lastWrite_eq_iff (hm : quest.Matches mobs) :
    (∀ j < quest.progressCount.toNat,
      lastWrite quest mobs quest.progressCount.toNat j = quest.at j) ↔
      quest.ProgressSurvives mobs := by
  have hspec {i : ℕ} (hi : i < quest.progressCount.toNat) :=
    firstOf_spec mobs (hi.trans_le hm.mobs)
  constructor
  · intro h
    -- Nothing is written to the place of a monster that is not the first one of its kind.
    have hlater {j : ℕ} (hj : j < quest.progressCount.toNat) (hne : firstOf mobs j ≠ j) :
        quest.at j = 0 := by
      rw [← h j hj]
      rcases lastWrite_cases quest mobs quest.progressCount.toNat j with ⟨hzero, -⟩ | ⟨k, hk, hkj, -⟩
      · exact hzero
      · exact absurd (hkj ▸ firstOf_firstOf (hk.trans_le hm.mobs)) hne
    have hsame {i j : ℕ} (hij : i < j) (hj : j < quest.progressCount.toNat)
        (hid : mobId mobs i = mobId mobs j) : quest.at j = 0 := by
      refine hlater hj fun e => ?_
      have := (hspec (hij.trans hj)).2.1
      rw [firstOf_congr hid, e] at this
      omega
    have hrest (i : ℕ) (hi : i < quest.progressCount.toNat) :
        quest.reloaded i = quest.at i ∧ ∀ j, i < j → j < quest.progressCount.toNat →
          mobId mobs i = mobId mobs j → quest.at i = 0 := by
      have hfits : quest.at i = 0 → quest.reloaded i = quest.at i := fun h0 => by
        rw [Quest.reloaded, h0]
        rfl
      by_cases hfirst : firstOf mobs i = i
      · rcases lastWrite_cases quest mobs quest.progressCount.toNat i with
          ⟨-, hnone⟩ | ⟨k, hk, hki, hlast, hafter⟩
        · exact absurd hfirst (hnone i hi)
        · rw [h i hi] at hlast
          rcases eq_or_ne k i with rfl | hne
          · refine ⟨hlast.symm, fun j hij hj hid => absurd ?_ (hafter j hj hij)⟩
            rw [← firstOf_congr hid, hfirst]
          · -- What was written last comes from another monster of the kind.
            have h0 : quest.at i = 0 := by
              have hkz : quest.at k = 0 := hlater hk (by rw [hki]; exact hne.symm)
              rw [hlast, Quest.reloaded, hkz]
              rfl
            exact ⟨hfits h0, fun _ _ _ _ => h0⟩
      · have h0 := hlater hi hfirst
        exact ⟨hfits h0, fun _ _ _ _ => h0⟩
    exact ⟨fun i hi => (hrest i hi).1, fun i j hij hj hid =>
      ⟨(hrest i (hij.trans hj)).2 j hij hj hid, hsame hij hj hid⟩⟩
  · intro h j hj
    have hsame {k : ℕ} (hk : k < quest.progressCount.toNat) (hid : mobId mobs k = mobId mobs j)
        (hne : k ≠ j) : quest.at k = 0 ∧ quest.at j = 0 := by
      rcases Nat.lt_or_gt_of_ne hne with hlt | hlt
      · exact h.distinct k j hlt hj hid
      · exact (h.distinct j k hlt hk hid.symm).symm
    rcases lastWrite_cases quest mobs quest.progressCount.toNat j with
      ⟨hzero, hnone⟩ | ⟨k, hk, hkj, hlast, -⟩
    · obtain ⟨-, hle, hid⟩ := hspec hj
      rw [hzero, (hsame (hle.trans_lt hj) hid (hnone j hj)).2]
    · rw [hlast, h.fits k hk]
      rcases eq_or_ne k j with rfl | hne
      · rfl
      · have hid : mobId mobs k = mobId mobs j := by rw [← (hspec hk).2.2, hkj]
        obtain ⟨hzk, hzj⟩ := hsame hk hid hne
        rw [hzk, hzj]

/-! ## A quest -/

/-- What is kept of a quest: its progress, as far as there is any. -/
def Quest.kept (quest : Quest) : UInt16 × List Int32 :=
  (quest.id, quest.progress.toList.take quest.progressCount.toNat)

theorem Quest.kept_eq_iff {q : Quest} (hid : q.id = quest.id)
    (hcount : q.progressCount = quest.progressCount) (hp : quest.progressCount.toNat ≤ 5) :
    q.kept = quest.kept ↔ ∀ j < quest.progressCount.toNat, q.at j = quest.at j := by
  have hget (v : Quest) {j : ℕ} (hj : j < 5) : v.progress.toList[j]? = some (v.at j) := by
    have hj' : j < v.progress.toList.length := by rw [Vector.length_toList]; exact hj
    rw [Quest.at, List.getD_eq_getElem _ _ hj', List.getElem?_eq_getElem hj']
  rw [Quest.kept, Quest.kept, hid, hcount, Prod.mk.injEq, List.ext_getElem?_iff]
  refine ⟨fun h j hj => ?_, fun h => ⟨rfl, fun j => ?_⟩⟩
  · have := h.2 j
    rw [List.getElem?_take, List.getElem?_take, if_pos hj, if_pos hj, hget q (hj.trans_le hp),
      hget quest (hj.trans_le hp)] at this
    exact Option.some.inj this
  · rw [List.getElem?_take, List.getElem?_take]
    split
    · rename_i hj
      rw [hget q (hj.trans_le hp), hget quest (hj.trans_le hp), h j hj]
    · rfl

/-- The progress of a quest, saved and loaded again. -/
theorem reloadQuest (hm : quest.Matches mobs) :
    ∃ q : Quest, ((List.range quest.progressCount.toNat).map (savedEntry quest mobs)).foldlM
        (reloadProgress mobs) (.blank quest.id) = .ok q ∧ q.id = quest.id ∧
      (q.kept = quest.kept ↔ quest.ProgressSurvives mobs) := by
  obtain ⟨q, hq, hid, hcount, hat⟩ := reload_eq hm.mobs hm.places
  refine ⟨q, hq, hid, ?_⟩
  have hcount : q.progressCount = quest.progressCount := by rw [hcount, UInt8.ofNat_toNat]
  rw [Quest.kept_eq_iff hid hcount hm.places, ← lastWrite_eq_iff hm]
  exact forall₂_congr fun j hj => by rw [hat j (hj.trans_le hm.places)]

end Syrup
