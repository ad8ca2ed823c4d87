import Syrup.Client.Stats
import Syrup.HashMap.FiniteMap
import Syrup.Holdings

/-!
# `client_assign_sp`

A skill point is spent on a skill, which the character may not have yet. The point is taken, and sent,
before it is checked whether the job and the other skills of the character allow the skill.
-/

namespace Syrup

/-- `struct SkillInfo`, as far as it is used: how many levels there are, and the skill, with its
    level, that is required. -/
structure SkillInfo where
  levelCount : UInt64
  reqId : UInt64
  reqLevel : UInt64
  deriving DecidableEq

/-- The three skills of a beginner, which take no points. -/
def isBeginnerSkill (id : UInt32) : Bool := 1000 ≤ id && id ≤ 1002

/-- The job of a character is that of a skill, or one that comes after it. -/
def jobHasSkill (chr : Character) (id : UInt32) : Bool :=
  let job := (id / 10000).toUInt16
  !((job % 1000 != 0 && chr.job / 100 != job / 100) ||
    (job / 10 % 10 != 0 && chr.job % 10 < job % 10))

/-- A character has the skill that is required. -/
def hasRequired (env : Env) (chr : Character) (info : SkillInfo) : Bool :=
  info.reqId == 0 ||
    match hashSetGet env.skills chr.skills info.reqId.toUInt32 with
    | none => false
    | some req => info.reqLevel ≤ req.level.toInt64.toUInt64

/-- A skill of which a character has got the first level. -/
def newSkill (info : SkillInfo) (id : UInt32) : Skill where
  id := id
  level := 1
  masterLevel := if id / 10000 % 10 = 2 then 0 else info.levelCount.toUInt8.toInt8

/-- Raises a skill: it returns `false`, or `true` with the client. -/
def raiseSkill (env : Env) (alloc : Bool) (info : SkillInfo) (c : Client) (id : UInt32) :
    Exec (Bool × Client) :=
  let chr := c.character
  match hashSetGet env.skills chr.skills id with
  | none =>
    if !jobHasSkill chr id || !hasRequired env chr info then .ok (false, c)
    else do
      let (_, set) ← hashSetInsert env.skills alloc chr.skills (newSkill info id)
      let skill ← Exec.deref (hashSetGet env.skills set id)
      return (true, (c.setCharacter { chr with skills := set }).send
        (.updateSkill id skill.level skill.masterLevel))
  | some skill =>
    if skill.level < skill.masterLevel then
      let skill := { skill with level := skill.level + 1 }
      .ok (true, (c.setCharacter { chr with skills := hashSetWrite env.skills chr.skills id skill }).send
        (.updateSkill id skill.level skill.masterLevel))
    else .ok (true, c)

/-- `client_assign_sp`, with the records of `wz_get_skill_info`. -/
def clientAssignSp (env : Env) (skillInfo : UInt32 → Option SkillInfo) (alloc : Bool) (c : Client)
    (id : UInt32) : Exec (Bool × Client) :=
  let chr := c.character
  match skillInfo id with
  | none => .ok (false, c)
  | some info =>
    if isBeginnerSkill id then raiseSkill env alloc info (c.send (.statChange 0 [])) id
    else if 0 < chr.sp then
      let chr := { chr with sp := chr.sp - 1 }
      raiseSkill env alloc info ((c.setCharacter chr).send (.statChange statSp [chr.sp.toInt])) id
    else .ok (true, c)

end Syrup

/-!
## What skill points are spent on

A point is meant to be spent on one level of one skill, or to be left (`SpendsPoint`). It is taken before it
is checked whether the skill can be raised, and no refusal gives it back. A skill of a fourth job is raised to its
first level although its master level is `0`.

So the point is spent rightly if and only if the skill can be raised, or no point is taken
(`clientAssignSp_spends_iff`).
-/

namespace Syrup

variable {env : Env} {info : SkillInfo} {chr : Character} {c : Client} {id : UInt32}
  {m : UInt32 → Option Skill}

/-- One skill has been raised by one level, or is new, and is not above its master level. -/
structure SkillRaised (id : UInt32) (m m' : UInt32 → Option Skill) (skill : Skill) : Prop where
  only : m' = Function.update m id (some skill)
  raised : skill.level.toInt = ((m id).elim 0 fun old => old.level.toInt) + 1
  kept : ∀ old, m id = some old → skill.masterLevel = old.masterLevel
  allowed : skill.level ≤ skill.masterLevel

/-- A call of `client_assign_sp` returns; it raises a skill for one point, or for none if it is a skill of a
    beginner, or it leaves the points and the skills as they are. -/
def SpendsPoint (env : Env) (id : UInt32) (m : UInt32 → Option Skill) (c : Client)
    (x : Exec (Bool × Client)) : Prop :=
  ∃ r c' m', x = .ok (r, c') ∧ Represents env.skills c'.character.skills m' ∧
    ((∃ skill, SkillRaised id m m' skill ∧ (isBeginnerSkill id = false →
        c'.character.sp.toInt = c.character.sp.toInt - 1)) ∨
      m' = m ∧ c'.character.sp = c.character.sp)

/-- There is room for another record, or it can be made. -/
def HashSet.HasRoom {R : Type*} (alloc : Bool) (set : HashSet R) : Prop :=
  set.count ≠ set.capacity ∨ alloc = true

/-- A skill can be raised: one that the character has is below its master level; one that it does not have
    is for its job, has what it requires, and a master level. -/
def CanRaise (env : Env) (alloc : Bool) (info : SkillInfo) (chr : Character) (id : UInt32)
    (m : UInt32 → Option Skill) : Prop :=
  match m id with
  | some skill => skill.level < skill.masterLevel
  | none => (jobHasSkill chr id ∧ hasRequired env chr info) ∧ 0 < (newSkill info id).masterLevel ∧
      chr.skills.HasRoom alloc

/-- It is refused to raise a skill. -/
def RefusesRaise (env : Env) (info : SkillInfo) (chr : Character) (id : UInt32)
    (m : UInt32 → Option Skill) : Prop :=
  match m id with
  | some skill => ¬skill.level < skill.masterLevel
  | none => ¬(jobHasSkill chr id ∧ hasRequired env chr info)

/-! ## Raising a skill -/

/-- An insertion that has no room leaves the set as it was. -/
theorem hashSetInsert_noRoom {R K : Type*} {h : Hashing R K} {alloc : Bool} {set : HashSet R}
    (hroom : ¬set.HasRoom alloc) (r : R) : hashSetInsert h alloc set r = .ok (false, set) := by
  obtain ⟨hfull, halloc⟩ := not_or.1 hroom
  rw [hashSetInsert, if_pos (not_not.1 hfull), if_neg halloc]
  rfl

/-- An insertion that has room adds the record. -/
theorem hashSetInsert_room {R K : Type*} [DecidableEq K] {h : Hashing R K} {alloc : Bool} {set : HashSet R}
    {m : K → Option R} (hset : Represents h set m) (hroom : set.HasRoom alloc) {r : R}
    (hnew : m (h.key r) = none) : ∃ set', hashSetInsert h alloc set r = .ok (true, set') ∧
      Represents h set' (Function.update m (h.key r) (some r)) := by
  obtain ⟨ok, set', hinsert, hw, hentries, -, halloc, -⟩ := hashSetInsert_spec hset.wf alloc r
  have hok : ok = true := by
    rcases hroom with hfree | hgrown
    · rw [hashSetInsert, if_neg hfree] at hinsert
      obtain ⟨_, -, hinsert⟩ := Exec.bind_eq_ok.1 hinsert
      cases hinsert
      rfl
    · exact halloc hgrown
  rw [hok] at hinsert
  exact ⟨set', hinsert, hset.insert hnew hw (hentries hok)⟩

/-- What becomes of a skill that can be raised. -/
theorem raiseSkill_raises (hset : Represents env.skills c.character.skills m) {alloc : Bool}
    (h : CanRaise env alloc info c.character id m) : ∃ c' m' skill,
      raiseSkill env alloc info c id = .ok (true, c') ∧ c'.character.sp = c.character.sp ∧
        Represents env.skills c'.character.skills m' ∧ SkillRaised id m m' skill := by
  rw [raiseSkill]
  simp only [hset.get_eq]
  rw [CanRaise] at h
  cases hid : m id with
  | none =>
    rw [hid] at h
    -- A new skill.
    obtain ⟨hallowed, hmaster, hroom⟩ := h
    obtain ⟨set, hinsert, hset'⟩ := hashSetInsert_room (r := newSkill info id) hset hroom hid
    have hget : hashSetGet env.skills set id = some (newSkill info id) :=
      (hset'.get_eq id).trans (Function.update_self ..)
    have hrefused : (!jobHasSkill c.character id || !hasRequired env c.character info) = false := by
      rw [hallowed.1, hallowed.2]
      rfl
    rw [hrefused, if_neg Bool.false_ne_true, hinsert, Exec.ok_bind, hget]
    refine ⟨_, _, newSkill info id, rfl, rfl, hset', rfl, ?_, fun old hold => ?_, ?_⟩
    · rw [hid]
      rfl
    · rw [hid] at hold
      cases hold
    · rw [Int8.lt_iff_toInt_lt] at hmaster
      rw [Int8.le_iff_toInt_le]
      exact Int.add_one_le_iff.2 hmaster
  | some skill =>
    rw [hid] at h
    -- One that has been raised before.
    have hkey : id = skill.id := ((hset.lookup id skill).1 hid).2.symm
    have hlt := Int8.lt_iff_toInt_lt.1 h
    have hbound := skill.masterLevel.toInt_lt
    have hlevel : (skill.level + 1).toInt = skill.level.toInt + 1 := by
      have hle := skill.level.le_toInt
      have hone : (1 : Int8).toInt = 1 := rfl
      rw [Int8.toInt_add, hone]
      exact Int.bmod_eq_of_le (by omega) (by omega)
    simp only
    rw [if_pos h]
    refine ⟨_, _, { skill with level := skill.level + 1 }, rfl, rfl, hset.write hid rfl, rfl, ?_,
      fun old hold => ?_, ?_⟩
    · rw [hid]
      exact hlevel
    · rw [hid] at hold
      cases hold
      rfl
    · rw [Int8.le_iff_toInt_le, hlevel]
      exact Int.add_one_le_iff.2 hlt

/-- Where it is refused, nothing changes. -/
theorem raiseSkill_refuses (hset : Represents env.skills c.character.skills m) (alloc : Bool)
    (h : RefusesRaise env info c.character id m) :
    ∃ r, raiseSkill env alloc info c id = .ok (r, c) := by
  rw [raiseSkill]
  simp only [hset.get_eq]
  rw [RefusesRaise] at h
  cases hid : m id with
  | none =>
    rw [hid] at h
    have hrefused : (!jobHasSkill c.character id || !hasRequired env c.character info) = true := by
      rw [← Bool.not_and, Bool.not_eq_true', Bool.and_eq_false_iff]
      rcases not_and_or.1 h with hjob | hreq
      · exact .inl (Bool.not_eq_true _ ▸ hjob)
      · exact .inr (Bool.not_eq_true _ ▸ hreq)
    exact ⟨false, if_pos hrefused⟩
  | some skill =>
    rw [hid] at h
    exact ⟨true, if_neg h⟩

/-- Where it is neither refused nor possible, a skill is put above its master level, or the call does not
    return. -/
theorem raiseSkill_wrong (hset : Represents env.skills c.character.skills m) {alloc : Bool}
    (hrefuse : ¬RefusesRaise env info c.character id m) (hraise : ¬CanRaise env alloc info c.character id m)
    {r : Bool} {c' : Client} (h : raiseSkill env alloc info c id = .ok (r, c')) :
    m id = none ∧ ¬0 < (newSkill info id).masterLevel ∧
      Represents env.skills c'.character.skills (Function.update m id (some (newSkill info id))) := by
  rw [raiseSkill] at h
  simp only [hset.get_eq] at h
  rw [RefusesRaise] at hrefuse
  rw [CanRaise] at hraise
  cases hid : m id with
  | none =>
    rw [hid] at h hrefuse hraise
    have hallowed := not_not.1 hrefuse
    have hrefused : (!jobHasSkill c.character id || !hasRequired env c.character info) = false := by
      rw [hallowed.1, hallowed.2]
      rfl
    rw [hrefused, if_neg Bool.false_ne_true] at h
    by_cases hroom : c.character.skills.HasRoom alloc
    · obtain ⟨set, hinsert, hset'⟩ := hashSetInsert_room (r := newSkill info id) hset hroom hid
      rw [hinsert, Exec.ok_bind] at h
      obtain ⟨skill, -, h⟩ := Exec.bind_eq_ok.1 h
      cases h
      exact ⟨rfl, fun hmaster => hraise ⟨hallowed, hmaster, hroom⟩, hset'⟩
    · rw [hashSetInsert_noRoom hroom, Exec.ok_bind] at h
      obtain ⟨skill, hskill, h⟩ := Exec.bind_eq_ok.1 h
      rw [Exec.deref_eq_ok, hset.get_eq, hid] at hskill
      cases hskill
  | some skill =>
    rw [hid] at hrefuse hraise
    exact absurd hraise hrefuse

/-! ## Points -/

/-- Where no point is taken, or it is spent on a skill that can be raised. -/
def PointSpent (env : Env) (skillInfo : UInt32 → Option SkillInfo) (alloc : Bool) (chr : Character)
    (id : UInt32) (m : UInt32 → Option Skill) : Prop :=
  match skillInfo id with
  | none => True
  | some info => CanRaise env alloc info chr id m ∨
      if isBeginnerSkill id then RefusesRaise env info chr id m else ¬0 < chr.sp

theorem representsOnly {set : HashSet Skill} {m m' : UInt32 → Option Skill}
    (h : Represents env.skills set m) (h' : Represents env.skills set m') : m' = m :=
  funext fun id => (h'.get_eq id).symm.trans (h.get_eq id)

/-- A skill that has been put above its master level has not been raised rightly. -/
theorem not_skillRaised {m' : UInt32 → Option Skill} {skill : Skill}
    (hmaster : ¬0 < (newSkill info id).masterLevel)
    (hm' : m' = Function.update m id (some (newSkill info id))) : ¬SkillRaised id m m' skill := by
  intro h
  have hskill := congrFun (hm'.symm.trans h.only) id
  rw [Function.update_self, Function.update_self] at hskill
  obtain rfl := Option.some.inj hskill
  have hallowed := Int8.le_iff_toInt_le.1 h.allowed
  rw [Int8.lt_iff_toInt_lt] at hmaster
  exact hmaster (Int.add_one_le_iff.1 hallowed)

/-- A skill that is raised is not as it was. -/
theorem SkillRaised.ne {skill : Skill} (h : SkillRaised id m m skill) : False := by
  have hid : m id = some skill := (congrFun h.only id).trans (Function.update_self ..)
  have hraised := h.raised
  rw [hid, Option.elim_some] at hraised
  omega

/-- After a point has been taken, or none had to be, all depends on the skill. -/
theorem spendsPoint_raiseSkill_iff (hset : Represents env.skills c.character.skills m) (info : SkillInfo)
    (c₁ : Client) (id : UInt32) (hskills : c₁.character.skills = c.character.skills)
    (hjob : c₁.character.job = c.character.job)
    (hsp : c₁.character.sp.toInt = c.character.sp.toInt - if isBeginnerSkill id then 0 else 1)
    (alloc : Bool) : SpendsPoint env id m c (raiseSkill env alloc info c₁ id) ↔
      CanRaise env alloc info c.character id m ∨
        isBeginnerSkill id = true ∧ RefusesRaise env info c.character id m := by
  have hallowed : jobHasSkill c₁.character id = jobHasSkill c.character id := by
    rw [jobHasSkill, jobHasSkill, hjob]
  have hrequired : hasRequired env c₁.character info = hasRequired env c.character info := by
    rw [hasRequired, hasRequired, hskills]
  have hcan : CanRaise env alloc info c₁.character id m ↔ CanRaise env alloc info c.character id m := by
    rw [CanRaise, CanRaise, hallowed, hrequired, hskills]
  have hrefuse : RefusesRaise env info c₁.character id m ↔ RefusesRaise env info c.character id m := by
    rw [RefusesRaise, RefusesRaise, hallowed, hrequired]
  have hset₁ : Represents env.skills c₁.character.skills m := hskills ▸ hset
  rw [← hcan, ← hrefuse]
  constructor
  · rintro ⟨r, c', m', hcall, hset', hdone⟩
    by_contra hcon
    obtain ⟨hcannot, hnotLeft⟩ := not_or.1 hcon
    -- A refusal does not give the point back; what is not refused has been raised too far.
    by_cases hrefused : RefusesRaise env info c₁.character id m
    · obtain ⟨r', hcall'⟩ := raiseSkill_refuses hset₁ alloc hrefused
      obtain ⟨-, rfl⟩ := Prod.mk.inj (Except.ok.inj (hcall'.symm.trans hcall))
      obtain rfl := representsOnly hset₁ hset'
      have hpoint : isBeginnerSkill id ≠ true := fun hb => hnotLeft ⟨hb, hrefused⟩
      rcases hdone with ⟨skill, hraised, -⟩ | ⟨-, hsame⟩
      · exact hraised.ne
      · rw [if_neg hpoint, hsame] at hsp
        omega
    · obtain ⟨hid, hmaster, hset''⟩ := raiseSkill_wrong hset₁ hrefused hcannot hcall
      have hm' := representsOnly hset'' hset'
      rcases hdone with ⟨skill, hraised, -⟩ | ⟨hsame, -⟩
      · exact not_skillRaised hmaster hm' hraised
      · have hnew := congrFun (hm'.symm.trans hsame) id
        rw [Function.update_self, hid] at hnew
        cases hnew
  · rintro (hraise | ⟨hbeginner, hrefused⟩)
    · obtain ⟨c', m', skill, hcall, hsame, hset', hraised⟩ := raiseSkill_raises hset₁ hraise
      refine ⟨_, c', m', hcall, hset', .inl ⟨skill, hraised, fun hpoint => ?_⟩⟩
      rw [hsame, hsp, hpoint, if_neg Bool.false_ne_true]
    · obtain ⟨r, hcall⟩ := raiseSkill_refuses hset₁ alloc hrefused
      rw [if_pos hbeginner, sub_zero] at hsp
      exact ⟨r, c₁, m, hcall, hset₁, .inr ⟨rfl, Int16.toInt_inj.1 hsp⟩⟩

/-- A call spends a point rightly if and only if none is taken, or the skill can be raised. -/
theorem clientAssignSp_spends_iff (hset : Represents env.skills c.character.skills m)
    (skillInfo : UInt32 → Option SkillInfo) (alloc : Bool) (id : UInt32) :
    SpendsPoint env id m c (clientAssignSp env skillInfo alloc c id) ↔
      PointSpent env skillInfo alloc c.character id m := by
  have hleft (r : Bool) : SpendsPoint env id m c (.ok (r, c)) :=
    ⟨r, c, m, rfl, hset, .inr ⟨rfl, rfl⟩⟩
  rw [clientAssignSp, PointSpent]
  cases skillInfo id with
  | none => exact iff_of_true (hleft false) trivial
  | some info =>
    simp only
    by_cases hbeginner : isBeginnerSkill id = true
    · rw [if_pos hbeginner, if_pos hbeginner]
      refine (spendsPoint_raiseSkill_iff hset info (c.send (.statChange 0 [])) id rfl rfl ?_ alloc).trans ?_
      · rw [if_pos hbeginner]
        exact (sub_zero _).symm
      · rw [and_iff_right hbeginner]
    · rw [if_neg hbeginner, if_neg hbeginner]
      by_cases hsp : 0 < c.character.sp
      · have hpos : 0 < c.character.sp.toInt := Int16.lt_iff_toInt_lt.1 hsp
        have htaken : (c.character.sp - 1).toInt = c.character.sp.toInt - 1 := by
          have hlt := c.character.sp.toInt_lt
          have hone : (1 : Int16).toInt = 1 := rfl
          rw [Int16.toInt_sub, hone]
          exact Int.bmod_eq_of_le (by omega) (by omega)
        rw [if_pos hsp]
        -- The point is taken before anything else is looked at.
        let c₁ := (c.setCharacter { c.character with sp := c.character.sp - 1 }).send
          (.statChange statSp [(c.character.sp - 1).toInt])
        refine (spendsPoint_raiseSkill_iff hset info c₁ id rfl rfl ?_ alloc).trans ?_
        · rw [if_neg hbeginner]
          exact htaken
        · exact or_congr_right (iff_of_false (fun h => hbeginner h.1) (not_not.2 hsp))
      · rw [if_neg hsp]
        exact iff_of_true (hleft true) (.inr hsp)

/-! ### Calls -/

/-- A beginner with a point. -/
def novice : Client := .new { (default : Character) with sp := 1 }

theorem novice_skills (env : Env) : Represents env.skills novice.character.skills fun _ => none :=
  .of_entries_zero hashSetInit_wf hashSetInit_entries

/-- All skills have ten levels, and require nothing. -/
def tenLevels (_ : UInt32) : Option SkillInfo := some ⟨10, 0, 0⟩

/-- A beginner's skill is raised. -/
theorem clientAssignSp_spends_beginner : SpendsPoint potionEnv 1000 (fun _ => none) novice
    (clientAssignSp potionEnv tenLevels true novice 1000) := by
  refine (clientAssignSp_spends_iff (novice_skills potionEnv) tenLevels true 1000).2 (.inl ?_)
  exact ⟨⟨by decide, by decide⟩, by decide, .inr rfl⟩

/-- A beginner wants to raise the skill of a magician: it is refused, but the point is gone. -/
theorem clientAssignSp_loses : ¬SpendsPoint potionEnv 2001002 (fun _ => none) novice
    (clientAssignSp potionEnv tenLevels true novice 2001002) := by
  intro h
  let c₁ := (novice.setCharacter { novice.character with sp := novice.character.sp - 1 }).send
    (.statChange statSp [(novice.character.sp - 1).toInt])
  have hcall : clientAssignSp potionEnv tenLevels true novice 2001002 =
      raiseSkill potionEnv true ⟨10, 0, 0⟩ c₁ 2001002 := by
    have hbeginner : ¬isBeginnerSkill 2001002 = true := by decide
    have hsp : 0 < novice.character.sp := by decide
    simp only [clientAssignSp, tenLevels]
    rw [if_neg hbeginner, if_pos hsp]
  rw [hcall] at h
  rcases (spendsPoint_raiseSkill_iff (novice_skills potionEnv) _ c₁ 2001002 rfl rfl (by decide) true).1 h with
    ⟨⟨hjob, -⟩, -⟩ | ⟨hbeginner, -⟩
  · exact absurd hjob (by decide)
  · exact absurd hbeginner (by decide)

end Syrup
