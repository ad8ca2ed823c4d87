import Syrup.Client.Stats.Experience

/-!
# Levels do not weaken

A level adds points, and raises the maxima of hit points and mana. No sum should overflow on the way, and nothing
should be lower than before (`NeverWeakens`). So it is if and only if every level begins with few enough points, and
with mana to which the bonus for intelligence can be added within 16 bits (`clientGainExp_weakens_iff`): what is
more than that is stored as a negative number, and the maximum is then `0`.
-/

namespace Syrup

open Machine

/-! ## Points -/

/-- The points that a level adds. -/
structure Points where
  str : Int16
  dex : Int16
  sp : Int16
  ap : Int16

/-- The points of a level, by job and level. -/
def levelPoints (chr : Character) : Points :=
  if isBeginner chr.job && chr.level ≤ 10 then
    if chr.level ≤ 5 then ⟨5, 0, 0, 0⟩ else ⟨4, 1, 0, 0⟩
  else
    let ap : Int16 :=
      if isCygnus chr.job && 10 < chr.level then
        if chr.level ≤ 17 then 7 else if chr.level < 77 then 6 else 5
      else 5
    ⟨0, 0, if isBeginner chr.job then 0 else 3, ap⟩

theorem gainPoints_eq (c : Client) : (gainPoints c).character = { c.character with
    str := c.character.str + (levelPoints c.character).str
    dex := c.character.dex + (levelPoints c.character).dex
    sp := c.character.sp + (levelPoints c.character).sp
    ap := c.character.ap + (levelPoints c.character).ap } := by
  rw [gainPoints, levelPoints]
  simp only
  split
  · split <;> simp only [Int16.add_zero] <;> rfl
  · split <;> simp only [Int16.add_zero] <;> rfl

theorem levelPoints_nonneg (chr : Character) : 0 ≤ (levelPoints chr).str.toInt ∧
    0 ≤ (levelPoints chr).dex.toInt ∧ 0 ≤ (levelPoints chr).sp.toInt ∧ 0 ≤ (levelPoints chr).ap.toInt := by
  rw [levelPoints]
  simp only
  split_ifs <;> decide

/-! ## Raises -/

/-- A maximum that is not out of range. -/
def MaxInRange (m : Int16) : Prop := 0 ≤ m.toInt ∧ m.toInt ≤ 30000

theorem clampMax_of_le {n : ℤ} (h : 0 ≤ n) (h' : n ≤ 30000) : clampMax n = n := by
  rw [clampMax]
  omega

theorem clampMax_bounds (n : ℤ) : 0 ≤ clampMax n ∧ clampMax n ≤ 30000 := by
  rw [clampMax]
  omega

/-- Whatever is stored, the maximum is in range. -/
theorem maxInRange_setMax (m : Int16) : MaxInRange (setMax m) := by
  rw [← Int16.ofInt_toInt m, MaxInRange, toInt_setMax (bounds16 m)]
  exact clampMax_bounds _

theorem maxInRange_raiseAll {m : Int16} (h : MaxInRange m) (l : List ℤ) : MaxInRange (raiseAll m l) := by
  induction l generalizing m with
  | nil => exact h
  | cons n l ih => exact ih (maxInRange_setMax _)

theorem raiseSums_append {m : Int16} {l l' : List ℤ} :
    raiseSums m (l ++ l') = raiseSums m l ++ raiseSums (raiseAll m l) l' := by
  induction l generalizing m with
  | nil => rfl
  | cons n l ih =>
    rw [List.cons_append, raiseSums, raiseSums, List.cons_append, ih]
    rfl

/-- A small raise overflows nothing. -/
theorem raise_small {m : Int16} (h : MaxInRange m) {o : Option ℤ} (ho : ∀ n ∈ o, -300 ≤ n ∧ n ≤ 300) :
    (raiseAll m o.toList).toInt = clampMax (m.toInt + o.getD 0) ∧ ∀ k ∈ raiseSums m o.toList, Fits16 k := by
  rcases o with _ | n
  · refine ⟨?_, fun _ hk => absurd hk List.not_mem_nil⟩
    rw [Option.getD_none, add_zero]
    exact (clampMax_of_le h.1 h.2).symm
  · obtain ⟨hlow, hhigh⟩ := ho n rfl
    have hfits : Fits16 (m.toInt + n) := ⟨by have := h.1; omega, by have := h.2; omega⟩
    refine ⟨toInt_setMax hfits, fun k hk => ?_⟩
    rw [Option.toList_some, raiseSums, raiseSums, List.mem_singleton] at hk
    rwa [hk]

theorem levelHpMp_le {job : UInt16} {r : ℕ × ℕ} {p : ℕ × ℕ} (h : levelHpMp job r = some p) :
    p.1 ≤ 48 ∧ p.2 ≤ 24 := by
  rw [levelHpMp] at h
  split_ifs at h <;> cases h <;> constructor <;> simp only <;> omega

/-! ## A level -/

/-- Nothing is lower than before. -/
structure NotWeaker (chr chr' : Character) : Prop where
  level : chr.level ≤ chr'.level
  maxHp : chr.maxHp ≤ chr'.maxHp
  maxMp : chr.maxMp ≤ chr'.maxMp
  str : chr.str ≤ chr'.str
  dex : chr.dex ≤ chr'.dex
  ap : chr.ap ≤ chr'.ap
  sp : chr.sp ≤ chr'.sp

theorem NotWeaker.refl (chr : Character) : NotWeaker chr chr :=
  ⟨UInt8.le_refl _, Int16.le_refl _, Int16.le_refl _, Int16.le_refl _, Int16.le_refl _, Int16.le_refl _,
    Int16.le_refl _⟩

theorem NotWeaker.trans {chr₁ chr₂ chr₃ : Character} (h : NotWeaker chr₁ chr₂) (h' : NotWeaker chr₂ chr₃) :
    NotWeaker chr₁ chr₃ where
  level := UInt8.le_trans h.level h'.level
  maxHp := Int16.le_trans h.maxHp h'.maxHp
  maxMp := Int16.le_trans h.maxMp h'.maxMp
  str := Int16.le_trans h.str h'.str
  dex := Int16.le_trans h.dex h'.dex
  ap := Int16.le_trans h.ap h'.ap
  sp := Int16.le_trans h.sp h'.sp

/-- The maxima of a character are in range. -/
def MaximaInRange (chr : Character) : Prop := MaxInRange chr.maxHp ∧ MaxInRange chr.maxMp

/-- The sums that a level stores in 16 bits. -/
def levelUpSums (env : Env) (r : ℕ × ℕ) (chr : Character) : List ℤ :=
  [chr.str.toInt + (levelPoints chr).str.toInt, chr.dex.toInt + (levelPoints chr).dex.toInt,
    chr.sp.toInt + (levelPoints chr).sp.toInt, chr.ap.toInt + (levelPoints chr).ap.toInt] ++
    raiseSums chr.maxHp (levelHp chr r) ++ raiseSums chr.maxMp (levelMp env chr r)

/-- The maximum of mana with what is random and what the skill of a mage adds. -/
def manaByLevel (env : Env) (r : ℕ × ℕ) (chr : Character) : ℤ :=
  let byLevel := clampMax (chr.maxMp.toInt + (((levelHpMp chr.job r).map fun p => (p.2 : ℤ)).getD 0))
  clampMax (byLevel + (((mageSkill env chr).map fun skill => skill.level.toInt * 2).getD 0))

/-- What is added to the maximum of mana for intelligence. -/
def intBonus (chr : Character) : ℤ :=
  (characterGetEffectiveInt chr).toInt.tdiv (if isMage chr.job then 20 else 10)

/-- The points fit, and so does the bonus for intelligence, which makes up for what may be lost to a skill. -/
structure LevelFits (env : Env) (r : ℕ × ℕ) (chr : Character) : Prop where
  str : chr.str.toInt ≤ 32767 - (levelPoints chr).str.toInt
  dex : chr.dex.toInt ≤ 32767 - (levelPoints chr).dex.toInt
  sp : chr.sp.toInt ≤ 32767 - (levelPoints chr).sp.toInt
  ap : chr.ap.toInt ≤ 32767 - (levelPoints chr).ap.toInt
  bonus : intBonus chr ≤ 32767 - manaByLevel env r chr
  mana : chr.maxMp.toInt = 0 ∨ chr.maxMp.toInt - manaByLevel env r chr ≤ intBonus chr

/-- The bonus for intelligence is no more negative than intelligence. -/
theorem intBonus_ge (chr : Character) : -32768 ≤ intBonus chr := by
  have hb := bounds16 (characterGetEffectiveInt chr)
  have hle := Int.natAbs_tdiv_le_natAbs (characterGetEffectiveInt chr).toInt (if isMage chr.job then 20 else 10)
  rw [intBonus]
  omega

instance (env : Env) (r : ℕ × ℕ) (chr : Character) : Decidable (LevelFits env r chr) :=
  decidable_of_iff
    (chr.str.toInt ≤ 32767 - (levelPoints chr).str.toInt ∧ chr.dex.toInt ≤ 32767 - (levelPoints chr).dex.toInt ∧
      chr.sp.toInt ≤ 32767 - (levelPoints chr).sp.toInt ∧ chr.ap.toInt ≤ 32767 - (levelPoints chr).ap.toInt ∧
      intBonus chr ≤ 32767 - manaByLevel env r chr ∧
      (chr.maxMp.toInt = 0 ∨ chr.maxMp.toInt - manaByLevel env r chr ≤ intBonus chr))
    ⟨fun ⟨hstr, hdex, hsp, hap, hbonus, hmana⟩ => ⟨hstr, hdex, hsp, hap, hbonus, hmana⟩,
      fun ⟨hstr, hdex, hsp, hap, hbonus, hmana⟩ => ⟨hstr, hdex, hsp, hap, hbonus, hmana⟩⟩

section Level

variable {env : Env} {r : ℕ × ℕ} {chr : Character}

/-- The maximum of hit points is never out of range. -/
theorem raise_levelHp (h : MaxInRange chr.maxHp) :
    chr.maxHp ≤ raiseAll chr.maxHp (levelHp chr r) ∧ ∀ k ∈ raiseSums chr.maxHp (levelHp chr r), Fits16 k := by
  have hsmall : ∀ n ∈ (levelHpMp chr.job r).map fun p => (p.1 : ℤ), 0 ≤ n ∧ n ≤ 48 := by
    intro n hn
    obtain ⟨p, hp, rfl⟩ := Option.map_eq_some_iff.1 hn
    have hle := (levelHpMp_le hp).1
    omega
  obtain ⟨hall, hsums⟩ := @raise_small _ h ((levelHpMp chr.job r).map fun p => (p.1 : ℤ))
    fun n hn => by have := hsmall n hn; omega
  refine ⟨?_, hsums⟩
  have hnonneg : 0 ≤ (((levelHpMp chr.job r).map fun p => (p.1 : ℤ)).getD 0) := by
    rcases hlevel : levelHpMp chr.job r with _ | p
    · exact Int.le_refl 0
    · exact Int.natCast_nonneg p.1
  have hle := h.2
  rw [le16, levelHp, hall, clampMax]
  omega

theorem raise_levelMp (h : MaxInRange chr.maxMp) :
    ∃ m, m.toInt = manaByLevel env r chr ∧ MaxInRange m ∧
      raiseAll chr.maxMp (levelMp env chr r) = setMax (Int16.ofInt (m.toInt + intBonus chr)) ∧
      ∃ l, raiseSums chr.maxMp (levelMp env chr r) = l ++ [m.toInt + intBonus chr] ∧ ∀ k ∈ l, Fits16 k := by
  have hsmall : ∀ n ∈ (levelHpMp chr.job r).map fun p => (p.2 : ℤ), -300 ≤ n ∧ n ≤ 300 := by
    intro n hn
    obtain ⟨p, hp, rfl⟩ := Option.map_eq_some_iff.1 hn
    have hle := (levelHpMp_le hp).2
    omega
  have hskill : ∀ n ∈ (mageSkill env chr).map fun skill => skill.level.toInt * 2, -300 ≤ n ∧ n ≤ 300 := by
    intro n hn
    obtain ⟨skill, _, rfl⟩ := Option.map_eq_some_iff.1 hn
    have hlow := skill.level.le_toInt
    have hhigh := skill.level.toInt_lt
    omega
  -- First the random part, then what the skill of a mage adds.
  obtain ⟨hall, hsums⟩ := raise_small h hsmall
  have hrange := maxInRange_raiseAll h ((levelHpMp chr.job r).map fun p => (p.2 : ℤ)).toList
  obtain ⟨hall', hsums'⟩ := raise_small hrange hskill
  refine ⟨_, hall'.trans ?_, maxInRange_raiseAll hrange _, ?_,
    raiseSums chr.maxMp ((levelHpMp chr.job r).map fun p => (p.2 : ℤ)).toList ++
      raiseSums (raiseAll chr.maxMp ((levelHpMp chr.job r).map fun p => (p.2 : ℤ)).toList)
        ((mageSkill env chr).map fun skill => skill.level.toInt * 2).toList, ?_, fun k hk => ?_⟩
  · rw [manaByLevel, hall]
  · rw [levelMp, raiseAll_append, raiseAll_append]
    rfl
  · rw [levelMp, raiseSums_append, raiseSums_append, raiseAll_append]
    rfl
  · rcases List.mem_append.1 hk with hk | hk
    · exact hsums k hk
    · exact hsums' k hk

/-- What a level makes of a character. -/
theorem gainLevel_eq (c : Client) : ∃ hp mp, (gainLevel env r c).character = { c.character with
    str := c.character.str + (levelPoints c.character).str
    dex := c.character.dex + (levelPoints c.character).dex
    sp := c.character.sp + (levelPoints c.character).sp
    ap := c.character.ap + (levelPoints c.character).ap
    maxHp := raiseAll c.character.maxHp (levelHp c.character r)
    maxMp := raiseAll c.character.maxMp (levelMp env c.character r)
    hp := hp, mp := mp } := by
  obtain ⟨hp, mp, hgain⟩ := gainHpMp_eq env r (gainPoints c).character
  refine ⟨hp, mp, hgain.trans ?_⟩
  rw [gainPoints_eq]
  rfl

theorem maximaInRange_gainLevel {c : Client} (h : MaximaInRange c.character) :
    MaximaInRange (gainLevel env r c).character := by
  obtain ⟨hp, mp, hlevel⟩ := @gainLevel_eq env r c
  rw [hlevel]
  exact ⟨maxInRange_raiseAll h.1 _, maxInRange_raiseAll h.2 _⟩

/-- A sum of points is not lower if it does not overflow. -/
theorem le_add_points {a b : Int16} (hb : 0 ≤ b.toInt) (h : a.toInt ≤ 32767 - b.toInt) :
    a ≤ a + b ∧ Fits16 (a.toInt + b.toInt) := by
  have ha := bounds16 a
  refine ⟨?_, by omega, by omega⟩
  rw [le16, add16 (by omega) (by omega)]
  omega

/-- A level does not weaken, and overflows nothing, if and only if it fits. -/
theorem levelFits_iff {c : Client} (h : MaximaInRange c.character) : LevelFits env r c.character ↔
    (∀ k ∈ levelUpSums env r c.character, Fits16 k) ∧ NotWeaker c.character (gainLevel env r c).character := by
  obtain ⟨hp, mp, hlevel⟩ := @gainLevel_eq env r c
  obtain ⟨hstr, hdex, hsp, hap⟩ := levelPoints_nonneg c.character
  obtain ⟨hmaxHp, hhpSums⟩ := @raise_levelHp r c.character h.1
  obtain ⟨m, hm, hmrange, hmaxMp, l, hmpSums, hl⟩ := @raise_levelMp env r c.character h.2
  rw [hlevel]
  constructor
  · -- What is added is not negative, and fits.
    intro hfits
    obtain ⟨hstr, hstrSum⟩ := le_add_points hstr hfits.str
    obtain ⟨hdex, hdexSum⟩ := le_add_points hdex hfits.dex
    obtain ⟨hsp, hspSum⟩ := le_add_points hsp hfits.sp
    obtain ⟨hap, hapSum⟩ := le_add_points hap hfits.ap
    have hbonus : Fits16 (m.toInt + intBonus c.character) := by
      have hb := hfits.bonus
      have hlow := intBonus_ge c.character
      have hnonneg := hmrange.1
      exact ⟨by omega, by omega⟩
    refine ⟨fun k hk => ?_, UInt8.le_refl _, hmaxHp, ?_, hstr, hdex, hap, hsp⟩
    · simp only [levelUpSums, hmpSums, List.cons_append, List.nil_append, List.mem_cons, List.mem_append,
        List.not_mem_nil, or_false] at hk
      obtain rfl | rfl | rfl | rfl | hk | hk | rfl := hk
      · exact hstrSum
      · exact hdexSum
      · exact hspSum
      · exact hapSum
      · exact hhpSums k hk
      · exact hl k hk
      · exact hbonus
    · have hmana := hfits.mana
      have hle := h.2.2
      rw [le16, hmaxMp, toInt_setMax hbonus, clampMax]
      omega
  · rintro ⟨hsums, hweak⟩
    -- Each of the sums is one of those that have to fit.
    have hsum : ∀ {a b : ℤ}, a + b ∈ levelUpSums env r c.character → a ≤ 32767 - b := fun hk => by
      have := (hsums _ hk).2
      omega
    have hbonus : m.toInt + intBonus c.character ∈ levelUpSums env r c.character := by
      rw [levelUpSums, hmpSums, ← List.append_assoc]
      exact List.mem_append_right _ (List.mem_singleton_self _)
    refine ⟨hsum ?_, hsum ?_, hsum ?_, hsum ?_, ?_, ?_⟩
    · simp only [levelUpSums, List.cons_append, List.mem_cons, true_or]
    · simp only [levelUpSums, List.cons_append, List.mem_cons, true_or, or_true]
    · simp only [levelUpSums, List.cons_append, List.mem_cons, true_or, or_true]
    · simp only [levelUpSums, List.cons_append, List.mem_cons, true_or, or_true]
    · have := hsum hbonus
      omega
    · have hmana := hweak.maxMp
      have hnonneg := h.2.1
      rw [hmaxMp, le16, toInt_setMax (hsums _ hbonus), clampMax] at hmana
      omega

end Level

/-! ## All levels -/

/-- The characters that gain the levels that experience makes, with the random numbers of each. -/
def levelUps (env : Env) (rand : ℕ → ℕ × ℕ) : ℕ → Client → Int32 → List (Client × (ℕ × ℕ))
  | 0, _, _ => []
  | n + 1, c, exp =>
    match characterGainExp c.character exp with
    | .error _ => []
    | .ok (exp, chr) =>
      if exp < 0 then []
      else (c.setCharacter chr, rand n) ::
        levelUps env rand n (gainLevel env (rand n) (c.setCharacter chr)) exp

/-- The levels that a call of `client_gain_exp` makes. -/
def levelUpsOf (env : Env) (rand : ℕ → ℕ × ℕ) (c : Client) (exp : Int32) (reward : Bool) :
    List (Client × (ℕ × ℕ)) :=
  levelUps env rand 202 (announceExp c exp reward) exp

/-- No sum overflows, no level weakens, and what there is in the end is not weaker than what there was. -/
structure NeverWeakens (env : Env) (ups : List (Client × (ℕ × ℕ))) (chr : Character) (x : Exec Client) :
    Prop where
  sums : ∀ p ∈ ups, ∀ k ∈ levelUpSums env p.2 p.1.character, Fits16 k
  levels : ∀ p ∈ ups, NotWeaker p.1.character (gainLevel env p.2 p.1).character
  total : ∀ c', x = .ok c' → NotWeaker chr c'.character

section Levels

variable {env : Env} {rand : ℕ → ℕ × ℕ} {c : Client} {exp : Int32}

/-- Experience changes the level and itself only. -/
theorem characterGainExp_notWeaker {chr chr' : Character} {left : Int32}
    (h : characterGainExp chr exp = .ok (left, chr')) :
    NotWeaker chr chr' ∧ chr'.maxHp = chr.maxHp ∧ chr'.maxMp = chr.maxMp := by
  have hrefl := NotWeaker.refl chr
  have hlevel : chr.level.toNat ≤ 200 := by
    by_contra hlt
    have hnone : expTable[chr.level.toNat - 1]? = none := by
      rw [List.getElem?_eq_none_iff, length_expTable]
      omega
    rw [characterGainExp, hnone] at h
    split at h <;> cases h
  obtain ⟨_, e, rfl⟩ | ⟨_, rfl⟩ := characterGainExp_cases h
  · exact ⟨{ hrefl with }, rfl, rfl⟩
  · refine ⟨{ hrefl with level := ?_ }, rfl, rfl⟩
    rw [UInt8.le_iff_toNat_le, UInt8.toNat_add]
    change _ ≤ (chr.level.toNat + 1) % 256
    omega

/-- What is gained with experience, level by level, or not at all. -/
theorem levelUps_cases {n : ℕ} : (levelUps env rand (n + 1) c exp = [] ∧
      ∀ c', gainLevels env rand (n + 1) c exp = .ok c' → NotWeaker c.character c'.character) ∨
    ∃ left chr, NotWeaker c.character chr ∧ chr.maxHp = c.character.maxHp ∧ chr.maxMp = c.character.maxMp ∧
      levelUps env rand (n + 1) c exp = (c.setCharacter chr, rand n) ::
        levelUps env rand n (gainLevel env (rand n) (c.setCharacter chr)) left ∧
      gainLevels env rand (n + 1) c exp =
        gainLevels env rand n (gainLevel env (rand n) (c.setCharacter chr)) left := by
  rw [levelUps, gainLevels]
  rcases hgain : characterGainExp c.character exp with fault | ⟨left, chr⟩
  · exact .inl ⟨rfl, fun _ hc => by cases hc⟩
  · obtain ⟨hweak, hmaxHp, hmaxMp⟩ := characterGainExp_notWeaker hgain
    by_cases hneg : left < 0
    · rw [Exec.ok_bind]
      simp only [if_pos hneg]
      refine .inl ⟨trivial, fun _ hc => ?_⟩
      cases hc
      exact hweak
    · rw [Exec.ok_bind]
      simp only [if_neg hneg]
      exact .inr ⟨left, chr, hweak, hmaxHp, hmaxMp, rfl, rfl⟩

/-- Every level begins with maxima in range. -/
theorem maximaInRange_levelUps {n : ℕ} (h : MaximaInRange c.character) :
    ∀ p ∈ levelUps env rand n c exp, MaximaInRange p.1.character := by
  induction n generalizing c exp with
  | zero => exact fun _ hp => absurd hp List.not_mem_nil
  | succ n ih =>
    obtain ⟨hnil, _⟩ | ⟨left, chr, _, hmaxHp, hmaxMp, hcons, _⟩ := @levelUps_cases env rand c exp n
    · rw [hnil]
      exact fun _ hp => absurd hp List.not_mem_nil
    · have hrange : MaximaInRange (c.setCharacter chr).character := ⟨hmaxHp ▸ h.1, hmaxMp ▸ h.2⟩
      rw [hcons]
      exact List.forall_mem_cons.2 ⟨hrange, ih (maximaInRange_gainLevel hrange)⟩

/-- If no level weakens, what there is in the end is not weaker than what there was. -/
theorem notWeaker_gainLevels {n : ℕ} {c' : Client}
    (h : ∀ p ∈ levelUps env rand n c exp, NotWeaker p.1.character (gainLevel env p.2 p.1).character)
    (hcall : gainLevels env rand n c exp = .ok c') : NotWeaker c.character c'.character := by
  induction n generalizing c exp with
  | zero => cases hcall
  | succ n ih =>
    obtain ⟨_, hweak⟩ | ⟨left, chr, hweak, _, _, hcons, hloop⟩ := @levelUps_cases env rand c exp n
    · exact hweak c' hcall
    · rw [hcons] at h
      obtain ⟨hlevel, hlevels⟩ := List.forall_mem_cons.1 h
      exact hweak.trans (hlevel.trans (ih hlevels (hloop ▸ hcall)))

/-- A call neither weakens a character nor overflows if and only if all the levels that it makes fit. -/
theorem clientGainExp_weakens_iff (h : MaximaInRange c.character) (env : Env) (rand : ℕ → ℕ × ℕ) (exp : Int32)
    (reward : Bool) :
    NeverWeakens env (levelUpsOf env rand c exp reward) c.character (clientGainExp env rand c exp reward) ↔
      ∀ p ∈ levelUpsOf env rand c exp reward, LevelFits env p.2 p.1.character := by
  have hrange : ∀ p ∈ levelUpsOf env rand c exp reward, MaximaInRange p.1.character :=
    @maximaInRange_levelUps env rand (announceExp c exp reward) exp 202 h
  constructor
  · intro hweak p hp
    exact (levelFits_iff (hrange p hp)).2 ⟨hweak.sums p hp, hweak.levels p hp⟩
  · intro hfits
    have hlevels : ∀ p ∈ levelUpsOf env rand c exp reward,
        NotWeaker p.1.character (gainLevel env p.2 p.1).character :=
      fun p hp => ((levelFits_iff (hrange p hp)).1 (hfits p hp)).2
    exact ⟨fun p hp => ((levelFits_iff (hrange p hp)).1 (hfits p hp)).1, hlevels,
      fun _ hcall => @notWeaker_gainLevels env rand (announceExp c exp reward) exp 202 _ hlevels hcall⟩

/-- A beginner of some intelligence and mana. -/
def thinker (int_ maxMp : Int16) : Client :=
  .new { (default : Character) with int_ := int_, maxMp := maxMp }

/-- The level that 15 points of experience make of the first one. -/
theorem clientGainExp_weakens_dull : NeverWeakens (.ofLists [] [] [] [])
    (levelUpsOf (.ofLists [] [] [] []) (fun _ => (0, 0)) (thinker 4 5) 15 false) (thinker 4 5).character
    (clientGainExp (.ofLists [] [] [] []) (fun _ => (0, 0)) (thinker 4 5) 15 false) := by
  have hrange : MaximaInRange (thinker 4 5).character := by
    refine ⟨⟨?_, ?_⟩, ?_, ?_⟩ <;> decide
  have hfits : ((levelUpsOf (.ofLists [] [] [] []) (fun _ => (0, 0)) (thinker 4 5) 15 false).all
      fun p => LevelFits (.ofLists [] [] [] []) p.2 p.1.character) = true := by
    decide +kernel
  exact (clientGainExp_weakens_iff hrange _ _ 15 false).2
    fun p hp => of_decide_eq_true (List.all_eq_true.1 hfits p hp)

/-- A beginner with much intelligence and mana: a level leaves it without mana. -/
theorem clientGainExp_weakens_thinker : MaximaInRange (thinker 32767 30000).character ∧
    (clientGainExp (.ofLists [] [] [] []) (fun _ => (0, 0)) (thinker 32767 30000) 15 false).Returns
      (fun c => c.character.maxMp = 0) ∧
    ¬NeverWeakens (.ofLists [] [] [] [])
      (levelUpsOf (.ofLists [] [] [] []) (fun _ => (0, 0)) (thinker 32767 30000) 15 false)
      (thinker 32767 30000).character
      (clientGainExp (.ofLists [] [] [] []) (fun _ => (0, 0)) (thinker 32767 30000) 15 false) := by
  have hcall : (clientGainExp (.ofLists [] [] [] []) (fun _ => (0, 0)) (thinker 32767 30000) 15 false).Returns
      fun c => c.character.maxMp = 0 := by
    decide +kernel
  refine ⟨⟨⟨?_, ?_⟩, ?_, ?_⟩, hcall, fun h => ?_⟩
  · decide
  · decide
  · decide
  · decide
  · obtain ⟨c', hc', hzero⟩ := Exec.returns_iff.1 hcall
    have hle := (h.total c' hc').maxMp
    rw [hzero] at hle
    exact absurd hle (by decide)

end Levels

end Syrup
