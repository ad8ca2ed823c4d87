import Syrup.Client.HitPoints.InRange

/-!
# What becomes of experience

The experience of a character is that of the levels it has completed, and what it has towards the next one
(`Character.totalExp`). It grows by what is gained (`AccountsFor`), as long as the last level of `EXP_TABLE` is not
completed: then the character is of level 201, and the loop reads beyond the end of the table
(`clientGainExp_accounts_iff`).
-/

namespace Syrup

open Machine

/-- The experience of the levels below a level. -/
def expBelow (level : ℕ) : ℤ := ((expTable.take (level - 1)).map Int32.toInt).sum

namespace Character

variable (chr : Character)

/-- All the experience a character has had. -/
def totalExp : ℤ := expBelow chr.level.toNat + chr.exp.toInt

/-- The level is one of the table, and not yet completed. -/
structure Levelled : Prop where
  level : 1 ≤ chr.level.toNat ∧ chr.level.toNat ≤ 200
  exp : 0 ≤ chr.exp.toInt
  below : ∃ next, expTable[chr.level.toNat - 1]? = some next ∧ chr.exp.toInt < next.toInt

end Character

/-- All that is gained is there afterwards. -/
def AccountsFor (chr : Character) (exp : ℤ) (x : Exec Client) : Prop :=
  ∃ c', x = .ok c' ∧ c'.character.Levelled ∧ c'.character.totalExp = chr.totalExp + exp

/-! ## The table -/

theorem length_expTable : expTable.length = 200 := by decide +kernel

theorem expTable_pos : ∀ n ∈ expTable, 0 < n.toInt := by
  have h : (expTable.all fun n => 0 < n.toInt) = true := by decide
  exact fun n hn => of_decide_eq_true (List.all_eq_true.1 h n hn)

/-- A level is completed with what the table has for it. -/
theorem expBelow_succ {level : ℕ} {next : Int32} (hpos : 1 ≤ level) (h : expTable[level - 1]? = some next) :
    expBelow (level + 1) = expBelow level + next.toInt := by
  have hlevel : level + 1 - 1 = level - 1 + 1 := by omega
  rw [expBelow, expBelow, hlevel, List.take_add_one, h, List.map_append, List.sum_append]
  exact congrArg (_ + ·) (List.sum_singleton)

/-- What is below a level is below all higher ones. -/
theorem expBelow_mono {level level' : ℕ} (h : level ≤ level') : expBelow level ≤ expBelow level' := by
  obtain ⟨rest, hrest⟩ := List.take_prefix_take_left (l := expTable) (Nat.sub_le_sub_right h 1)
  rw [expBelow, expBelow, ← hrest, List.map_append, List.sum_append]
  refine le_add_of_nonneg_right (List.sum_nonneg fun n hn => ?_)
  obtain ⟨next, hnext, rfl⟩ := List.mem_map.1 hn
  have hmem : next ∈ expTable.take (level' - 1) := by
    rw [← hrest]
    exact List.mem_append_right _ hnext
  exact (expTable_pos next (List.mem_of_mem_take hmem)).le

/-! ## A level -/

/-- A level changes the maxima, and fills both gauges. -/
theorem gainHpMp_eq (env : Env) (r : ℕ × ℕ) (chr : Character) :
    ∃ hp mp, gainHpMp env r chr = { chr with
      maxHp := raiseAll chr.maxHp (levelHp chr r), maxMp := raiseAll chr.maxMp (levelMp env chr r),
      hp := hp, mp := mp } := by
  obtain ⟨h⟩ := @raised_levelMp env r chr
  rw [gainHpMp, h]
  exact ⟨_, _, rfl⟩

/-- The points that come with a level are not experience. -/
theorem exp_gainPoints (c : Client) : (gainPoints c).character.level = c.character.level ∧
    (gainPoints c).character.exp = c.character.exp := by
  rw [gainPoints]
  simp only
  split
  · split <;> exact ⟨rfl, rfl⟩
  · split <;> exact ⟨rfl, rfl⟩

theorem exp_gainLevel (env : Env) (r : ℕ × ℕ) (c : Client) :
    (gainLevel env r c).character.level = c.character.level ∧
      (gainLevel env r c).character.exp = c.character.exp := by
  obtain ⟨hp, mp, hgain⟩ := gainHpMp_eq env r (gainPoints c).character
  have hchr : (gainLevel env r c).character = gainHpMp env r (gainPoints c).character := rfl
  rw [hchr, hgain]
  exact exp_gainPoints c

theorem int32_eq {v : ℤ} (h : -2147483648 ≤ v) (h' : v ≤ 2147483647) :
    Exec.int32 v = .ok (Int32.ofInt v) :=
  if_pos ⟨h, h'⟩

/-- Experience that does not complete a level is added, and experience that does makes one; what is left goes on
    to the next. -/
theorem characterGainExp_eq {chr : Character} (h : chr.Levelled) {exp : Int32} (hexp : 0 ≤ exp.toInt) :
    (chr.totalExp + exp.toInt < expBelow (chr.level.toNat + 1) ∧ ∃ left exp', left < 0 ∧
      characterGainExp chr exp = .ok (left, { chr with exp := exp' }) ∧
      exp'.toInt = chr.exp.toInt + exp.toInt) ∨
    (expBelow (chr.level.toNat + 1) ≤ chr.totalExp + exp.toInt ∧ ∃ left, ¬left < 0 ∧
      characterGainExp chr exp = .ok (left, { chr with exp := 0, level := chr.level + 1 }) ∧
      left.toInt = chr.totalExp + exp.toInt - expBelow (chr.level.toNat + 1)) := by
  obtain ⟨next, hnext, hlt⟩ := h.below
  have hnonneg := h.exp
  have hlevel : chr.level ≠ 0 := fun hzero => by
    have := h.level.1
    rw [hzero] at this
    exact absurd this (by decide)
  have hbelow : expBelow (chr.level.toNat + 1) = expBelow chr.level.toNat + next.toInt :=
    expBelow_succ h.level.1 hnext
  have hbound := bounds32 exp
  have hbound' := bounds32 next
  have hremaining : (Int32.ofInt (next.toInt - chr.exp.toInt)).toInt = next.toInt - chr.exp.toInt :=
    Int32.toInt_ofInt_of_le (by omega) (by omega)
  have hleft : (Int32.ofInt (exp.toInt - (next.toInt - chr.exp.toInt))).toInt =
      exp.toInt - (next.toInt - chr.exp.toInt) := Int32.toInt_ofInt_of_le (by omega) (by omega)
  rw [hbelow, Character.totalExp, characterGainExp, if_neg hlevel, hnext]
  simp only [int32_eq (v := next.toInt - chr.exp.toInt) (by omega) (by omega), bind, Except.bind, hremaining,
    int32_eq (v := exp.toInt - (next.toInt - chr.exp.toInt)) (by omega) (by omega)]
  -- Whether the level is completed.
  by_cases hle : next.toInt - chr.exp.toInt ≤ exp.toInt
  · have hfull : Int32.ofInt (next.toInt - chr.exp.toInt) ≤ exp := by
      rwa [Int32.le_iff_toInt_le, hremaining]
    refine .inr ⟨by omega, _, ?_, if_pos hfull, ?_⟩
    · rw [Int32.lt_iff_toInt_lt, hleft, zero32]
      omega
    · omega
  · have hfull : ¬Int32.ofInt (next.toInt - chr.exp.toInt) ≤ exp := by
      rwa [Int32.le_iff_toInt_le, hremaining]
    refine .inl ⟨by omega, Int32.ofInt (exp.toInt - (next.toInt - chr.exp.toInt)),
      Int32.ofInt (chr.exp.toInt + exp.toInt), ?_, ?_, ?_⟩
    · rw [Int32.lt_iff_toInt_lt, hleft, zero32]
      omega
    · rw [if_neg hfull, int32_eq (by omega) (by omega)]
      rfl
    · exact Int32.toInt_ofInt_of_le (by omega) (by omega)

/-! ## All levels -/

section Levels

variable {env : Env} {rand : ℕ → ℕ × ℕ} {c : Client} {exp : Int32}

/-- Beyond the last level there is nothing in the table. -/
theorem characterGainExp_last {chr : Character} (h : chr.level.toNat = 201) :
    characterGainExp chr exp = .error .outOfBounds := by
  have hlevel : chr.level ≠ 0 := fun hzero => by
    rw [hzero] at h
    exact absurd h (by decide)
  have hnext : expTable[chr.level.toNat - 1]? = none := by
    rw [List.getElem?_eq_none_iff, length_expTable]
    omega
  rw [characterGainExp, if_neg hlevel, hnext]

/-- A new level has been completed by nothing. -/
theorem levelled_next {chr chr' : Character} (hlt : chr.level.toNat < 200)
    (hlevel : chr'.level.toNat = chr.level.toNat + 1) (hexp : chr'.exp = 0) :
    chr'.Levelled ∧ chr'.totalExp = expBelow (chr.level.toNat + 1) := by
  have hmem : chr.level.toNat < expTable.length := by
    rw [length_expTable]
    exact hlt
  have hnext : expTable[chr'.level.toNat - 1]? = some expTable[chr.level.toNat] := by
    rw [hlevel, Nat.add_sub_cancel]
    exact List.getElem?_eq_getElem hmem
  have hpos := expTable_pos _ (List.getElem_mem hmem)
  refine ⟨⟨by omega, by rw [hexp, zero32], _, hnext, by rwa [hexp, zero32]⟩, ?_⟩
  rw [Character.totalExp, hlevel, hexp, zero32, add_zero]

/-- What the loop does with experience, if it may make as many levels as there are. -/
theorem gainLevels_spec {n : ℕ} (h : c.character.Levelled) (hexp : 0 ≤ exp.toInt)
    (hn : 201 < c.character.level.toNat + n) :
    (c.character.totalExp + exp.toInt < expBelow 201 →
      AccountsFor c.character exp.toInt (gainLevels env rand n c exp)) ∧
    (expBelow 201 ≤ c.character.totalExp + exp.toInt →
      gainLevels env rand n c exp = .error .outOfBounds) := by
  induction n generalizing c exp with
  | zero =>
    have hle := h.level.2
    omega
  | succ n ih =>
    have hle := h.level.2
    rcases characterGainExp_eq h hexp with
      ⟨hlt, left, exp', hneg, hgain, hsum⟩ | ⟨hge, left, hpos, hgain, hleft⟩
    · -- The experience stays below the next level.
      have hbelow := hlt.trans_le (expBelow_mono (show c.character.level.toNat + 1 ≤ 201 by omega))
      refine ⟨fun _ => ?_, fun h => absurd h (not_le.2 hbelow)⟩
      have hloop : gainLevels env rand (n + 1) c exp =
          .ok (c.setCharacter { c.character with exp := exp' }) := by
        rw [gainLevels, hgain]
        exact if_pos hneg
      have htotal : expBelow c.character.level.toNat + exp'.toInt = c.character.totalExp + exp.toInt := by
        rw [hsum, Character.totalExp]
        omega
      obtain ⟨next, hnext, _⟩ := h.below
      rw [expBelow_succ h.level.1 hnext] at hlt
      have hnonneg := h.exp
      have hbelow' : exp'.toInt < next.toInt := by
        rw [Character.totalExp] at hlt
        omega
      have hnonneg' : 0 ≤ exp'.toInt := by omega
      exact ⟨_, hloop, ⟨h.level, hnonneg', next, hnext, hbelow'⟩, htotal⟩
    · -- A level is made, and the rest is up to the next run of the loop.
      have hloop : gainLevels env rand (n + 1) c exp = gainLevels env rand n (gainLevel env (rand n)
          (c.setCharacter { c.character with exp := 0, level := c.character.level + 1 })) left := by
        rw [gainLevels, hgain]
        exact if_neg hpos
      obtain ⟨hlevel', hexp'⟩ := exp_gainLevel env (rand n)
        (c.setCharacter { c.character with exp := 0, level := c.character.level + 1 })
      have hlevel : (c.character.level + 1).toNat = c.character.level.toNat + 1 := by
        rw [UInt8.toNat_add]
        exact Nat.mod_eq_of_lt (by change c.character.level.toNat + 1 < 256; omega)
      have hleftNonneg : 0 ≤ left.toInt := by omega
      rw [hloop]
      by_cases hlast : c.character.level.toNat = 200
      · rw [hlast] at hge
        refine ⟨fun h => absurd hge (not_le.2 h), fun _ => ?_⟩
        obtain ⟨n, rfl⟩ : ∃ m, n = m + 1 := ⟨n - 1, by omega⟩
        rw [gainLevels, characterGainExp_last]
        · rfl
        · rw [hlevel']
          exact hlevel.trans (by rw [hlast])
      · have hlt : c.character.level.toNat < 200 := by omega
        obtain ⟨hnext, htotal⟩ := levelled_next hlt ((congrArg UInt8.toNat hlevel').trans hlevel) hexp'
        have hmore : 201 < (gainLevel env (rand n) (c.setCharacter
            { c.character with exp := 0, level := c.character.level + 1 })).character.level.toNat + n := by
          rw [hlevel']
          exact hlevel.symm ▸ (by omega)
        obtain ⟨hok, herr⟩ := ih hnext hleftNonneg hmore
        rw [htotal, hleft, add_sub_cancel] at hok herr
        refine ⟨fun h => ?_, herr⟩
        obtain ⟨c', hc', hlevelled, hall⟩ := hok h
        refine ⟨c', hc', hlevelled, hall.trans ?_⟩
        rw [htotal]
        omega

/-- All experience is accounted for if and only if it does not complete the last level of the table. -/
theorem clientGainExp_accounts_iff (h : c.character.Levelled) (hexp : 0 ≤ exp.toInt) (env : Env)
    (rand : ℕ → ℕ × ℕ) (reward : Bool) :
    AccountsFor c.character exp.toInt (clientGainExp env rand c exp reward) ↔
      c.character.totalExp + exp.toInt < expBelow 201 := by
  have hlevel := h.level.1
  have hstart : 201 < ((c.send (if reward then .expGainInChat exp else .expGain exp)).mark
      statExp).character.level.toNat + 202 := by
    change 201 < c.character.level.toNat + 202
    omega
  obtain ⟨hok, herr⟩ := @gainLevels_spec env rand ((c.send (if reward then .expGainInChat exp else
    .expGain exp)).mark statExp) exp 202 h hexp hstart
  refine ⟨fun ⟨c', hc', _⟩ => ?_, hok⟩
  by_contra hge
  rw [clientGainExp, herr (not_lt.1 hge)] at hc'
  cases hc'

/-- A character of some level, with no experience towards the next. -/
def ofLevel (level : UInt8) : Client := .new { (default : Character) with level := level }

theorem levelled_ofLevel {level : UInt8} (h : 1 ≤ level.toNat ∧ level.toNat ≤ 200) :
    (ofLevel level).character.Levelled := by
  have hmem : level.toNat - 1 < expTable.length := by
    rw [length_expTable]
    omega
  exact ⟨h, le_rfl, _, List.getElem?_eq_getElem hmem, expTable_pos _ (List.getElem_mem hmem)⟩

/-- What takes a beginner to the second level, and what is left then. -/
theorem clientGainExp_accounts_twenty :
    AccountsFor (ofLevel 1).character 20 (clientGainExp (.ofLists [] [] [] []) (fun _ => (0, 0)) (ofLevel 1) 20
      false) :=
  (clientGainExp_accounts_iff (levelled_ofLevel (by decide)) (by decide) _ _ false).2 (by decide +kernel)

/-- The last level is completed: the loop reads beyond the end of the table. -/
theorem clientGainExp_beyond : (ofLevel 200).character.Levelled ∧
    clientGainExp (.ofLists [] [] [] []) (fun _ => (0, 0)) (ofLevel 200) 1697021059 false =
      .error .outOfBounds ∧
    ¬AccountsFor (ofLevel 200).character 1697021059 (clientGainExp (.ofLists [] [] [] []) (fun _ => (0, 0))
      (ofLevel 200) 1697021059 false) := by
  have hlast := @levelled_ofLevel 200 (by decide)
  have hstart : 201 < (((ofLevel 200).send (.expGain 1697021059)).mark statExp).character.level.toNat +
      202 := by
    decide
  obtain ⟨_, herr⟩ := @gainLevels_spec (.ofLists [] [] [] []) (fun _ => (0, 0))
    (((ofLevel 200).send (.expGain 1697021059)).mark statExp) 1697021059 202 hlast (by decide) hstart
  have hloop : clientGainExp (.ofLists [] [] [] []) (fun _ => (0, 0)) (ofLevel 200) 1697021059 false =
      .error .outOfBounds := herr (by decide +kernel)
  refine ⟨hlast, hloop, fun ⟨c', hc', _⟩ => ?_⟩
  rw [hloop] at hc'
  cases hc'

end Levels

end Syrup
