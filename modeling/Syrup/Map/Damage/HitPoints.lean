import Syrup.Lib.Machine
import Syrup.Map.Damage

/-!
# The hit points of a monster that is hit

The arithmetic of `map_damage_monster_by`, with its overflows: the numbers of a packet are subtracted from
the hit points as long as there are any left, and what is left is sent in percent, after it has been
multiplied by `100`.

A negative number heals. So all is in range if and only if the monster is never healed beyond `INT32_MAX`
and, should it survive, it ends up with no more hit points than it had at most, and than `INT32_MAX / 100`
(`damaged_inRange_iff`).
-/

namespace Syrup

namespace Map

/-- The loop over the hits, with the overflows of a subtraction. -/
def hits : Int32 → List Int32 → Exec Int32
  | hp, [] => return hp
  | hp, d :: damage =>
    if hp > 0 then do
      let hp ← Exec.int32 (hp.toInt - d.toInt)
      hits hp damage
    else return hp

/-- The hit points that are left, and what is sent of them: `hp * 100 / maxHp`. -/
def damageHp (maxHp hp : Int32) (damage : List Int32) : Exec (Int32 × Int32) := do
  let hp ← hits hp damage
  let hp := if hp < 0 then 0 else hp
  let product ← Exec.int32 (hp.toInt * 100)
  if maxHp = 0 then .error .divisionByZero
  else return (hp, product / maxHp)

/-- Nothing overflows, and what is left is in range. -/
def InRange (maxHp hp : Int32) (damage : List Int32) : Prop :=
  (damageHp maxHp hp damage).Returns fun (hp, percent) =>
    0 ≤ hp ∧ hp ≤ maxHp ∧ 0 ≤ percent ∧ percent ≤ 100

instance (maxHp hp : Int32) (damage : List Int32) : Decidable (InRange maxHp hp damage) :=
  inferInstanceAs (Decidable (Exec.Returns _ _))

/-- The damage of the hits. -/
def total (damage : List Int32) : ℤ := (damage.map Int32.toInt).sum

/-- As long as the hits have not killed the monster, they do not heal it beyond `INT32_MAX`. -/
def Calm (hp : ℤ) (damage : List Int32) : Prop :=
  ∀ k ≤ damage.length, (∀ j < k, total (damage.take j) < hp) → hp - total (damage.take k) ≤ 2147483647

/-- The hits never kill the monster. -/
def Survives (hp : ℤ) (damage : List Int32) : Prop := ∀ k ≤ damage.length, total (damage.take k) < hp

/-- The damage that does no harm to the arithmetic. -/
structure Tame (maxHp hp : Int32) (damage : List Int32) : Prop where
  calm : Calm hp.toInt damage
  survives : Survives hp.toInt damage →
    hp.toInt - total damage ≤ maxHp.toInt ∧ hp.toInt - total damage ≤ 21474836

variable {hp maxHp d : Int32} {damage : List Int32} {n : ℤ}

@[simp] theorem total_nil : total [] = 0 := rfl

@[simp] theorem total_cons : total (d :: damage) = d.toInt + total damage := rfl

@[simp] theorem calm_nil : Calm n [] ↔ n ≤ 2147483647 := by simp [Calm]

@[simp] theorem survives_nil : Survives n [] ↔ 0 < n := by simp [Survives]

theorem survives_cons : Survives n (d :: damage) ↔ 0 < n ∧ Survives (n - d.toInt) damage := by
  constructor
  · intro h
    refine ⟨h 0 (Nat.zero_le _), fun k hk => ?_⟩
    have hnext := h (k + 1) (Nat.succ_le_succ hk)
    rw [List.take_succ_cons, total_cons] at hnext
    omega
  · rintro ⟨hpos, h⟩ k hk
    induction k with
    | zero => exact hpos
    | succ k _ =>
      have hnext := h k (Nat.le_of_succ_le_succ hk)
      rw [List.take_succ_cons, total_cons]
      omega

theorem calm_cons (hn : n ≤ 2147483647) :
    Calm n (d :: damage) ↔ (0 < n → Calm (n - d.toInt) damage) := by
  constructor
  · intro h hpos k hk hbefore
    have hnext := h (k + 1) (Nat.succ_le_succ hk) fun j hj => ?_
    · rw [List.take_succ_cons, total_cons] at hnext
      omega
    · induction j with
      | zero => exact hpos
      | succ j _ =>
        have hj := hbefore j (Nat.lt_of_succ_lt_succ hj)
        rw [List.take_succ_cons, total_cons]
        omega
  · intro h k hk hbefore
    induction k with
    | zero => simpa using hn
    | succ k _ =>
      have hpos : 0 < n := hbefore 0 (Nat.succ_pos k)
      have hnext := h hpos k (Nat.le_of_succ_le_succ hk) fun j hj => ?_
      · rw [List.take_succ_cons, total_cons]
        omega
      · have hj := hbefore (j + 1) (Nat.succ_lt_succ hj)
        rw [List.take_succ_cons, total_cons] at hj
        omega

/-- Nothing happens to a monster that is dead. -/
theorem hits_of_dead (h : ¬0 < hp) (damage : List Int32) : hits hp damage = .ok hp := by
  cases damage with
  | nil => rfl
  | cons d damage => exact if_neg h

theorem pos32 : 0 < hp ↔ 0 < hp.toInt := Machine.lt32

/-- Where nothing overflows, the damage is subtracted as it would be in `ℤ`. -/
theorem hits_of_calm (h : Calm hp.toInt damage) : ∃ hp', hits hp damage = .ok hp' ∧
    (Survives hp.toInt damage → hp'.toInt = hp.toInt - total damage) ∧
    (¬Survives hp.toInt damage → hp'.toInt ≤ 0) := by
  induction damage generalizing hp with
  | nil =>
    refine ⟨hp, rfl, fun _ => (sub_zero _).symm, fun h => ?_⟩
    rw [survives_nil] at h
    omega
  | cons d damage ih =>
    have hb := Machine.bounds32 hp
    rw [calm_cons hb.2] at h
    by_cases hpos : 0 < hp.toInt
    · have hd := Machine.bounds32 d
      have hle : hp.toInt - d.toInt ≤ 2147483647 := by
        simpa using h hpos 0 (Nat.zero_le _) (fun j hj => absurd hj (Nat.not_lt_zero j))
      have hnext : (Int32.ofInt (hp.toInt - d.toInt)).toInt = hp.toInt - d.toInt :=
        Int32.toInt_ofInt_of_le (by omega) (by omega)
      obtain ⟨hp', hhits, halive, hdead⟩ := @ih (Int32.ofInt (hp.toInt - d.toInt)) (by
        rw [hnext]
        exact h hpos)
      rw [hnext] at halive hdead
      rw [survives_cons, total_cons]
      refine ⟨hp', ?_, fun hs => ?_, fun hs => hdead fun h => hs ⟨hpos, h⟩⟩
      · rw [hits, if_pos (pos32.2 hpos), Exec.int32, if_pos (by omega)]
        exact hhits
      · rw [halive hs.2]
        omega
    · refine ⟨hp, hits_of_dead (fun h => hpos (pos32.1 h)) _, fun hs => ?_, fun _ => by omega⟩
      exact absurd (survives_cons.1 hs).1 hpos

theorem calm_of_hits {hp' : Int32} (h : hits hp damage = .ok hp') : Calm hp.toInt damage := by
  induction damage generalizing hp with
  | nil => exact calm_nil.2 (Machine.bounds32 hp).2
  | cons d damage ih =>
    rw [calm_cons (Machine.bounds32 hp).2]
    intro hpos
    rw [hits, if_pos (pos32.2 hpos)] at h
    obtain ⟨next, hnext, hrest⟩ := Exec.bind_eq_ok.1 h
    rw [← Exec.toInt_int32 hnext]
    exact ih hrest

/-- What is left of hit points that are in range, in percent. -/
theorem percent_range {product : Int32} (hle : hp.toInt ≤ maxHp.toInt) (hhp : 0 ≤ hp.toInt)
    (hmax : 0 < maxHp.toInt) (hproduct : product.toInt = hp.toInt * 100) :
    0 ≤ product / maxHp ∧ product / maxHp ≤ 100 := by
  have hne : maxHp ≠ -1 := by
    rintro rfl
    exact absurd hmax (by decide)
  have hdiv : (product / maxHp).toInt = hp.toInt * 100 / maxHp.toInt := by
    rw [Int32.toInt_div_of_ne_right _ _ hne, hproduct, Int.tdiv_eq_ediv_of_nonneg (by omega)]
  rw [Int32.le_iff_toInt_le, Int32.le_iff_toInt_le, hdiv]
  constructor
  · exact Int.ediv_nonneg (by omega) hmax.le
  · change _ ≤ (100 : ℤ)
    refine Int.ediv_le_of_le_mul hmax ?_
    omega

/-- All is in range if and only if the damage is tame. -/
theorem damaged_inRange_iff (hpos : 0 < hp) (hmax : hp ≤ maxHp) :
    InRange maxHp hp damage ↔ Tame maxHp hp damage := by
  have hpos' := pos32.1 hpos
  have hmax' : hp.toInt ≤ maxHp.toInt := Int32.le_iff_toInt_le.1 hmax
  have hzero : maxHp ≠ 0 := by
    rintro rfl
    exact absurd (hpos'.trans_le hmax') (by decide)
  rw [InRange, Exec.returns_iff]
  constructor
  · rintro ⟨⟨hp', percent⟩, h, -, hle, -⟩
    obtain ⟨rest, hhits, h⟩ := Exec.bind_eq_ok.1 h
    obtain ⟨product, hproduct, h⟩ := Exec.bind_eq_ok.1 h
    have hcalm := calm_of_hits hhits
    refine ⟨hcalm, fun hs => ?_⟩
    obtain ⟨rest', hhits', halive, -⟩ := hits_of_calm hcalm
    cases hhits.symm.trans hhits'
    -- Who survives has hit points, which are those that are multiplied.
    have hrest : 0 < rest.toInt := by
      have hlast := hs damage.length le_rfl
      rw [List.take_length] at hlast
      rw [halive hs]
      omega
    rw [if_neg hzero] at h
    have hneg : ¬rest < 0 := fun hlt => by
      have := Machine.lt32.1 hlt
      rw [Machine.zero32] at this
      omega
    rw [if_neg hneg] at h hproduct
    cases h
    rw [← halive hs]
    have hb := Machine.bounds32 product
    rw [Exec.toInt_int32 hproduct] at hb
    exact ⟨Int32.le_iff_toInt_le.1 hle, by omega⟩
  · rintro ⟨hcalm, hsurvives⟩
    obtain ⟨rest, hhits, halive, hdead⟩ := hits_of_calm hcalm
    -- What is left, if anything is.
    obtain ⟨hp', hp'_eq, hnonneg, hle, hsmall⟩ : ∃ hp' : Int32, (if rest < 0 then 0 else rest) = hp' ∧
        0 ≤ hp'.toInt ∧ hp'.toInt ≤ maxHp.toInt ∧ hp'.toInt ≤ 21474836 := by
      refine ⟨_, rfl, ?_⟩
      by_cases hs : Survives hp.toInt damage
      · have hlast := hs damage.length le_rfl
        rw [List.take_length] at hlast
        obtain ⟨hle, hsmall⟩ := hsurvives hs
        rw [← halive hs] at hle hsmall
        have hneg : ¬rest < 0 := fun hlt => by
          have hlt := Machine.lt32.1 hlt
          rw [Machine.zero32, halive hs] at hlt
          omega
        rw [if_neg hneg]
        exact ⟨by rw [halive hs]; omega, hle, hsmall⟩
      · have hrest := hdead hs
        split
        · rw [Machine.zero32]
          omega
        · rename_i hneg
          have : ¬rest.toInt < 0 := fun hlt => hneg (Machine.lt32.2 hlt)
          omega
    have hproduct : Exec.int32 (hp'.toInt * 100) = .ok (Int32.ofInt (hp'.toInt * 100)) :=
      if_pos ⟨by omega, by omega⟩
    obtain ⟨hlow, hhigh⟩ := percent_range hle hnonneg (hpos'.trans_le hmax')
      (Exec.toInt_int32 hproduct)
    refine ⟨(hp', Int32.ofInt (hp'.toInt * 100) / maxHp), ?_, Int32.le_iff_toInt_le.2 hnonneg,
      Int32.le_iff_toInt_le.2 hle, hlow, hhigh⟩
    rw [damageHp, hhits]
    simp only [Exec.ok_bind, hp'_eq, hproduct, if_neg hzero]
    rfl

/-- Two hits, the second of which heals a little of what the first has taken. -/
theorem inRange_healed : InRange 100 100 [50, -20] := by
  refine (damaged_inRange_iff (by decide) (by decide)).2 ⟨?_, fun _ => by decide⟩
  refine (calm_cons (by decide)).2 fun _ => (calm_cons (by decide)).2 fun _ => ?_
  exact calm_nil.2 (by decide)

/-- A monster is healed by a hit, healed beyond what it can have, and has more than can be multiplied. -/
theorem inRange_fails : ¬InRange 2147483647 2147483647 [-1] ∧ ¬InRange 10 10 [-1] ∧
    ¬InRange 30000000 30000000 [1] := by
  decide

end Map

end Syrup
