import Syrup.Client.Stats
import Syrup.Lib.Machine
import Syrup.Lib.Run

/-!
# Ability points: `client_adjust_str` and its like, `client_reset_stats`

Points are spent on one of four stats, or all of them are taken back. Points and stats should add
up to the same through a whole run, and never be negative (`KeepsPoints`). They are in a run
whose steps all meet `PointSafe`, and there each step keeps them only if it meets it
(`abilityPoints_run`).

The amount that is spent is signed. A negative amount that a stat does not have is given back
all the same, as the setter of the stat stops at `0` (`abilityPoints_not_kept`).
-/

namespace Syrup

open Machine

/-! ## Stats -/

/-- A stat on which points are spent. -/
inductive BaseStat
  | str
  | dex
  | int
  | luk
  deriving DecidableEq

namespace Character

variable (chr : Character)

/-- A stat of a character. -/
def stat : BaseStat → Int16
  | .str => chr.str
  | .dex => chr.dex
  | .int => chr.int_
  | .luk => chr.luk

/-- Rewrites a stat. -/
def setStat (s : BaseStat) (n : Int16) : Character :=
  match s with
  | .str => { chr with str := n }
  | .dex => { chr with dex := n }
  | .int => { chr with int_ := n }
  | .luk => { chr with luk := n }

end Character

/-- What the setters of the stats have in common. -/
def characterSetStat (s : BaseStat) (chr : Character) (n : Int16) : Character :=
  chr.setStat s (if n < 0 then 0 else n)

/-- `character_set_str`. -/
def characterSetStr : Character → Int16 → Character := characterSetStat .str

/-- `character_set_dex`. -/
def characterSetDex : Character → Int16 → Character := characterSetStat .dex

/-- `character_set_int`. -/
def characterSetInt : Character → Int16 → Character := characterSetStat .int

/-- `character_set_luk`. -/
def characterSetLuk : Character → Int16 → Character := characterSetStat .luk

/-- `character_set_ap`. -/
def characterSetAp (chr : Character) (ap : Int16) : Character := { chr with ap := ap }

/-! ## Spending points -/

/-- `DEFINE_STAT_ADJUST`, for a stat, its setter and its flag. -/
def defineStatAdjust (s : BaseStat) (set : Character → Int16 → Character) (flag : UInt32)
    (c : Client) (amount : Int16) : Client :=
  if amount = 0 then c
  else
    let chr := c.character
    if amount ≤ chr.ap then
      let amount :=
        if amount.toInt > 32767 - (chr.stat s).toInt then 32767 - chr.stat s else amount
      let chr := set chr (chr.stat s + amount)
      (c.setCharacter (characterSetAp chr (chr.ap - amount))).mark (flag ||| statAp)
    else c

/-- `client_adjust_str`. -/
def clientAdjustStr : Client → Int16 → Client := defineStatAdjust .str characterSetStr statStr

/-- `client_adjust_dex`. -/
def clientAdjustDex : Client → Int16 → Client := defineStatAdjust .dex characterSetDex statDex

/-- `client_adjust_int`. -/
def clientAdjustInt : Client → Int16 → Client := defineStatAdjust .int characterSetInt statInt

/-- `client_adjust_luk`. -/
def clientAdjustLuk : Client → Int16 → Client := defineStatAdjust .luk characterSetLuk statLuk

/-! ## Taking points back -/

/-- The stat that is important for the first job of each kind, how much of it such a job takes,
    and the level from which on it comes with skill points. -/
def mainStat (job : UInt16) : Option (BaseStat × Int16 × ℤ) :=
  if job = 100 ∨ job = 1100 ∨ job = 2100 then some (.str, 35, 10)
  else if job = 200 ∨ job = 1200 then some (.int, 20, 8)
  else if job = 300 ∨ job = 1300 ∨ job = 400 ∨ job = 1400 then some (.dex, 25, 10)
  else if job = 500 ∨ job = 1500 then some (.dex, 20, 10)
  else none

/-- The stats that are left when all points have been taken back. -/
def resetBase (chr : Character) : Character :=
  { chr with
    ap := Int16.ofInt (chr.ap.toInt +
      (chr.str.toInt + chr.int_.toInt + chr.dex.toInt + chr.luk.toInt - 16))
    str := 4, dex := 4, int_ := 4, luk := 4, sp := 1 }

/-- Gives a job what it takes. -/
def resetMain (chr : Character) : Character :=
  match mainStat chr.job with
  | none => chr
  | some (s, n, level) =>
    let ap := Int16.ofInt (chr.ap.toInt - (n.toInt - (chr.stat s).toInt))
    { characterSetAp (chr.setStat s n) ap with
      sp := Int16.ofInt (chr.sp.toInt + (chr.level.toNat - level) * 3) }

/-- `client_reset_stats`. -/
def clientResetStats (c : Client) : Client :=
  let chr := resetMain (resetBase c.character)
  (c.setCharacter chr).send
    (.statChange (statStr ||| statDex ||| statInt ||| statLuk ||| statAp ||| statSp)
      [chr.str.toInt, chr.dex.toInt, chr.int_.toInt, chr.luk.toInt, chr.ap.toInt, chr.sp.toInt])

/-! ## The calls as a system -/

/-- A call that spends points, or takes them back. -/
inductive PointAction
  | adjustStr (amount : Int16)
  | adjustDex (amount : Int16)
  | adjustInt (amount : Int16)
  | adjustLuk (amount : Int16)
  | resetStats

/-- The client after a call. -/
def PointAction.step : PointAction → Client → Exec Client
  | adjustStr amount, c => return clientAdjustStr c amount
  | adjustDex amount, c => return clientAdjustDex c amount
  | adjustInt amount, c => return clientAdjustInt c amount
  | adjustLuk amount, c => return clientAdjustLuk c amount
  | resetStats, c => return clientResetStats c

/-- The points of a character, spent or not. -/
def points (chr : Character) : ℤ :=
  chr.ap.toInt + chr.str.toInt + chr.dex.toInt + chr.int_.toInt + chr.luk.toInt

/-- Neither the points nor a stat are negative. -/
def PointsNonneg (chr : Character) : Prop := 0 ≤ chr.ap ∧ ∀ s, 0 ≤ chr.stat s

/-- Points have neither been lost nor made, and nothing is negative. -/
structure KeepsPoints (chr chr' : Character) : Prop where
  points_eq : points chr' = points chr
  nonneg : PointsNonneg chr'

/-- An amount that a character does not have is not spent. One that is spent is not below what the
    stat has, and does not give back more than `ap` can hold. -/
def AdjustSafe (s : BaseStat) (amount : Int16) (chr : Character) : Prop :=
  amount ≤ chr.ap → 0 ≤ (chr.stat s).toInt + amount.toInt ∧ chr.ap.toInt - amount.toInt ≤ 32767

/-- What a character has of all stats when all points have been taken back. -/
def resetCost (job : UInt16) : ℤ :=
  match mainStat job with
  | none => 16
  | some (_, n, _) => 12 + n.toInt

/-- When all points have been taken back, what is left can be held by `ap`. -/
def ResetSafe (chr : Character) : Prop :=
  0 ≤ points chr - resetCost chr.job ∧ points chr - resetCost chr.job ≤ 32767

/-- The steps that keep the points. -/
def PointSafe : PointAction → Client → Prop
  | .adjustStr amount, c => AdjustSafe .str amount c.character
  | .adjustDex amount, c => AdjustSafe .dex amount c.character
  | .adjustInt amount, c => AdjustSafe .int amount c.character
  | .adjustLuk amount, c => AdjustSafe .luk amount c.character
  | .resetStats, c => ResetSafe c.character

/-! ## One step -/

theorem keepsPoints_iff {chr chr' : Character} :
    KeepsPoints chr chr' ↔ points chr' = points chr ∧ PointsNonneg chr' :=
  ⟨fun h => ⟨h.1, h.2⟩, fun h => ⟨h.1, h.2⟩⟩

theorem KeepsPoints.refl {chr : Character} (h : PointsNonneg chr) : KeepsPoints chr chr := ⟨rfl, h⟩

section Step

variable {chr : Character} {c : Client} {s : BaseStat} {n p amount : Int16}

theorem ap_characterSetStat : (characterSetStat s chr n).ap = chr.ap := by
  cases s <;> rfl

/-- The points of a character whose unspent points and one of whose stats have been rewritten. -/
theorem points_setStat : points (characterSetAp (chr.setStat s n) p) =
    points chr - chr.ap.toInt - (chr.stat s).toInt + p.toInt + n.toInt := by
  cases s <;> simp only [points, characterSetAp, Character.setStat, Character.stat] <;> omega

theorem pointsNonneg_setStat (h : ∀ s, 0 ≤ chr.stat s) :
    PointsNonneg (characterSetAp (chr.setStat s n) p) ↔ 0 ≤ p ∧ 0 ≤ n := by
  refine and_congr_right fun _ => ⟨fun hs => ?_, fun hn s' => ?_⟩
  · have hself := hs s
    cases s <;> exact hself
  · have hother := h s'
    cases s <;> cases s' <;> first | exact hn | exact hother

theorem keepsPoints_sp {chr' : Character} {sp : Int16} :
    KeepsPoints chr { chr' with sp := sp } ↔ KeepsPoints chr chr' := by
  have hpoints : points { chr' with sp := sp } = points chr' := rfl
  have hnonneg : PointsNonneg { chr' with sp := sp } ↔ PointsNonneg chr' :=
    and_congr_right fun _ => forall_congr' fun s => by cases s <;> exact Iff.rfl
  rw [keepsPoints_iff, keepsPoints_iff, hpoints, hnonneg]

/-- An amount that is spent, and that the stat can hold. -/
theorem keepsPoints_spend_iff (h : PointsNonneg chr) (hle : amount ≤ chr.ap)
    (hcap : (chr.stat s).toInt + amount.toInt ≤ 32767) :
    KeepsPoints chr (characterSetAp (characterSetStat s chr (chr.stat s + amount))
        (chr.ap - amount)) ↔
      0 ≤ (chr.stat s).toInt + amount.toInt ∧ chr.ap.toInt - amount.toInt ≤ 32767 := by
  have hap := h.1
  have hs := h.2 s
  have hba := bounds16 amount
  have hbs := bounds16 (chr.stat s)
  have hbap := bounds16 chr.ap
  have hbsub := bounds16 (chr.ap - amount)
  rw [le16, zero16] at hap hs
  rw [le16] at hle
  have hsum : (chr.stat s + amount).toInt = (chr.stat s).toInt + amount.toInt := add16 (by omega) hcap
  obtain ⟨k, hsub⟩ := sub16_mod chr.ap amount
  rw [characterSetStat, keepsPoints_iff, points_setStat, pointsNonneg_setStat h.2, le16, le16, zero16]
  split
  · rename_i hneg
    rw [lt16, hsum, zero16] at hneg
    rw [zero16]
    omega
  · rename_i hneg
    rw [lt16, hsum, zero16] at hneg
    rw [hsum]
    omega

/-- Spending points keeps them exactly when it is safe. -/
theorem keepsPoints_adjust_iff {set : Character → Int16 → Character} {flag : UInt32}
    (hset : set = characterSetStat s) (h : PointsNonneg c.character) :
    KeepsPoints c.character (defineStatAdjust s set flag c amount).character ↔
      AdjustSafe s amount c.character := by
  subst hset
  have hs := h.2 s
  have hbs := bounds16 (c.character.stat s)
  have hbap := bounds16 c.character.ap
  have hba := bounds16 amount
  rw [le16, zero16] at hs
  rw [defineStatAdjust, AdjustSafe]
  split
  · rename_i h0
    subst h0
    exact ⟨fun _ _ => by rw [zero16]; omega, fun _ => .refl h⟩
  · simp only
    split
    · rename_i hle
      rw [Client.character_mark, Client.character_setCharacter, ap_characterSetStat]
      split
      · -- Of a larger amount, what the stat can hold is spent.
        rename_i hlarge
        have hrest : ((32767 : Int16) - c.character.stat s).toInt =
            32767 - (c.character.stat s).toInt := by
          rw [← max16]
          exact sub16 (by rw [max16]; omega) (by rw [max16]; omega)
        have hle' := hle
        rw [le16] at hle'
        rw [keepsPoints_spend_iff h (by rw [le16]; omega) (by omega)]
        exact ⟨fun _ _ => by omega, fun _ => by omega⟩
      · rw [keepsPoints_spend_iff h hle (by omega)]
        exact ⟨fun hsafe _ => hsafe, fun hsafe => hsafe hle⟩
    · rename_i hle
      exact ⟨fun _ hle' => absurd hle' hle, fun _ => .refl h⟩

/-- No job takes less than every stat has. -/
theorem mainStat_bounds {job : UInt16} {level : ℤ} (h : mainStat job = some (s, n, level)) :
    20 ≤ n.toInt ∧ n.toInt ≤ 35 := by
  rw [mainStat] at h
  split_ifs at h <;> cases h <;> decide

/-- A character without points to spend has its stats left. -/
theorem resetBase_spec (chr : Character) : (∀ s, (resetBase chr).stat s = 4) ∧
    points (resetBase chr) = (resetBase chr).ap.toInt + 16 ∧
    ∃ k, (resetBase chr).ap.toInt = points chr - 16 - 65536 * k := by
  refine ⟨fun s => by cases s <;> rfl, ?_, ?_⟩
  · change (resetBase chr).ap.toInt + 4 + 4 + 4 + 4 = _
    omega
  · obtain ⟨k, hk⟩ := ofInt16_mod (chr.ap.toInt +
      (chr.str.toInt + chr.int_.toInt + chr.dex.toInt + chr.luk.toInt - 16))
    refine ⟨k, hk.trans ?_⟩
    rw [points]
    omega

/-- Taking points back keeps them exactly when what is left is in range. -/
theorem keepsPoints_reset_iff :
    KeepsPoints c.character (clientResetStats c).character ↔ ResetSafe c.character := by
  obtain ⟨hstat, hpoints, k, hap⟩ := resetBase_spec c.character
  have hnonneg (s : BaseStat) : 0 ≤ (resetBase c.character).stat s := by
    rw [hstat]
    decide
  have hreset : (clientResetStats c).character = resetMain (resetBase c.character) := rfl
  have hjob : (resetBase c.character).job = c.character.job := rfl
  rw [hreset, resetMain, ResetSafe, resetCost, hjob]
  rcases hmain : mainStat c.character.job with _ | ⟨s, n, level⟩
  · have hb := bounds16 (resetBase c.character).ap
    have hpos : PointsNonneg (resetBase c.character) ↔ 0 ≤ (resetBase c.character).ap.toInt := by
      rw [← zero16, ← le16]
      exact ⟨fun h => h.1, fun h => ⟨h, hnonneg⟩⟩
    simp only [keepsPoints_iff, hpoints, hpos]
    omega
  · obtain ⟨hlow, hhigh⟩ := mainStat_bounds hmain
    obtain ⟨k', hap'⟩ := ofInt16_mod ((resetBase c.character).ap.toInt -
      (n.toInt - ((resetBase c.character).stat s).toInt))
    have hb := bounds16 (Int16.ofInt ((resetBase c.character).ap.toInt -
      (n.toInt - ((resetBase c.character).stat s).toInt)))
    have hfour : (4 : Int16).toInt = 4 := rfl
    simp only
    generalize Int16.ofInt _ = p at hap' hb
    rw [keepsPoints_sp, keepsPoints_iff, points_setStat, pointsNonneg_setStat hnonneg, hpoints, le16,
      le16, zero16]
    rw [hstat, hfour] at hap'
    rw [hstat, hfour]
    omega

/-- A step keeps the points exactly when it is safe. -/
theorem keepsPoints_step_iff {a : PointAction} {c' : Client} (h : PointsNonneg c.character)
    (hstep : a.step c = .ok c') : KeepsPoints c.character c'.character ↔ PointSafe a c := by
  cases a <;> cases hstep
  case adjustStr => exact keepsPoints_adjust_iff rfl h
  case adjustDex => exact keepsPoints_adjust_iff rfl h
  case adjustInt => exact keepsPoints_adjust_iff rfl h
  case adjustLuk => exact keepsPoints_adjust_iff rfl h
  case resetStats => exact keepsPoints_reset_iff

end Step

/-! ## Runs -/

/-- In a run whose steps are safe, points are neither lost nor made, and nothing is negative; and
    the run goes on like this exactly as long as its steps are safe. -/
theorem abilityPoints_run {c c' : Client} (h : PointsNonneg c.character)
    (hrun : Machine.Run PointAction.step PointSafe c c') :
    KeepsPoints c.character c'.character ∧ ∀ a c'', PointAction.step a c' = .ok c'' →
      (KeepsPoints c.character c''.character ↔ PointSafe a c') := by
  have hkeeps : KeepsPoints c.character c'.character :=
    hrun.invariant (I := fun c' => KeepsPoints c.character c'.character) (.refl h)
      fun a c₁ c₂ hkept hsafe hstep => by
        obtain ⟨hpoints, hnonneg⟩ := (keepsPoints_step_iff hkept.nonneg hstep).2 hsafe
        exact ⟨hpoints.trans hkept.points_eq, hnonneg⟩
  refine ⟨hkeeps, fun a c'' hstep => ?_⟩
  rw [← keepsPoints_step_iff hkeeps.nonneg hstep, keepsPoints_iff, keepsPoints_iff, hkeeps.points_eq]

/-- Five points are spent, and taken back. -/
theorem abilityPoints_run_reset : PointsNonneg (Client.new default).character ∧
    KeepsPoints (Client.new default).character
      (clientResetStats (clientAdjustStr (.new default) 5)).character := by
  have h : PointsNonneg (Client.new default).character := ⟨by decide, fun s => by cases s <;> decide⟩
  have hspend : PointSafe (.adjustStr 5) (.new default) := fun _ => by decide
  have hreset : PointSafe .resetStats (clientAdjustStr (.new default) 5) := by
    change 0 ≤ points _ - _ ∧ points _ - _ ≤ 32767
    decide
  have hrun : Machine.Run PointAction.step PointSafe (.new default)
      (clientResetStats (clientAdjustStr (.new default) 5)) :=
    .step .resetStats (.step (.adjustStr 5) .start hspend rfl) hreset rfl
  exact ⟨h, (abilityPoints_run h hrun).1⟩

/-- A hundred points less than none are spent on a stat of `4`: it is `0` afterwards, and there are a
    hundred points more. -/
theorem abilityPoints_not_kept : ¬ ∀ c c', PointsNonneg c.character →
    Machine.Run PointAction.step (fun _ _ => True) c c' → KeepsPoints c.character c'.character := by
  intro hall
  have h : PointsNonneg (Client.new default).character := ⟨by decide, fun s => by cases s <;> decide⟩
  have hrun : Machine.Run PointAction.step (fun _ _ => True) (.new default)
      (clientAdjustStr (.new default) (-100)) := .step (.adjustStr (-100)) .start True.intro rfl
  have hmade : points (clientAdjustStr (.new default) (-100)).character ≠
      points (Client.new default).character := by decide
  exact hmade (hall (.new default) _ h hrun).points_eq

end Syrup
