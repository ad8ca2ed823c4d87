import Syrup.Character

/-!
# Stats: `client_gain_exp`, `client_gain_meso`, `client_commit_stats`

Experience beyond what a level takes makes levels, each of which comes with points and with
hit points and mana that are partly random. The flags of the stats that have changed are gathered
in `stats` until they are sent by `client_commit_stats`.

Of a pet nothing is sent, and no character here has experience from gachapons.
-/

namespace Syrup

/-! ## The flags of stats -/

/-- `STAT_SKIN`. -/
def statSkin : UInt32 := 0x1

/-- `STAT_FACE`. -/
def statFace : UInt32 := 0x2

/-- `STAT_HAIR`. -/
def statHair : UInt32 := 0x4

/-- `STAT_LEVEL`. -/
def statLevel : UInt32 := 0x10

/-- `STAT_JOB`. -/
def statJob : UInt32 := 0x20

/-- `STAT_STR`. -/
def statStr : UInt32 := 0x40

/-- `STAT_DEX`. -/
def statDex : UInt32 := 0x80

/-- `STAT_INT`. -/
def statInt : UInt32 := 0x100

/-- `STAT_LUK`. -/
def statLuk : UInt32 := 0x200

/-- `STAT_HP`. -/
def statHp : UInt32 := 0x400

/-- `STAT_MAX_HP`. -/
def statMaxHp : UInt32 := 0x800

/-- `STAT_MP`. -/
def statMp : UInt32 := 0x1000

/-- `STAT_MAX_MP`. -/
def statMaxMp : UInt32 := 0x2000

/-- `STAT_AP`. -/
def statAp : UInt32 := 0x4000

/-- `STAT_SP`. -/
def statSp : UInt32 := 0x8000

/-- `STAT_EXP`. -/
def statExp : UInt32 := 0x10000

/-- `STAT_FAME`. -/
def statFame : UInt32 := 0x20000

/-- `STAT_MESO`. -/
def statMeso : UInt32 := 0x40000

/-- `client->stats |= stats;`. -/
def Client.mark (c : Client) (stats : UInt32) : Client := { c with stats := c.stats ||| stats }

@[simp] theorem Client.character_mark (c : Client) (stats : UInt32) :
    (c.mark stats).character = c.character := rfl

/-- `client_commit_stats`. -/
def clientCommitStats (c : Client) : Client :=
  let chr := c.character
  let value (stat : UInt32) (v : ℤ) : List ℤ := if c.stats &&& stat ≠ 0 then [v] else []
  let values :=
    value statSkin chr.persona.skin.toNat ++ value statFace chr.persona.face.toNat ++
      value statHair chr.persona.hair.toNat ++ value statLevel chr.level.toNat ++
      value statJob chr.job.toNat ++ value statStr chr.str.toInt ++ value statDex chr.dex.toInt ++
      value statInt chr.int_.toInt ++ value statLuk chr.luk.toInt ++ value statHp chr.hp.toInt ++
      value statMaxHp chr.maxHp.toInt ++ value statMp chr.mp.toInt ++
      value statMaxMp chr.maxMp.toInt ++ value statAp chr.ap.toInt ++ value statSp chr.sp.toInt ++
      value statExp chr.exp.toInt ++ value statFame chr.persona.fame.toInt ++
      value statMeso chr.mesos.toInt
  { c.send (.statChange c.stats values) with stats := 0 }

@[simp] theorem character_clientCommitStats (c : Client) :
    (clientCommitStats c).character = c.character := rfl

/-! ## Jobs -/

/-- `job_is_a`. -/
def jobIsA (job base : UInt16) : Bool :=
  (job / 10 == base / 10 && base ≤ job) || (base / 10 % 10 == 0 && job / 100 == base / 100)

/-- A beginner of one of the three types of jobs: `JOB_BEGINNER`, `JOB_NOBLESSE`,
    `JOB_LEGEND`. -/
def isBeginner (job : UInt16) : Bool := job == 0 || job == 1000 || job == 2000

/-- `job_type(job) == JOB_TYPE_CYGNUS`. -/
def isCygnus (job : UInt16) : Bool := job / 1000 == 1

/-- `JOB_MAGICIAN` or `JOB_BLAZE_WIZARD`. -/
def isMage (job : UInt16) : Bool := jobIsA job 200 || jobIsA job 1200

/-! ## Setting stats -/

/-- `character_set_max_hp`. -/
def characterSetMaxHp (chr : Character) (hp : Int16) : Character :=
  { chr with maxHp := if 30000 < hp then 30000 else if hp < 0 then 0 else hp }

/-- `character_set_max_mp`. -/
def characterSetMaxMp (chr : Character) (mp : Int16) : Character :=
  { chr with maxMp := if 30000 < mp then 30000 else if mp < 0 then 0 else mp }

/-- `character_set_hp`. -/
def characterSetHp (chr : Character) (hp : Int16) : Character :=
  { chr with
    hp := if hp < 0 then 0
      else if characterGetEffectiveHp chr < hp then characterGetEffectiveHp chr else hp }

/-- `character_set_mp`. -/
def characterSetMp (chr : Character) (mp : Int16) : Character :=
  { chr with
    mp := if mp < 0 then 0
      else if characterGetEffectiveMp chr < mp then characterGetEffectiveMp chr else mp }

/-- `character_set_meso`. -/
def characterSetMeso (chr : Character) (meso : Int32) : Character :=
  { chr with mesos := if meso < 0 then 0 else meso }

/-- `client_gain_meso`. (Where there are fewer mesos than are to be lost, as many are
    added as there are.) -/
def clientGainMeso (c : Client) (mesos : Int32) (pickup reward : Bool) : Client :=
  let chr := c.character
  let mesos :=
    if 0 < mesos then
      if chr.mesos > Int32.maxValue - mesos then Int32.maxValue - chr.mesos else mesos
    else if chr.mesos + mesos < 0 then chr.mesos
    else mesos
  let c := (c.setCharacter (characterSetMeso chr (chr.mesos + mesos))).mark statMeso
  if pickup then c.send (.mesoGain mesos)
  else if reward then c.send (.mesoGainInChat mesos)
  else c

/-- `client_adjust_fame`. -/
def clientAdjustFame (c : Client) (fame : Int16) : Client :=
  let chr := c.character
  let current := chr.persona.fame
  let fame := if 0 < fame ∧ current.toInt > 32767 - fame.toInt then 32767 - current else fame
  let fame := if fame < 0 ∧ current.toInt < -32768 - fame.toInt then -32768 - current else fame
  (c.setCharacter { chr with persona.fame := current + fame }).mark statFame

/-! ## Levels -/

/-- `EXP_TABLE`. -/
def expTable : List Int32 :=
  [15, 34, 57, 92, 135, 372, 560, 840, 1144, 1242, 1573, 2144, 2800, 3640, 4700, 5893, 7360,
    9144, 11120, 13477, 16268, 19320, 22880, 27008, 31477, 36600, 42444, 48720, 55813, 63800,
    86784, 98208, 110932, 124432, 139372, 155865, 173280, 192400, 213345, 235372, 259392, 285532,
    312928, 342624, 374760, 408336, 445544, 483532, 524160, 567772, 598886, 631704, 666321,
    702836, 741351, 781976, 824828, 870028, 917625, 967995, 1021041, 1076994, 1136013, 1198266,
    1263930, 1333194, 1406252, 1483314, 1564600, 1650340, 1740778, 1836173, 1936794, 2042930,
    2154882, 2272970, 2397528, 2528912, 2667496, 2813674, 2967863, 3130502, 3302053, 3483005,
    3673873, 3875201, 4087562, 4311559, 4547832, 4797053, 5059931, 5337215, 5629694, 5938202,
    6263614, 6606860, 6968915, 7350811, 7753635, 8178534, 8626718, 9099462, 9598112, 10124088,
    10678888, 11264090, 11881362, 12532461, 13219239, 13943653, 14707765, 15513750, 16363902,
    17260644, 18206527, 19204245, 20256637, 21366700, 22537594, 23772654, 25075395, 26449526,
    27898960, 29427822, 31040466, 32741483, 34535716, 36428273, 38424542, 40530206, 42751262,
    45094030, 47565183, 50171755, 52921167, 55821246, 58880250, 62106888, 65510344, 69100311,
    72887008, 76881216, 81094306, 85594273, 90225770, 95170142, 100385466, 105886589, 111689174,
    117809740, 124265714, 131075474, 138258410, 145834970, 153826726, 162256430, 171148082,
    180526997, 190419876, 200854885, 211861732, 223471711, 223471711, 248635353, 262260570,
    276632449, 291791906, 307782102, 324648562, 342439302, 361204976, 380999008, 401877754,
    423900654, 447130410, 471633156, 497478653, 524740482, 553496261, 583827855, 615821622,
    649568646, 685165008, 722712050, 762316670, 804091623, 848155844, 894634784, 943660770,
    995373379, 1049919840, 1107455447, 1168144006, 1232158297, 1299680571, 1370903066, 1446028554,
    1525246918, 1608855764, 1697021059]

/-- `character_gain_exp`: what is left of the experience, and the character. -/
def characterGainExp (chr : Character) (exp : Int32) : Exec (Int32 × Character) :=
  if chr.level = 0 then .error .outOfBounds
  else
    match expTable[chr.level.toNat - 1]? with
    | none => .error .outOfBounds
    | some level => do
      let remaining ← Exec.int32 (level.toInt - chr.exp.toInt)
      let left ← Exec.int32 (exp.toInt - remaining.toInt)
      if remaining ≤ exp then return (left, { chr with exp := 0, level := chr.level + 1 })
      else
        let exp ← Exec.int32 (chr.exp.toInt + exp.toInt)
        return (left, { chr with exp := exp })

/-- The points that come with a level. -/
def gainPoints (c : Client) : Client :=
  let chr := c.character
  if isBeginner chr.job && chr.level ≤ 10 then
    if chr.level ≤ 5 then (c.setCharacter { chr with str := chr.str + 5 }).mark statStr
    else (c.setCharacter { chr with str := chr.str + 4, dex := chr.dex + 1 }).mark (statStr ||| statDex)
  else
    let c := if isBeginner chr.job then c
      else (c.setCharacter { chr with sp := chr.sp + 3 }).mark statSp
    let ap : Int16 :=
      if isCygnus chr.job && 10 < chr.level then
        if chr.level ≤ 17 then 7 else if chr.level < 77 then 6 else 5
      else 5
    (c.setCharacter { c.character with ap := chr.ap + ap }).mark statAp

/-- How many hit points and how much mana come with a level, given the two random
    numbers; none for a job that is not in the list. -/
def levelHpMp (job : UInt16) (r : ℕ × ℕ) : Option (ℕ × ℕ) :=
  if isBeginner job then some (r.1 % 5 + 12, r.2 % 3 + 10)
  else if jobIsA job 110 || jobIsA job 1100 then some (r.1 % 5 + 24, r.2 % 3 + 4)
  else if isMage job then some (r.1 % 5 + 10, r.2 % 3 + 22)
  else if jobIsA job 300 || jobIsA job 400 || jobIsA job 1300 || jobIsA job 1400 then
    some (r.1 % 5 + 20, r.2 % 3 + 14)
  else if jobIsA job 500 || jobIsA job 1500 then some (r.1 % 7 + 22, r.2 % 6 + 18)
  else if jobIsA job 2100 then some (r.1 % 5 + 44, r.2 % 5 + 4)
  else none

/-- The skill that gives a mage more mana with every level. -/
def mageSkill (env : Env) (chr : Character) : Option Skill :=
  if !isBeginner chr.job && !(jobIsA chr.job 110 || jobIsA chr.job 1100) && isMage chr.job then
    hashSetGet env.skills chr.skills (if jobIsA chr.job 200 then 2000001 else 12000000)
  else none

/-- The maxima that are raised at random with a level. -/
def raiseByLevel (r : ℕ × ℕ) (chr : Character) : Character :=
  match levelHpMp chr.job r with
  | none => chr
  | some (hp, mp) =>
    let chr := characterSetMaxHp chr (Int16.ofInt (chr.maxHp.toInt + hp))
    characterSetMaxMp chr (Int16.ofInt (chr.maxMp.toInt + mp))

/-- The maximum of mana that is raised by the skill of a mage. -/
def raiseBySkill (env : Env) (chr : Character) : Character :=
  match mageSkill env chr with
  | none => chr
  | some skill => characterSetMaxMp chr (Int16.ofInt (chr.maxMp.toInt + skill.level.toInt * 2))

/-- The maximum of mana that is raised for intelligence. -/
def raiseByInt (chr : Character) : Character :=
  characterSetMaxMp chr (Int16.ofInt (chr.maxMp.toInt +
    (characterGetEffectiveInt chr).toInt.tdiv (if isMage chr.job then 20 else 10)))

/-- The hit points and the mana that come with a level. -/
def gainHpMp (env : Env) (r : ℕ × ℕ) (chr : Character) : Character :=
  let chr := raiseByInt (raiseBySkill env (raiseByLevel r chr))
  let chr := characterSetHp chr (characterGetEffectiveHp chr)
  characterSetMp chr (characterGetEffectiveMp chr)

/-- A level, for which the experience has been taken. -/
def gainLevel (env : Env) (r : ℕ × ℕ) (c : Client) : Client :=
  let c := gainPoints c
  let c := (c.setCharacter (gainHpMp env r c.character)).mark
    (statMaxHp ||| statMaxMp ||| statHp ||| statMp)
  (c.send (.statChange statLevel [(c.character.level.toNat : ℤ)])).send (.showForeignEffect 0)

/-- The loop of `client_gain_exp`, which gains at most `n` levels, with two random numbers for
    each of them. -/
def gainLevels (env : Env) (rand : ℕ → ℕ × ℕ) : ℕ → Client → Int32 → Exec Client
  | 0, _, _ => .error .divergence
  | n + 1, c, exp => do
    let (exp, chr) ← characterGainExp c.character exp
    let c := c.setCharacter chr
    if exp < 0 then return c
    else gainLevels env rand n (gainLevel env (rand n) c) exp

/-- `client_gain_exp`. There are no more than 200 levels. -/
def clientGainExp (env : Env) (rand : ℕ → ℕ × ℕ) (c : Client) (exp : Int32) (reward : Bool) :
    Exec Client :=
  let c := c.send (if reward then .expGainInChat exp else .expGain exp)
  gainLevels env rand 202 (c.mark statExp) exp

/-- Either nothing is left and only the experience has changed, or a level has been gained. -/
theorem characterGainExp_cases {chr chr' : Character} {exp left : Int32}
    (h : characterGainExp chr exp = .ok (left, chr')) :
    (left < 0 ∧ ∃ e, chr' = { chr with exp := e }) ∨
      (¬left < 0 ∧ chr' = { chr with exp := 0, level := chr.level + 1 }) := by
  rw [characterGainExp] at h
  split at h
  · cases h
  · split at h
    · cases h
    · obtain ⟨remaining, _, h⟩ := Exec.bind_eq_ok.1 h
      obtain ⟨left, hleft, h⟩ := Exec.bind_eq_ok.1 h
      have hsub := Exec.toInt_int32 hleft
      have hzero : (0 : Int32).toInt = 0 := rfl
      split at h
      · rename_i hle
        cases h
        rw [Int32.le_iff_toInt_le] at hle
        exact .inr ⟨by rw [Int32.lt_iff_toInt_lt]; omega, rfl⟩
      · rename_i hle
        obtain ⟨e, _, h⟩ := Exec.bind_eq_ok.1 h
        cases h
        rw [Int32.le_iff_toInt_le] at hle
        exact .inl ⟨by rw [Int32.lt_iff_toInt_lt]; omega, e, rfl⟩

end Syrup
