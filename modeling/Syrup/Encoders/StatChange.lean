import Syrup.Client.Stats
import Syrup.Writer

/-!
# `stat_change_packet`

Some stats of a character are sent as a mask and the values of the stats in it. The values are taken, one
after the other, from an array that the caller has filled, and how wide each one is is found by
clearing the bits of the mask.

The program of the player reads the mask and then a value for each stat in it, in the order of the
bits. What it reads are the values that were sent (`readStatChange_statChangePacket`).
-/

namespace Syrup

open Wire

/-! ## Stats -/

/-- The stats of `enum Stat` that a character has. -/
inductive Stat
  | skin | face | hair | level | job | str | dex | int | luk | hp | maxHp | mp | maxMp | ap | sp | exp
  | fame | meso
  deriving DecidableEq

/-- `STAT_PET`. -/
def statPet : UInt32 := 0x180008

/-- `STAT_GACHA_EXP`. -/
def statGachaExp : UInt32 := 0x200000

namespace Stat

/-- The stats in the order of their bits. -/
def all : List Stat :=
  [skin, face, hair, level, job, str, dex, int, luk, hp, maxHp, mp, maxMp, ap, sp, exp, fame, meso]

/-- The flag of a stat. -/
def flag : Stat → UInt32
  | skin => statSkin
  | face => statFace
  | hair => statHair
  | level => statLevel
  | job => statJob
  | str => statStr
  | dex => statDex
  | int => statInt
  | luk => statLuk
  | hp => statHp
  | maxHp => statMaxHp
  | mp => statMp
  | maxMp => statMaxMp
  | ap => statAp
  | sp => statSp
  | exp => statExp
  | fame => statFame
  | meso => statMeso

/-- The bit of a stat. -/
def bit : Stat → ℕ
  | skin => 0
  | face => 1
  | hair => 2
  | level => 4
  | job => 5
  | str => 6
  | dex => 7
  | int => 8
  | luk => 9
  | hp => 10
  | maxHp => 11
  | mp => 12
  | maxMp => 13
  | ap => 14
  | sp => 15
  | exp => 16
  | fame => 17
  | meso => 18

/-- The format of a stat. -/
def format : Stat → Format
  | skin | level => u8
  | face | hair => u32
  | job => u16
  | exp | meso => i32
  | _ => i16

end Stat

/-- A mask has the flag of a stat. -/
def Sends (stats : UInt32) (s : Stat) : Prop := stats &&& s.flag ≠ 0

instance (stats : UInt32) (s : Stat) : Decidable (Sends stats s) := by unfold Sends; infer_instance

/-- The value of a stat. -/
def Character.value (chr : Character) : Stat → ℤ
  | .skin => chr.persona.skin.toNat
  | .face => chr.persona.face.toNat
  | .hair => chr.persona.hair.toNat
  | .level => chr.level.toNat
  | .job => chr.job.toNat
  | .str => chr.str.toInt
  | .dex => chr.dex.toInt
  | .int => chr.int_.toInt
  | .luk => chr.luk.toInt
  | .hp => chr.hp.toInt
  | .maxHp => chr.maxHp.toInt
  | .mp => chr.mp.toInt
  | .maxMp => chr.maxMp.toInt
  | .ap => chr.ap.toInt
  | .sp => chr.sp.toInt
  | .exp => chr.exp.toInt
  | .fame => chr.persona.fame.toInt
  | .meso => chr.mesos.toInt

/-! ## Writing -/

/-- `STAT_CHANGE_PACKET_MAX_LENGTH`. -/
def statChangePacketMaxLength : ℕ := 57

/-- `for (; s; count++) s &= s - 1;`, of which there are at most `n` turns. -/
def countBits : ℕ → UInt32 → UInt8 → Exec UInt8
  | 0, _, _ => .error .divergence
  | n + 1, s, count => if s = 0 then .ok count else countBits n (s &&& (s - 1)) (count + 1)

/-- The number of stats in a mask; the three bits of a pet are one stat. -/
def statCount (stats : UInt32) : Exec UInt8 :=
  if stats &&& 0x180008 ≠ 0 then countBits 33 (stats &&& ~~~0x180008) 1 else countBits 33 stats 0

/-- The branches of the loop, in their order: a flag, and how its value is written. -/
def statBranches : List (UInt32 × Format) :=
  [(statSkin, u8), (statFace, u32), (statHair, u32), (statLevel, u8), (statJob, i16), (statStr, i16),
    (statDex, i16), (statInt, i16), (statLuk, i16), (statHp, i16), (statMaxHp, i16), (statMp, i16),
    (statMaxMp, i16), (statAp, i16), (statSp, i16), (statExp, i32), (statFame, i16), (statMeso, i32),
    (statPet, u32), (statGachaExp, i32)]

/-- `n` turns of the loop. A turn takes the first branch whose flag is left, if there is one, and
    reads the next value. -/
def statTurns : ℕ → UInt32 → List ℤ → Exec (List Write)
  | 0, _, _ => .ok []
  | n + 1, stats, values =>
    match statBranches.find? fun branch => stats &&& branch.1 != 0 with
    | none => statTurns n stats values.tail
    | some (flag, format) =>
      match values with
      | [] => .error .outOfBounds
      | value :: values => do
        let ws ← statTurns n (stats &&& ~~~flag) values
        return .num format value :: ws

/-- `stat_change_packet`. -/
def statChangePacket (enableActions : Bool) (stats : UInt32) (values : List ℤ) :
    Exec (List UInt8) := do
  let count ← statCount stats
  let ws ← statTurns count.toNat stats values
  packetOf statChangePacketMaxLength
    (.num u16 0x001F :: .num u8 enableActions.toNat :: .num u32 stats.toNat :: ws)

/-! ## Reading -/

/-- The copy of the stats that the program of the player has. -/
abbrev StatCopy := Stat → ℤ

/-- Reads the values of the stats in a mask, of which there is nothing left in the end. -/
def readStats (mask : UInt32) : List Stat → List UInt8 → StatCopy → Option StatCopy
  | [], bs, copy => if bs = [] then some copy else none
  | s :: ss, bs, copy =>
    if Sends mask s then do
      let (value, bs) ← s.format.read bs
      readStats mask ss bs (Function.update copy s value)
    else readStats mask ss bs copy

/-- What the program of the player does with a `STAT_CHANGE` packet. -/
def readStatChange (bs : List UInt8) (copy : StatCopy) : Option StatCopy := do
  let (opcode, bs) ← u16.read bs
  let (_, bs) ← u8.read bs
  let (mask, bs) ← u32.read bs
  if opcode = 0x001F then readStats (UInt32.ofNat mask.toNat) Stat.all bs copy else none

/-! ## Masks -/

/-- All flags of stats. -/
def statMask : UInt32 := 0x7FFF7

/-- A mask of flags of stats. -/
def OnlyStats (stats : UInt32) : Prop := stats &&& ~~~statMask = 0

instance (stats : UInt32) : Decidable (OnlyStats stats) := by unfold OnlyStats; infer_instance

/-- The stats in a mask. -/
def sent (stats : UInt32) : List Stat := Stat.all.filter fun s => Sends stats s

namespace Stat

theorem mem_all (s : Stat) : s ∈ all := by
  cases s <;> decide

theorem bit_lt (s : Stat) : s.bit < 32 := by
  cases s <;> decide

theorem bit_injective : Function.Injective bit := by
  intro s s' h
  cases s <;> cases s' <;> first | rfl | cases h

theorem toBitVec_flag (s : Stat) : s.flag.toBitVec = BitVec.twoPow 32 s.bit := by
  cases s <;> decide

end Stat

theorem sends_iff {stats : UInt32} {s : Stat} : Sends stats s ↔ stats.toBitVec.getLsbD s.bit := by
  have hpow : BitVec.twoPow 32 s.bit ≠ 0#32 := by cases s <;> decide
  rw [Sends, ← UInt32.toBitVec_inj.ne, UInt32.toBitVec_and, s.toBitVec_flag, BitVec.and_twoPow]
  split
  · rename_i h
    exact iff_of_true hpow h
  · rename_i h
    exact iff_of_false (not_not.2 rfl) h

@[simp] theorem sends_or {a b : UInt32} {s : Stat} : Sends (a ||| b) s ↔ Sends a s ∨ Sends b s := by
  rw [sends_iff, sends_iff, sends_iff, UInt32.toBitVec_or, BitVec.getLsbD_or, Bool.or_eq_true]

@[simp] theorem sends_flag {s s' : Stat} : Sends s'.flag s ↔ s = s' := by
  rw [sends_iff, Stat.toBitVec_flag, BitVec.getLsbD_twoPow, Bool.and_eq_true, decide_eq_true_eq,
    decide_eq_true_eq, and_iff_right s'.bit_lt]
  exact ⟨fun h => (Stat.bit_injective h).symm, fun h => h ▸ rfl⟩

/-- Clearing the flag of a stat. -/
theorem sends_clear {stats : UInt32} {s s' : Stat} :
    Sends (stats &&& ~~~s'.flag) s ↔ Sends stats s ∧ s ≠ s' := by
  have hflag := @sends_flag s s'
  rw [sends_iff] at hflag
  rw [sends_iff, sends_iff, UInt32.toBitVec_and, UInt32.toBitVec_not, BitVec.getLsbD_and,
    BitVec.getLsbD_not, Bool.and_eq_true, Bool.and_eq_true, Bool.not_eq_true', ne_eq, ← hflag,
    Bool.not_eq_true]
  simp only [s.bit_lt, decide_true, true_and]

theorem onlyStats_or {a b : UInt32} (ha : OnlyStats a) (hb : OnlyStats b) : OnlyStats (a ||| b) := by
  rw [OnlyStats, ← UInt32.toBitVec_inj, UInt32.toBitVec_and] at *
  rw [UInt32.toBitVec_or, BitVec.and_or_distrib_right, ha, hb]
  rfl

/-- Clearing flags leaves a mask of flags. -/
theorem OnlyStats.clear {stats : UInt32} (h : OnlyStats stats) (flag : UInt32) :
    OnlyStats (stats &&& flag) := by
  rw [OnlyStats, UInt32.and_assoc, UInt32.and_comm flag, ← UInt32.and_assoc, h, UInt32.zero_and]

/-- Other flags are not in a mask of flags. -/
theorem OnlyStats.and_eq_zero {stats flag : UInt32} (h : OnlyStats stats)
    (hflag : flag &&& ~~~statMask = flag) : stats &&& flag = 0 := by
  rw [← hflag, UInt32.and_comm flag, ← UInt32.and_assoc, h, UInt32.zero_and]

theorem OnlyStats.flag (s : Stat) : OnlyStats s.flag := by
  cases s <;> decide

theorem mem_sent {stats : UInt32} {s : Stat} : s ∈ sent stats ↔ Sends stats s := by
  rw [sent, List.mem_filter, decide_eq_true_eq]
  exact and_iff_right s.mem_all

theorem nodup_all : Stat.all.Nodup := by
  decide

/-! ## The loops -/

/-- The loop counts the bits of the mask. -/
theorem countBits_spec {n : ℕ} {s : UInt32} (h : s.toNat.bitIndices.length < n) (count : UInt8) :
    countBits n s count = .ok (count + UInt8.ofNat s.toNat.bitIndices.length) := by
  induction n generalizing s count with
  | zero => exact absurd h (Nat.not_lt_zero _)
  | succ n ih =>
    rw [countBits]
    split
    · rename_i hs
      rw [hs]
      exact congrArg Except.ok (UInt8.add_zero count).symm
    · rename_i hs
      have hpos : s.toNat ≠ 0 := fun h => hs (UInt32.toNat_inj.1 h)
      have hone : 1 ≤ s := UInt32.le_iff_toNat_le.2 (Nat.one_le_iff_ne_zero.2 hpos)
      have hclear : (s &&& (s - 1)).toNat.bitIndices = s.toNat.bitIndices.tail := by
        rw [UInt32.toNat_and, UInt32.toNat_sub_of_le _ _ hone]
        exact bitIndices_and_pred hpos
      have hlen : s.toNat.bitIndices.length = s.toNat.bitIndices.tail.length + 1 := by
        rw [List.length_tail, Nat.sub_add_cancel]
        refine List.length_pos_iff.2 fun hnil => hpos ?_
        rw [← Nat.sum_map_two_pow_bitIndices s.toNat, hnil]
        rfl
      rw [ih (by rw [hclear]; omega), hclear, hlen, UInt8.ofNat_add, UInt8.add_assoc,
        UInt8.add_comm 1]
      rfl

theorem length_bitIndices_le (s : UInt32) : s.toNat.bitIndices.length ≤ 32 := by
  have hsub : s.toNat.bitIndices ⊆ List.range 32 := fun i hi => List.mem_range.2
    (Nat.pow_lt_pow_iff_right (by decide : 1 < 2) |>.1
      ((Nat.two_pow_le_of_mem_bitIndices hi).trans_lt s.toNat_lt))
  exact (List.Nodup.subperm Nat.bitIndices_nodup hsub).length_le.trans_eq List.length_range

/-- There is a turn for every stat in a mask. -/
theorem statCount_spec {stats : UInt32} (h : OnlyStats stats) :
    ∃ count, statCount stats = .ok count ∧ (sent stats).length ≤ count.toNat := by
  have hle := length_bitIndices_le stats
  rw [statCount, if_neg (not_not.2 (h.and_eq_zero rfl)), countBits_spec (by omega), UInt8.zero_add]
  refine ⟨_, rfl, ?_⟩
  rw [UInt8.toNat_ofNat_of_lt' (Nat.lt_of_le_of_lt hle (by decide))]
  have hbits : ∀ i ∈ (sent stats).map Stat.bit, stats.toNat.testBit i := fun i hi => by
    obtain ⟨s, hs, rfl⟩ := List.mem_map.1 hi
    exact sends_iff.1 (mem_sent.1 hs)
  have hnodup : ((sent stats).map Stat.bit).Nodup :=
    (nodup_all.filter _).map Stat.bit_injective
  exact List.length_map (f := Stat.bit) ▸ length_le_bitIndices hnodup hbits

/-- How the value of a stat is written. -/
def Stat.branch (s : Stat) : UInt32 × Format := (s.flag, if s = .job then i16 else s.format)

/-- The first branch whose flag is left is that of the first stat in the mask. -/
theorem find?_statBranches {stats : UInt32} (h : OnlyStats stats) :
    (statBranches.find? fun branch => stats &&& branch.1 != 0) =
      (sent stats).head?.map Stat.branch := by
  have hbranches : statBranches =
      Stat.all.map Stat.branch ++ [(statPet, u32), (statGachaExp, i32)] := rfl
  have hpet : stats &&& statPet = 0 := h.and_eq_zero rfl
  have hgacha : stats &&& statGachaExp = 0 := h.and_eq_zero rfl
  have hsends : (fun branch : UInt32 × Format => stats &&& branch.1 != 0) ∘ Stat.branch =
      fun s => decide (Sends stats s) := by
    funext s
    exact Bool.eq_iff_iff.2 (bne_iff_ne.trans decide_eq_true_iff.symm)
  rw [hbranches, List.find?_append, List.find?_map, hsends, sent, List.head?_filter]
  cases Stat.all.find? fun s => Sends stats s with
  | some s => rfl
  | none => simp [hpet, hgacha]

/-- Clearing the flag of the first stat in a mask. -/
theorem sent_clear {stats : UInt32} {s : Stat} {ss : List Stat} (h : sent stats = s :: ss) :
    sent (stats &&& ~~~s.flag) = ss := by
  have hnodup : (s :: ss).Nodup := h ▸ nodup_all.filter _
  have hne : ∀ s' ∈ ss, s' ≠ s := fun s' hs' heq => (List.nodup_cons.1 hnodup).1 (heq ▸ hs')
  have hfilter : sent (stats &&& ~~~s.flag) = (sent stats).filter (· ≠ s) := by
    rw [sent, sent, List.filter_filter]
    refine List.filter_congr fun s' _ => ?_
    rw [decide_eq_decide.2 sends_clear, Bool.decide_and, Bool.and_comm]
  rw [hfilter, h, List.filter_cons_of_neg (by simp), List.filter_eq_self.2]
  exact fun s' hs' => decide_eq_true (hne s' hs')

/-- The turns write the values of the stats in the mask. -/
theorem statTurns_spec {n : ℕ} {stats : UInt32} (h : OnlyStats stats) (v : Stat → ℤ)
    (hn : (sent stats).length ≤ n) :
    statTurns n stats ((sent stats).map v) =
      .ok ((sent stats).map fun s => .num s.branch.2 (v s)) := by
  induction n generalizing stats with
  | zero =>
    rw [List.length_eq_zero_iff.1 (Nat.le_zero.1 hn)]
    rfl
  | succ n ih =>
    rw [statTurns, find?_statBranches h]
    cases hsent : sent stats with
    | nil =>
      have hturns := ih h (by rw [hsent]; exact Nat.zero_le _)
      rw [hsent] at hturns
      exact hturns
    | cons s ss =>
      have hclear := sent_clear hsent
      rw [hsent, List.length_cons] at hn
      have hturns := ih (h.clear (~~~s.flag)) (by rw [hclear]; omega)
      rw [hclear] at hturns
      exact congrArg (fun x => x >>= fun ws => pure (Write.num s.branch.2 (v s) :: ws)) hturns

/-! ## The round trip -/

/-- How a value is written depends on its width only. -/
theorem encode_branch (s : Stat) (v : ℤ) : s.branch.2.encode v = s.format.encode v := by
  cases s <;> rfl

/-- The values of the stats in the mask are read. -/
theorem readStats_spec {mask : UInt32} {ss : List Stat} (hss : ss.Nodup) {v : Stat → ℤ}
    (hv : ∀ s, Sends mask s → s.format.InRange (v s)) (copy : StatCopy) :
    readStats mask ss ((ss.filter fun s => Sends mask s).flatMap fun s => s.format.encode (v s))
        copy =
      some fun s => if s ∈ ss ∧ Sends mask s then v s else copy s := by
  induction ss generalizing copy with
  | nil =>
    rw [List.filter_nil, List.flatMap_nil, readStats, if_pos rfl]
    simp only [List.not_mem_nil, false_and, if_false]
  | cons s ss ih =>
    obtain ⟨hs, hss⟩ := List.nodup_cons.1 hss
    rw [readStats]
    by_cases hsends : Sends mask s
    · have hfilter : (s :: ss).filter (fun s => Sends mask s) = s :: ss.filter fun s => Sends mask s :=
        List.filter_cons_of_pos (decide_eq_true hsends)
      rw [if_pos hsends, hfilter, List.flatMap_cons, Format.read_encode (hv s hsends)]
      refine (ih hss (Function.update copy s (v s))).trans (congrArg some (funext fun s' => ?_))
      by_cases heq : s' = s
      · rw [heq, if_neg fun h => hs h.1, Function.update_self, if_pos ⟨List.mem_cons_self, hsends⟩]
      · rw [Function.update_of_ne heq]
        exact if_congr (and_congr_left fun _ => ⟨List.mem_cons_of_mem s, List.mem_of_ne_of_mem heq⟩)
          rfl rfl
    · have hfilter : (s :: ss).filter (fun s => Sends mask s) = ss.filter fun s => Sends mask s :=
        List.filter_cons_of_neg (by simpa using hsends)
      rw [if_neg hsends, hfilter]
      refine (ih hss copy).trans (congrArg some (funext fun s' => ?_))
      refine if_congr (and_congr_left fun h => ⟨List.mem_cons_of_mem s, List.mem_of_ne_of_mem ?_⟩)
        rfl rfl
      rintro rfl
      exact hsends h

/-- The packet is as long as its mask says, and not too long. -/
theorem statChangePacket_eq_ok {stats : UInt32} (h : OnlyStats stats) (enableActions : Bool)
    (v : Stat → ℤ) :
    statChangePacket enableActions stats ((sent stats).map v) =
      .ok (u16.encode 0x001F ++ (u8.encode enableActions.toNat ++ (u32.encode stats.toNat ++
        (sent stats).flatMap fun s => s.format.encode (v s)))) := by
  obtain ⟨count, hcount, hle⟩ := statCount_spec h
  have hsize : ((sent stats).map fun s => s.branch.2.width).sum ≤ 42 := by
    have hsub : ((sent stats).map fun s => s.branch.2.width).Sublist
        (Stat.all.map fun s => s.branch.2.width) := List.filter_sublist.map _
    exact hsub.sum_le_sum fun _ _ => Nat.zero_le _
  rw [statChangePacket, hcount, Exec.ok_bind, statTurns_spec h v hle, Exec.ok_bind, packetOf_eq_ok]
  refine ⟨?_, ?_, ?_⟩
  · simp only [List.forall_mem_cons, List.forall_mem_map]
    exact ⟨trivial, trivial, trivial, fun _ _ => trivial⟩
  · have hlength : lengthOf ((sent stats).map fun s => .num s.branch.2 (v s)) =
        ((sent stats).map fun s => s.branch.2.width).sum := by
      rw [lengthOf, List.map_map]
      rfl
    change 2 + (1 + (4 + lengthOf ((sent stats).map fun s => .num s.branch.2 (v s)))) ≤ 57
    omega
  · rw [bytesOf, List.flatMap_cons, List.flatMap_cons, List.flatMap_cons, List.flatMap_map]
    simp only [Write.bytes, encode_branch]

/-- What the player reads are the values that have been sent. -/
theorem readStatChange_statChangePacket {stats : UInt32} (h : OnlyStats stats) {enableActions : Bool}
    {v : Stat → ℤ} (hv : ∀ s, Sends stats s → s.format.InRange (v s)) (copy : StatCopy) :
    (statChangePacket enableActions stats ((sent stats).map v)).toOption.bind
        (readStatChange · copy) =
      some fun s => if Sends stats s then v s else copy s := by
  rw [statChangePacket_eq_ok h]
  have hbool : u8.InRange enableActions.toNat := by cases enableActions <;> decide
  have hmask : u32.InRange stats.toNat := ⟨by positivity, by exact_mod_cast stats.toNat_lt⟩
  have hopcode : u16.InRange 0x001F := by decide
  have hmask' : UInt32.ofNat (stats.toNat : ℤ).toNat = stats := by
    rw [Int.toNat_natCast, UInt32.ofNat_toNat]
  have hread := readStats_spec nodup_all hv copy
  simp only [Stat.mem_all, true_and] at hread
  simp only [Except.toOption, Option.bind_some, readStatChange, Format.read_encode hopcode,
    Format.read_encode hbool, Format.read_encode hmask, bind, if_true, hmask']
  exact hread

end Syrup
