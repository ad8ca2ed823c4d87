import Syrup.Client.Shop

/-!
# `client_gain_meso` as an addition

Mesos are gained up to the most there can be. Where more are to be lost than there are, the amount is
replaced by the mesos there are, and not by what would be left without them: as many are added, and the sum
may be more than an `int32_t` holds.

That is all that keeps `client_gain_meso` from being an addition between `0` and `INT32_MAX`
(`clientGainMeso_saturates_iff`).
-/

namespace Syrup

open Machine

/-- The amount that `client_gain_meso` adds, after its two guards. -/
def mesosToGain (chr : Character) (mesos : Int32) : Int32 :=
  if 0 < mesos then
    if chr.mesos > Int32.maxValue - mesos then Int32.maxValue - chr.mesos else mesos
  else if chr.mesos + mesos < 0 then chr.mesos
  else mesos

/-- The packet with the amount, if one is sent. -/
def mesosPacket (pickup reward : Bool) (amount : Int32) : List Packet :=
  if pickup then [.mesoGain amount] else if reward then [.mesoGainInChat amount] else []

variable {c : Client} {mesos : Int32} {pickup reward : Bool}

theorem sent_clientGainMeso (c : Client) (mesos : Int32) (pickup reward : Bool) :
    (clientGainMeso c mesos pickup reward).sent =
      c.sent ++ mesosPacket pickup reward (mesosToGain c.character mesos) := by
  rw [clientGainMeso, mesosPacket]
  cases pickup with
  | true => rfl
  | false =>
    cases reward with
    | true => rfl
    | false => exact (List.append_nil _).symm

/-- What there is after the amount has been added. -/
theorem mesos_after (c : Client) (mesos : Int32) (pickup reward : Bool) :
    (clientGainMeso c mesos pickup reward).character.mesos =
      if c.character.mesos + mesosToGain c.character mesos < 0 then 0
      else c.character.mesos + mesosToGain c.character mesos := by
  rw [clientGainMeso]
  cases pickup <;> cases reward <;> rfl

/-- `client_gain_meso` is an addition between `0` and `INT32_MAX`: the sum does not overflow, it is what it
    should be, and the amount that is told is what has been added. -/
structure Saturates (c : Client) (mesos : Int32) (pickup reward : Bool) : Prop where
  inRange : -2147483648 ≤ c.character.mesos.toInt + (mesosToGain c.character mesos).toInt ∧
    c.character.mesos.toInt + (mesosToGain c.character mesos).toInt ≤ 2147483647
  total : (clientGainMeso c mesos pickup reward).character.mesos.toInt =
    min 2147483647 (max 0 (c.character.mesos.toInt + mesos.toInt))
  told : ∃ amount : Int32,
    (clientGainMeso c mesos pickup reward).sent = c.sent ++ mesosPacket pickup reward amount ∧
      amount.toInt = (clientGainMeso c mesos pickup reward).character.mesos.toInt -
        c.character.mesos.toInt

/-- The amount is reduced to what there is room for. -/
theorem toInt_mesosToGain (h : 0 ≤ c.character.mesos.toInt)
    (hsum : 0 ≤ c.character.mesos.toInt + mesos.toInt) :
    (mesosToGain c.character mesos).toInt = min mesos.toInt (2147483647 - c.character.mesos.toInt) := by
  have hm := bounds32 mesos
  have hc := bounds32 c.character.mesos
  have hmax : Int32.maxValue.toInt = 2147483647 := rfl
  rw [mesosToGain]
  by_cases hpos : 0 < mesos
  · rw [if_pos hpos]
    rw [lt32, zero32] at hpos
    -- The guard for a gain.
    have hfree := sub32 (a := Int32.maxValue) (b := mesos) (by omega) (by omega)
    have hleft := sub32 (a := Int32.maxValue) (b := c.character.mesos) (by omega) (by omega)
    split
    · rename_i hgt
      rw [gt_iff_lt, lt32, hfree] at hgt
      omega
    · rename_i hgt
      rw [gt_iff_lt, lt32, hfree] at hgt
      omega
  · rw [if_neg hpos]
    rw [lt32, zero32] at hpos
    -- The guard for a loss, which is not too large here.
    have hadd := add32 (a := c.character.mesos) (b := mesos) (by omega) (by omega)
    rw [if_neg fun hlt => by rw [lt32, hadd, zero32] at hlt; omega]
    omega

/-- The amount is replaced by what there is. -/
theorem mesosToGain_of_neg (h : 0 ≤ c.character.mesos.toInt)
    (hsum : c.character.mesos.toInt + mesos.toInt < 0) :
    mesosToGain c.character mesos = c.character.mesos := by
  have hm := bounds32 mesos
  have hc := bounds32 c.character.mesos
  have hadd := add32 (a := c.character.mesos) (b := mesos) (by omega) (by omega)
  have hneg : ¬0 < mesos := by
    rw [lt32, zero32]
    omega
  have hlt : c.character.mesos + mesos < 0 := by
    rw [lt32, hadd, zero32]
    exact hsum
  rw [mesosToGain, if_neg hneg, if_pos hlt]

/-- It is an addition if and only if no more is to be lost than there is, or there is nothing. -/
theorem clientGainMeso_saturates_iff (h : 0 ≤ c.character.mesos.toInt) (mesos : Int32)
    (pickup reward : Bool) : Saturates c mesos pickup reward ↔
      0 ≤ c.character.mesos.toInt + mesos.toInt ∨ c.character.mesos = 0 := by
  have hc := bounds32 c.character.mesos
  constructor
  · intro hs
    -- With a loss that is too large, the mesos are doubled.
    by_contra hcon
    obtain ⟨hneg, hne⟩ := not_or.1 hcon
    have hgain := mesosToGain_of_neg h (not_le.1 hneg)
    have hzero : c.character.mesos.toInt ≠ 0 := fun he => hne (Int32.toInt_inj.1 he)
    have hrange := hs.inRange
    have hmesos := hs.total
    rw [hgain] at hrange
    have hadd := add32 (a := c.character.mesos) (b := c.character.mesos) hrange.1 hrange.2
    rw [mesos_after, hgain, if_neg (by rw [lt32, hadd, zero32]; omega), hadd] at hmesos
    omega
  · intro hcond
    by_cases hsum : 0 ≤ c.character.mesos.toInt + mesos.toInt
    · have hgain := toInt_mesosToGain h hsum
      have hmesos := @mesos_clientGainMeso c mesos pickup reward hsum
      refine ⟨by omega, by omega, _, sent_clientGainMeso .., ?_⟩
      omega
    · have hzero := hcond.resolve_left hsum
      have hgain := mesosToGain_of_neg h (not_le.1 hsum)
      have hmesos : (clientGainMeso c mesos pickup reward).character.mesos = 0 := by
        rw [mesos_after, hgain, hzero]
        decide
      rw [hzero, zero32] at hsum
      refine ⟨?_, ?_, _, sent_clientGainMeso .., ?_⟩
      · rw [hgain, hzero]
        decide
      · rw [hmesos, hzero, zero32]
        omega
      · rw [hmesos, hgain, hzero]
        decide

/-- A client whose character has only mesos. -/
def purse (mesos : Int32) : Client := .new { (default : Character) with mesos := mesos }

/-- Ten of a hundred mesos are lost. -/
theorem clientGainMeso_saturates_ten : Saturates (purse 100) (-10) true false :=
  (clientGainMeso_saturates_iff (c := purse 100) (by decide) (-10) true false).2 (.inl (by decide))

/-- Two hundred of a hundred mesos are lost: there are two hundred then. -/
theorem clientGainMeso_doubles : ¬Saturates (purse 100) (-200) true false := fun h => by
  have hmesos := h.total
  have hdoubled : (clientGainMeso (purse 100) (-200) true false).character.mesos.toInt = 200 := by
    decide
  rw [hdoubled] at hmesos
  exact absurd hmesos (by decide)

end Syrup
