import Mathlib.Data.Nat.BitIndices
import Mathlib.Data.Nat.EvenOddRec
import Mathlib.Tactic

/-!
# Numbers on the wire

A number is written in some bytes, the lowest ones first. How many they are, and whether the
number is signed, is its `Format`: a reader that knows the format of what comes next reads the number
that has been written, if it is in range (`Format.read_encode`).

A set is often sent as the bits of a number, which is called a mask, and counted by clearing its lowest bit
until there is none (`bitIndices_and_pred`).
-/

namespace Wire

/-! ## Bytes -/

/-- The lowest `w` bytes of a number. -/
def bytes : ℕ → ℕ → List UInt8
  | 0, _ => []
  | w + 1, n => UInt8.ofNat n :: bytes w (n / 256)

/-- The number in some bytes. -/
def number : List UInt8 → ℕ
  | [] => 0
  | b :: bs => b.toNat + 256 * number bs

@[simp] theorem length_bytes (w n : ℕ) : (bytes w n).length = w := by
  induction w generalizing n with
  | zero => rfl
  | succ w ih => rw [bytes, List.length_cons, ih]

theorem number_bytes (w n : ℕ) : number (bytes w n) = n % 256 ^ w := by
  induction w generalizing n with
  | zero => rw [bytes, number, pow_zero, Nat.mod_one]
  | succ w ih =>
    have hbyte : (UInt8.ofNat n).toNat = n % 256 := rfl
    rw [bytes, number, ih, hbyte, pow_succ', Nat.mod_mul]

/-! ## Formats -/

/-- How a number is written. -/
structure Format where
  width : ℕ
  signed : Bool
  deriving DecidableEq

namespace Format

variable (f : Format)

/-- The bytes of a number. -/
def encode (v : ℤ) : List UInt8 := bytes f.width (v % 256 ^ f.width).toNat

/-- The number in some bytes. -/
def decode (bs : List UInt8) : ℤ :=
  if f.signed then (number bs : ℤ).bmod (256 ^ f.width) else number bs

/-- The numbers that can be written. -/
def InRange (v : ℤ) : Prop :=
  if f.signed then -(256 ^ f.width : ℤ) ≤ v * 2 ∧ v * 2 < 256 ^ f.width
  else 0 ≤ v ∧ v < 256 ^ f.width

instance (v : ℤ) : Decidable (f.InRange v) := by unfold InRange; infer_instance

/-- Reads a number. -/
def read (bs : List UInt8) : Option (ℤ × List UInt8) :=
  if f.width ≤ bs.length then some (f.decode (bs.take f.width), bs.drop f.width) else none

variable {f}

@[simp] theorem length_encode (v : ℤ) : (f.encode v).length = f.width := length_bytes ..

theorem decode_encode {v : ℤ} (h : f.InRange v) : f.decode (f.encode v) = v := by
  have hpos : (0 : ℤ) < 256 ^ f.width := by positivity
  have hnumber : (number (f.encode v) : ℤ) = v % 256 ^ f.width := by
    have hnonneg := Int.emod_nonneg v hpos.ne'
    have hlt := Int.emod_lt_of_pos v hpos
    rw [encode, number_bytes, Nat.mod_eq_of_lt (by zify; rwa [Int.toNat_of_nonneg hnonneg]),
      Int.toNat_of_nonneg hnonneg]
  rw [decode, hnumber]
  rw [InRange] at h
  split at h
  · rename_i hsigned
    have hemod := Int.emod_bmod v (256 ^ f.width)
    rw [Nat.cast_pow, Nat.cast_ofNat] at hemod
    rw [if_pos hsigned, hemod]
    refine Int.bmod_eq_of_le_mul_two ?_ ?_
    · exact_mod_cast h.1
    · exact_mod_cast h.2
  · rename_i hsigned
    rw [if_neg hsigned, Int.emod_eq_of_lt h.1 h.2]

/-- What has been written is read. -/
theorem read_encode {v : ℤ} (h : f.InRange v) (rest : List UInt8) :
    f.read (f.encode v ++ rest) = some (v, rest) := by
  have hlen := length_encode (f := f) v
  rw [read, if_pos (by rw [List.length_append, hlen]; omega), List.take_left' hlen,
    List.drop_left' hlen, decode_encode h]

end Format

/-! ## Masks -/

/-- Clearing the lowest bit. -/
theorem bitIndices_and_pred {n : ℕ} (h : n ≠ 0) :
    (n &&& (n - 1)).bitIndices = n.bitIndices.tail := by
  induction n using Nat.evenOddRec with
  | h0 => exact absurd rfl h
  | h_even m ih =>
    have hm : m ≠ 0 := by omega
    have hand : 2 * m &&& (2 * m - 1) = 2 * (m &&& (m - 1)) := by
      refine Nat.eq_of_testBit_eq fun i => ?_
      have hpred : 2 * m - 1 = 2 * (m - 1) + 1 := by omega
      rw [Nat.testBit_and, hpred]
      cases i with
      | zero => simp [Nat.testBit_zero]
      | succ i =>
        rw [Nat.testBit_succ, Nat.testBit_succ, Nat.testBit_succ, Nat.mul_div_cancel_left _ two_pos,
          Nat.mul_div_cancel_left _ two_pos, show (2 * (m - 1) + 1) / 2 = m - 1 by omega,
          Nat.testBit_and]
    rw [hand, Nat.bitIndices_two_mul, Nat.bitIndices_two_mul, ih hm, List.map_tail]
  | h_odd m _ =>
    have hand : (2 * m + 1) &&& (2 * m + 1 - 1) = 2 * m := by
      refine Nat.eq_of_testBit_eq fun i => ?_
      rw [Nat.testBit_and, Nat.add_sub_cancel]
      cases i with
      | zero => simp [Nat.testBit_zero]
      | succ i =>
        rw [Nat.testBit_succ, Nat.testBit_succ, show (2 * m + 1) / 2 = m by omega,
          Nat.mul_div_cancel_left _ two_pos, Bool.and_self]
    rw [hand, Nat.bitIndices_two_mul, Nat.bitIndices_two_mul_add_one, List.tail_cons]

/-- Bits that are set are counted. -/
theorem length_le_bitIndices {n : ℕ} {l : List ℕ} (hl : l.Nodup) (hbits : ∀ i ∈ l, n.testBit i) :
    l.length ≤ n.bitIndices.length :=
  (List.Nodup.subperm hl fun i hi => Nat.mem_bitIndices.2 (hbits i hi)).length_le

end Wire
