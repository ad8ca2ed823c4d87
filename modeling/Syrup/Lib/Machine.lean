import Mathlib.Tactic

/-!
# Machine integers

The integers that machine integers stand for, where nothing overflows: a sum or a
difference that is in range is what it would be in `ℤ`, and only then.
-/

namespace Machine

/-! ## 16 bits -/

section Int16

variable {a b : Int16}

theorem bounds16 (a : Int16) : -32768 ≤ a.toInt ∧ a.toInt ≤ 32767 :=
  ⟨a.le_toInt, Int.le_of_lt_add_one a.toInt_lt⟩

theorem lt16 : a < b ↔ a.toInt < b.toInt := Int16.lt_iff_toInt_lt

theorem le16 : a ≤ b ↔ a.toInt ≤ b.toInt := Int16.le_iff_toInt_le

theorem eq16 : a = b ↔ a.toInt = b.toInt := Int16.toInt_inj.symm

theorem zero16 : (0 : Int16).toInt = 0 := rfl

theorem one16 : (1 : Int16).toInt = 1 := rfl

theorem max16 : (32767 : Int16).toInt = 32767 := rfl

theorem add16 (h : -32768 ≤ a.toInt + b.toInt) (h' : a.toInt + b.toInt ≤ 32767) :
    (a + b).toInt = a.toInt + b.toInt := by
  rw [Int16.toInt_add]
  exact Int.bmod_eq_of_le h (by omega)

theorem sub16 (h : -32768 ≤ a.toInt - b.toInt) (h' : a.toInt - b.toInt ≤ 32767) :
    (a - b).toInt = a.toInt - b.toInt := by
  rw [Int16.toInt_sub]
  exact Int.bmod_eq_of_le h (by omega)

/-- A sum is what it would be in `ℤ` exactly when that is in range. -/
theorem add16_iff : (a + b).toInt = a.toInt + b.toInt ↔
    -32768 ≤ a.toInt + b.toInt ∧ a.toInt + b.toInt ≤ 32767 := by
  refine ⟨fun h => ?_, fun h => add16 h.1 h.2⟩
  rw [← h]
  exact bounds16 _

/-- A number in range is what is left of it in 16 bits. -/
theorem ofInt16 {n : ℤ} (h : -32768 ≤ n) (h' : n ≤ 32767) : (Int16.ofInt n).toInt = n := by
  exact Int16.toInt_ofInt_of_le h (by omega)

/-- What is left of any number in 16 bits is off by a multiple of `2^16`. -/
theorem ofInt16_mod (n : ℤ) : ∃ k, (Int16.ofInt n).toInt = n - 65536 * k := by
  refine ⟨n.bdiv Int16.size, ?_⟩
  rw [Int16.toInt_ofInt, eq_sub_iff_add_eq']
  exact Int.bdiv_add_bmod n Int16.size

/-- So is a difference. -/
theorem sub16_mod (a b : Int16) : ∃ k, (a - b).toInt = a.toInt - b.toInt - 65536 * k := by
  rw [← Int16.ofInt_toInt (a - b), Int16.toInt_sub]
  obtain ⟨k, hk⟩ := ofInt16_mod (a.toInt - b.toInt)
  refine ⟨k, ?_⟩
  rw [← hk, Int16.toInt_ofInt, Int16.toInt_ofInt]
  exact Int.bmod_bmod ..

/-- A difference is `0` between equals only, whether or not it overflows. -/
theorem sub16_eq_zero (h : a - b = 0) : a = b := by
  have hb := Int16.sub_add_cancel a b
  rw [h, Int16.zero_add] at hb
  exact hb.symm

end Int16

/-! ## 32 bits -/

section Int32

variable {a b : Int32}

theorem bounds32 (a : Int32) : -2147483648 ≤ a.toInt ∧ a.toInt ≤ 2147483647 :=
  ⟨a.le_toInt, Int.le_of_lt_add_one a.toInt_lt⟩

theorem lt32 : a < b ↔ a.toInt < b.toInt := Int32.lt_iff_toInt_lt

theorem zero32 : (0 : Int32).toInt = 0 := rfl

theorem neg32 (h : -2147483648 < a.toInt) : (-a).toInt = -a.toInt := by
  have hb := bounds32 a
  rw [Int32.toInt_neg]
  exact Int.bmod_eq_of_le (by omega) (by omega)

theorem add32 (h : -2147483648 ≤ a.toInt + b.toInt) (h' : a.toInt + b.toInt ≤ 2147483647) :
    (a + b).toInt = a.toInt + b.toInt := by
  rw [Int32.toInt_add]
  exact Int.bmod_eq_of_le h (by omega)

theorem sub32 (h : -2147483648 ≤ a.toInt - b.toInt) (h' : a.toInt - b.toInt ≤ 2147483647) :
    (a - b).toInt = a.toInt - b.toInt := by
  rw [Int32.toInt_sub]
  exact Int.bmod_eq_of_le h (by omega)

theorem toInt32_zero : (0 : Int16).toInt32 = 0 := rfl

theorem ofInt_zero : Int32.ofInt 0 = 0 := rfl

end Int32

end Machine
