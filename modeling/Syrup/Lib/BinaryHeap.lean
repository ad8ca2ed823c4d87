import Mathlib.Tactic

/-!
# Binary heaps

The keys of a binary heap are a function `k` on its first `n` places, the children of the place `i`
being `2 * i + 1` and `2 * i + 2`; they are ordered if no key is less than that of its parent
(`Ordered`).

While a key is sifted down, only the children of its place may be out of order (`DownAt`); while it is
sifted up, only the place itself (`UpAt`). A swap with the lesser child, or with the parent, moves the
disorder one place on (`DownAt.swap`, `UpAt.swap`), and where there is nothing to swap the keys are
ordered.
-/

namespace BinaryHeap

variable {α : Type*} [LinearOrder α] {k : ℕ → α} {n i : ℕ}

/-- The parent of a place. -/
def parent (i : ℕ) : ℕ := (i - 1) / 2

theorem parent_lt (hi : 0 < i) : parent i < i := by
  rw [parent]
  omega

theorem parent_eq_iff {j : ℕ} (hj : 0 < j) : parent j = i ↔ j = i * 2 + 1 ∨ j = i * 2 + 2 := by
  rw [parent]
  omega

/-- No key is less than that of its parent. -/
def Ordered (k : ℕ → α) (n : ℕ) : Prop := ∀ j, 0 < j → j < n → k (parent j) ≤ k j

/-- Only the children of a place may be less than it. -/
structure DownAt (k : ℕ → α) (n i : ℕ) : Prop where
  others : ∀ j, 0 < j → j < n → parent j ≠ i → k (parent j) ≤ k j
  grand : ∀ j, 0 < j → j < n → parent j = i → 0 < i → k (parent i) ≤ k j

/-- Only a place itself may be less than its parent. -/
structure UpAt (k : ℕ → α) (n i : ℕ) : Prop where
  others : ∀ j, 0 < j → j < n → j ≠ i → k (parent j) ≤ k j
  grand : ∀ j, 0 < j → j < n → parent j = i → 0 < i → k (parent i) ≤ k j

/-- Places that are not there do not matter. -/
theorem Ordered.mono {m : ℕ} (h : Ordered k n) (hm : m ≤ n) : Ordered k m :=
  fun j hj hlt => h j hj (hlt.trans_le hm)

/-- The order is about the keys of the heap only. -/
theorem Ordered.congr {k' : ℕ → α} (h : Ordered k n) (hk : ∀ j < n, k' j = k j) : Ordered k' n := by
  intro j hj hlt
  rw [hk j hlt, hk _ ((parent_lt hj).trans hlt)]
  exact h j hj hlt

theorem DownAt.congr {k' : ℕ → α} (h : DownAt k n i) (hi : i < n) (hk : ∀ j < n, k' j = k j) :
    DownAt k' n i := by
  refine ⟨fun j hj hlt hp => ?_, fun j hj hlt hp hpos => ?_⟩
  · rw [hk j hlt, hk _ ((parent_lt hj).trans hlt)]
    exact h.others j hj hlt hp
  · rw [hk j hlt, hk _ ((parent_lt hpos).trans hi)]
    exact h.grand j hj hlt hp hpos

theorem UpAt.congr {k' : ℕ → α} (h : UpAt k n i) (hi : i < n) (hk : ∀ j < n, k' j = k j) :
    UpAt k' n i := by
  refine ⟨fun j hj hlt hne => ?_, fun j hj hlt hp hpos => ?_⟩
  · rw [hk j hlt, hk _ ((parent_lt hj).trans hlt)]
    exact h.others j hj hlt hne
  · rw [hk j hlt, hk _ ((parent_lt hpos).trans hi)]
    exact h.grand j hj hlt hp hpos

/-! ## Down -/

theorem DownAt.swap (h : DownAt k n i) {c : ℕ} (hc : 0 < c) (hcn : c < n) (hp : parent c = i)
    (hle : k c ≤ k i) (hleast : ∀ j, 0 < j → j < n → parent j = i → k c ≤ k j) :
    DownAt (k ∘ Equiv.swap i c) n c := by
  have hic : i < c := hp ▸ parent_lt hc
  have hi : (k ∘ Equiv.swap i c) i = k c := congrArg k (Equiv.swap_apply_left i c)
  have hcc : (k ∘ Equiv.swap i c) c = k i := congrArg k (Equiv.swap_apply_right i c)
  have hother {j : ℕ} (hji : j ≠ i) (hjc : j ≠ c) : (k ∘ Equiv.swap i c) j = k j :=
    congrArg k (Equiv.swap_apply_of_ne_of_ne hji hjc)
  refine ⟨fun j hj hjn hpj => ?_, fun j hj hjn hpj _ => ?_⟩
  · rcases eq_or_ne j c with rfl | hjc
    · rw [hp, hi, hcc]
      exact hle
    rcases eq_or_ne (parent j) i with hji | hji
    · have hne : j ≠ i := fun he => by
        rw [he] at hji hj
        exact absurd hji (parent_lt hj).ne
      rw [hji, hi, hother hne hjc]
      exact hleast j hj hjn hji
    · rw [hother hji hpj]
      rcases eq_or_ne j i with rfl | hne
      · rw [hi]
        exact h.grand c hc hcn hp hj
      · rw [hother hne hjc]
        exact h.others j hj hjn hji
  · have hcj : c < j := hpj ▸ parent_lt hj
    rw [hp, hi, hother (hic.trans hcj).ne' hcj.ne', ← hpj]
    exact h.others j hj hjn (by rw [hpj]; exact hic.ne')

/-- Nothing is out of order any more. -/
theorem DownAt.ordered (h : DownAt k n i)
    (hle : ∀ j, 0 < j → j < n → parent j = i → k i ≤ k j) : Ordered k n := by
  intro j hj hjn
  rcases eq_or_ne (parent j) i with hji | hji
  · rw [hji]
    exact hle j hj hjn hji
  · exact h.others j hj hjn hji

/-- A key is made greater, or the one at the top is changed. -/
theorem Ordered.downAt (h : Ordered k n) {x : α} (hx : i = 0 ∨ k i ≤ x) :
    DownAt (Function.update k i x) n i := by
  refine ⟨fun j hj hjn hp => ?_, fun j hj hjn hp hi => ?_⟩
  · rw [Function.update_of_ne hp]
    rcases eq_or_ne j i with rfl | hne
    · rw [Function.update_self]
      exact (h j hj hjn).trans (hx.resolve_left hj.ne')
    · rw [Function.update_of_ne hne]
      exact h j hj hjn
  · have hij : i < j := hp ▸ parent_lt hj
    rw [Function.update_of_ne (parent_lt hi).ne, Function.update_of_ne hij.ne']
    have hik : k i ≤ k j := hp ▸ h j hj hjn
    exact (h i hi (hij.trans hjn)).trans hik

/-! ## Up -/

theorem UpAt.swap (h : UpAt k n i) (hi : 0 < i) (hin : i < n) (hlt : k i ≤ k (parent i)) :
    UpAt (k ∘ Equiv.swap (parent i) i) n (parent i) := by
  have hpi := parent_lt hi
  have hp : (k ∘ Equiv.swap (parent i) i) (parent i) = k i := congrArg k (Equiv.swap_apply_left ..)
  have hii : (k ∘ Equiv.swap (parent i) i) i = k (parent i) := congrArg k (Equiv.swap_apply_right ..)
  have hother {j : ℕ} (hjp : j ≠ parent i) (hji : j ≠ i) :
      (k ∘ Equiv.swap (parent i) i) j = k j := congrArg k (Equiv.swap_apply_of_ne_of_ne hjp hji)
  refine ⟨fun j hj hjn hjp => ?_, fun j hj hjn hjp hpos => ?_⟩
  · rcases eq_or_ne j i with rfl | hji
    · rw [hp, hii]
      exact hlt
    rw [hother hjp hji]
    rcases eq_or_ne (parent j) (parent i) with hpp | hpp
    · rw [hpp, hp]
      have hle := h.others j hj hjn hji
      rw [hpp] at hle
      exact hlt.trans hle
    rcases eq_or_ne (parent j) i with hpj | hpj
    · rw [hpj, hii]
      exact h.grand j hj hjn hpj hi
    · rw [hother hpp hpj]
      exact h.others j hj hjn hji
  · have hpar : k (parent (parent i)) ≤ k (parent i) :=
      h.others (parent i) hpos (hpi.trans hin) hpi.ne
    rw [hother (parent_lt hpos).ne ((parent_lt hpos).trans hpi).ne]
    rcases eq_or_ne j i with rfl | hji
    · rw [hii]
      exact hpar
    · have hjne : j ≠ parent i := fun he => by
        rw [he] at hjp
        exact absurd hjp (parent_lt hpos).ne
      rw [hother hjne hji]
      have hle := h.others j hj hjn hji
      rw [hjp] at hle
      exact hpar.trans hle

/-- Nothing is out of order any more. -/
theorem UpAt.ordered (h : UpAt k n i) (hle : 0 < i → i < n → k (parent i) ≤ k i) : Ordered k n := by
  intro j hj hjn
  rcases eq_or_ne j i with rfl | hne
  · exact hle hj hjn
  · exact h.others j hj hjn hne

/-- A key is put into a new place at the end. -/
theorem Ordered.upAt (h : Ordered k n) (x : α) : UpAt (Function.update k n x) (n + 1) n := by
  refine ⟨fun j hj hjn hne => ?_, fun j hj hjn hp hn => ?_⟩
  · have hlt : j < n := by omega
    rw [Function.update_of_ne hne, Function.update_of_ne ((parent_lt hj).trans hlt).ne]
    exact h j hj hlt
  · have hnj : n < j := hp ▸ parent_lt hj
    omega

/-! ## Removal -/

/-- The last key takes the place of another one, which is less than its new parent or not. -/
theorem Ordered.remove (h : Ordered k (n + 1)) (hi : i < n) :
    (i = 0 ∨ k (parent i) < k n → DownAt (Function.update k i (k n)) n i) ∧
      (¬(i = 0 ∨ k (parent i) < k n) → UpAt (Function.update k i (k n)) n i) := by
  have hothers {j : ℕ} (hj : 0 < j) (hjn : j < n) (hji : j ≠ i) (hpj : parent j ≠ i) :
      Function.update k i (k n) (parent j) ≤ Function.update k i (k n) j := by
    rw [Function.update_of_ne hji, Function.update_of_ne hpj]
    exact h j hj (by omega)
  have hgrand {j : ℕ} (hj : 0 < j) (hjn : j < n) (hp : parent j = i) (hpos : 0 < i) :
      Function.update k i (k n) (parent i) ≤ Function.update k i (k n) j := by
    have hij : i < j := hp ▸ parent_lt hj
    rw [Function.update_of_ne (parent_lt hpos).ne, Function.update_of_ne hij.ne']
    have hik : k i ≤ k j := hp ▸ h j hj (by omega)
    exact (h i hpos (by omega)).trans hik
  constructor
  · intro hdown
    refine ⟨fun j hj hjn hp => ?_, fun j hj hjn hp hpos => hgrand hj hjn hp hpos⟩
    rcases eq_or_ne j i with rfl | hji
    · rw [Function.update_self, Function.update_of_ne hp]
      exact (hdown.resolve_left hj.ne').le
    · exact hothers hj hjn hji hp
  · intro hup
    rw [not_or, not_lt] at hup
    refine ⟨fun j hj hjn hji => ?_, fun j hj hjn hp hpos => hgrand hj hjn hp hpos⟩
    rcases eq_or_ne (parent j) i with hp | hp
    · -- The children are not less than what was there, and so not less than what is there.
      have hij : i < j := hp ▸ parent_lt hj
      have hik : k i ≤ k j := hp ▸ h j hj (by omega)
      rw [hp, Function.update_self, Function.update_of_ne hji]
      exact hup.2.trans ((h i (Nat.pos_of_ne_zero hup.1) (by omega)).trans hik)
    · exact hothers hj hjn hji hp

end BinaryHeap
