import Mathlib.Data.Fintype.BigOperators
import Mathlib.Tactic

/-!
# Probing a ring

The indices `0, …, n - 1` of an open-addressing table, visited one after the
other from some index on, wrapping around at the end: `next` is the step,
`dist i j` the number of steps from `i` to `j`, and `probe p fuel i` the loop
`while (!p(i)) i = next(i)`, given up after `fuel` indices.

With as much fuel as there are indices, the probe gives up only when no index
satisfies `p` (`probe_eq_none_iff`): as a `while` loop, it would then run for
ever.
-/

namespace Probe

variable {n : ℕ}

/-- The index after `i`, wrapping around. -/
def next (i : Fin n) : Fin n := ⟨(i.val + 1) % n, Nat.mod_lt _ i.pos⟩

theorem next_iterate_val (i : Fin n) (k : ℕ) : (next^[k] i).val = (i.val + k) % n := by
  induction k with
  | zero => simp [Nat.mod_eq_of_lt i.isLt]
  | succ k ih =>
    rw [Function.iterate_succ_apply', next]
    simp only [ih, Nat.mod_add_mod]
    rw [Nat.add_assoc]

/-- The number of steps from `i` to `j`. -/
def dist (i j : Fin n) : ℕ := (j.val + n - i.val) % n

theorem dist_lt (i j : Fin n) : dist i j < n := Nat.mod_lt _ i.pos

theorem next_iterate_dist (i j : Fin n) : next^[dist i j] i = j := by
  refine Fin.ext ?_
  rw [next_iterate_val, dist, Nat.add_mod_mod]
  rw [show i.val + (j.val + n - i.val) = j.val + n by omega, Nat.add_mod_right,
    Nat.mod_eq_of_lt j.isLt]

theorem dist_next_iterate (i : Fin n) {k : ℕ} (hk : k < n) : dist i (next^[k] i) = k := by
  rw [dist, next_iterate_val]
  rcases Nat.lt_or_ge (i.val + k) n with h | h
  · rw [Nat.mod_eq_of_lt h, show i.val + k + n - i.val = k + n by omega, Nat.add_mod_right,
      Nat.mod_eq_of_lt hk]
  · have hi := i.isLt
    rw [Nat.mod_eq_sub_mod h, Nat.mod_eq_of_lt (a := i.val + k - n) (by omega),
      show i.val + k - n + n - i.val = k by omega, Nat.mod_eq_of_lt hk]

/-- The loop `while (!p(i)) i = next(i)`, given up after `fuel` indices. -/
def probe (p : Fin n → Bool) : ℕ → Fin n → Option (Fin n)
  | 0, _ => none
  | fuel + 1, i => if p i then some i else probe p fuel (next i)

/-- A probe that ends does so at the first index that satisfies `p`. -/
theorem probe_eq_some {p : Fin n → Bool} {fuel : ℕ} {i j : Fin n}
    (h : probe p fuel i = some j) :
    p j = true ∧ ∃ k < fuel, next^[k] i = j ∧ ∀ m < k, p (next^[m] i) = false := by
  induction fuel generalizing i with
  | zero => cases h
  | succ fuel ih =>
    rw [probe] at h
    split at h
    · rename_i hp
      cases h
      exact ⟨hp, 0, Nat.succ_pos _, rfl, fun m hm => absurd hm (Nat.not_lt_zero m)⟩
    · rename_i hp
      obtain ⟨hj, k, hk, hkj, hm⟩ := ih h
      refine ⟨hj, k + 1, Nat.succ_lt_succ hk, hkj, fun m hmk => ?_⟩
      cases m with
      | zero => simpa using hp
      | succ m => exact hm m (Nat.lt_of_succ_lt_succ hmk)

theorem probe_eq_none {p : Fin n → Bool} {fuel : ℕ} {i : Fin n} (h : probe p fuel i = none) :
    ∀ k < fuel, p (next^[k] i) = false := by
  induction fuel generalizing i with
  | zero => exact fun k hk => absurd hk (Nat.not_lt_zero k)
  | succ fuel ih =>
    rw [probe] at h
    split at h
    · cases h
    · rename_i hp
      intro k hk
      cases k with
      | zero => simpa using hp
      | succ k => exact ih h k (Nat.lt_of_succ_lt_succ hk)

/-- A full probe ends at the index satisfying `p` that is closest. -/
theorem probe_full {p : Fin n → Bool} {i j : Fin n} (h : probe p n i = some j) :
    p j = true ∧ ∀ m < dist i j, p (next^[m] i) = false := by
  obtain ⟨hj, k, hk, rfl, hm⟩ := probe_eq_some h
  exact ⟨hj, by rwa [dist_next_iterate i hk]⟩

/-- A full probe gives up only when no index satisfies `p`. -/
theorem probe_eq_none_iff {p : Fin n → Bool} {i : Fin n} :
    probe p n i = none ↔ ∀ j, p j = false := by
  constructor
  · intro h j
    have := probe_eq_none h (dist i j) (dist_lt i j)
    rwa [next_iterate_dist] at this
  · intro h
    rcases hp : probe p n i with _ | j
    · rfl
    · have hj := (probe_full hp).1
      simp [h j] at hj

/-- A full probe ends when some index satisfies `p`. -/
theorem exists_probe {p : Fin n → Bool} (i : Fin n) {j : Fin n} (hj : p j = true) :
    ∃ j', probe p n i = some j' := by
  rcases hp : probe p n i with _ | j'
  · simp [probe_eq_none_iff.1 hp j] at hj
  · exact ⟨j', rfl⟩

/-- A chain from `i` to `j`: the indices passed on the way from `i` to `j`
    satisfy `q`. -/
def Chain (q : Fin n → Prop) (i j : Fin n) : Prop := ∀ m < dist i j, q (next^[m] i)

/-- Where a chain leads, a probe for a target no index on the chain can block
    gets: if every index of the chain goes on until `p` and `j` satisfies `p`,
    the probe ends on the chain. -/
theorem probe_chain {p : Fin n → Bool} {q : Fin n → Prop} {i j j' : Fin n}
    (hc : Chain q i j) (hj : p j = true) (h : probe p n i = some j') : j' = j ∨ q j' := by
  obtain ⟨_, k, hk, rfl, hm⟩ := probe_eq_some h
  rcases Nat.lt_trichotomy k (dist i j) with hlt | heq | hgt
  · exact .inr (hc k hlt)
  · exact .inl (heq ▸ next_iterate_dist i j)
  · have := hm _ hgt
    rw [next_iterate_dist, hj] at this
    cases this

end Probe
