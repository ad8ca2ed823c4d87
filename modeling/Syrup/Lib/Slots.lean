import Mathlib.Data.Fintype.BigOperators
import Mathlib.Tactic

/-!
# Slots

Slots are places `ι` each of which is empty or holds one value: `ι → Option α`.
What they hold together is a multiset, their `contents`; a quantity spread
over them is a sum over the filled slots, `weigh`.

Everything is said once about `weigh`, for weights in a commutative monoid with
cancellation: emptying, filling and rewriting a slot (`weigh_update`), swapping
two slots (`weigh_swap`), rewriting a slot of each of two families
(`weigh_update_add_iff`). The contents are the weight `{·}` in the multisets
(`contents_eq_weigh`), so every rule is also a rule about contents.
-/

namespace Slots

variable {ι κ α M : Type*} [Fintype ι] [DecidableEq ι] [Fintype κ] [DecidableEq κ]

section AddCommMonoid

variable [AddCommMonoid M]

/-- The weight of one slot. -/
def one (w : α → M) (o : Option α) : M := o.elim 0 w

@[simp] theorem one_none (w : α → M) : one w none = 0 := rfl

@[simp] theorem one_some (w : α → M) (a : α) : one w (some a) = w a := rfl

/-- The sum of a weight over the filled slots. -/
def weigh (w : α → M) (v : ι → Option α) : M := ∑ i, one w (v i)

/-- What the slots hold. -/
def contents (v : ι → Option α) : Multiset α := weigh (fun a => {a}) v

omit [DecidableEq ι] in
theorem contents_eq_weigh (v : ι → Option α) : contents v = weigh (fun a => {a}) v := rfl

omit [DecidableEq ι] in
theorem mem_contents {v : ι → Option α} {a : α} : a ∈ contents v ↔ ∃ i, v i = some a := by
  rw [contents, weigh, Multiset.mem_sum]
  constructor
  · rintro ⟨i, _, h⟩
    cases hv : v i with
    | none => rw [hv] at h; simp at h
    | some b =>
      rw [hv, one_some, Multiset.mem_singleton] at h
      exact ⟨i, h ▸ hv⟩
  · rintro ⟨i, hi⟩
    exact ⟨i, Finset.mem_univ i, by simp [hi]⟩

/-- Rewriting one slot exchanges its weight. -/
theorem weigh_update (w : α → M) (v : ι → Option α) (i : ι) (o : Option α) :
    weigh w (Function.update v i o) + one w (v i) = weigh w v + one w o := by
  have h : (fun j => one w (Function.update v i o j)) =
      Function.update (fun j => one w (v j)) i (one w o) := by
    funext j
    by_cases hj : j = i
    · subst hj; simp
    · simp [Function.update_of_ne hj]
  rw [weigh, weigh, h, Finset.sum_update_of_mem (Finset.mem_univ i),
    ← Finset.add_sum_erase Finset.univ _ (Finset.mem_univ i), Finset.sdiff_singleton_eq_erase]
  abel

/-- Filling an empty slot adds the weight of what it is filled with. -/
theorem weigh_fill (w : α → M) {v : ι → Option α} {i : ι} (hi : v i = none) (a : α) :
    weigh w (Function.update v i (some a)) = weigh w v + w a := by
  simpa [hi] using weigh_update w v i (some a)

/-- Emptying a slot takes away the weight of what it held. -/
theorem weigh_empty (w : α → M) {v : ι → Option α} {i : ι} {a : α} (hi : v i = some a) :
    weigh w (Function.update v i none) + w a = weigh w v := by
  simpa [hi] using weigh_update w v i none

/-- Swapping two slots keeps every weight. -/
theorem weigh_swap (w : α → M) (v : ι → Option α) (i j : ι) :
    weigh w (v ∘ Equiv.swap i j) = weigh w v :=
  Equiv.sum_comp (Equiv.swap i j) fun k => one w (v k)

end AddCommMonoid

section Cancel

variable [AddCancelCommMonoid M]

/-- Rewriting one slot of each of two families keeps the weight of the families together
    exactly when what is written weighs as much as what was there. -/
theorem weigh_update_add_iff (w : α → M) (v : ι → Option α) (u : κ → Option α) (i : ι) (j : κ)
    (o o' : Option α) :
    weigh w (Function.update v i o) + weigh w (Function.update u j o') =
        weigh w v + weigh w u ↔
      one w o + one w o' = one w (v i) + one w (u j) := by
  have h₁ := weigh_update w v i o
  have h₂ := weigh_update w u j o'
  -- Both sums with both weights are the same sum.
  have h : weigh w (Function.update v i o) + weigh w (Function.update u j o') +
      (one w (v i) + one w (u j)) = weigh w v + weigh w u + (one w o + one w o') := by
    rw [add_add_add_comm, h₁, h₂, add_add_add_comm]
  constructor
  · intro he
    rw [he] at h
    exact (add_left_cancel h).symm
  · intro he
    rw [he] at h
    exact add_right_cancel h

end Cancel

section AddCommGroup

variable [AddCommGroup M]

/-- Rewriting one slot changes a weight by the difference of its weights. -/
theorem weigh_update_eq (w : α → M) (v : ι → Option α) (i : ι) (o : Option α) :
    weigh w (Function.update v i o) = weigh w v - one w (v i) + one w o := by
  have h := weigh_update w v i o
  rw [← eq_sub_iff_add_eq] at h
  rw [h]
  abel

end AddCommGroup

end Slots
