import Mathlib.Tactic

/-!
# Free ids

Ids that are handed out and given back. Those that have been given back are on a stack, and are handed
out again from its top; if it is empty, the number of ids in use is handed out.

What is on the stack and what is in use are together the first ids, each once (`Balanced`). So an id
that is handed out is not in use (`Balanced.next_not_mem`), and there are never more ids than there
have been in use at a time.
-/

namespace FreeIds

/-- The id that is handed out next, if `count` ids are in use. -/
def next (free : List ℕ) (count : ℕ) : ℕ := free.head?.getD count

/-- The free ids and those in use are the first ones, each once. -/
def Balanced (free : List ℕ) (used : Multiset ℕ) : Prop :=
  (free : Multiset ℕ) + used = Multiset.range (free.length + used.card)

variable {free : List ℕ} {used : Multiset ℕ} {a : ℕ}

theorem balanced_nil : Balanced [] 0 := rfl

namespace Balanced

theorem lt (h : Balanced free used) (ha : a ∈ used) : a < free.length + used.card := by
  rw [← Multiset.mem_range, ← h]
  exact Multiset.mem_add.2 (.inr ha)

theorem next_lt (h : Balanced free used) :
    next free used.card < max (free.length + used.card) (used.card + 1) := by
  cases free with
  | nil => exact lt_max_of_lt_right (Nat.lt_succ_self _)
  | cons a free =>
    refine lt_max_of_lt_left ?_
    rw [← Multiset.mem_range, ← h]
    exact Multiset.mem_add.2 (.inl (Multiset.mem_coe.2 List.mem_cons_self))

/-- An id that is handed out is not in use. -/
theorem next_not_mem (h : Balanced free used) : next free used.card ∉ used := by
  cases free with
  | nil =>
    intro ha
    have := h.lt ha
    rw [List.length_nil, zero_add] at this
    exact lt_irrefl _ this
  | cons a free =>
    have hnodup : ((a :: free : List ℕ) + used : Multiset ℕ).Nodup := h ▸ Multiset.nodup_range _
    exact Multiset.disjoint_left.1 (Multiset.nodup_add.1 hnodup).2.2
      (Multiset.mem_coe.2 List.mem_cons_self)

/-- An id is handed out. -/
theorem take (h : Balanced free used) : Balanced free.tail (next free used.card ::ₘ used) := by
  cases free with
  | nil =>
    rw [Balanced, Multiset.coe_nil, zero_add, List.length_nil, zero_add] at h
    change Balanced [] (used.card ::ₘ used)
    rw [Balanced, Multiset.coe_nil, zero_add, List.length_nil, zero_add, Multiset.card_cons,
      Multiset.range_succ, ← h]
  | cons a free =>
    change Balanced free (a ::ₘ used)
    rw [Balanced, ← Multiset.cons_coe, List.length_cons] at h
    rw [Balanced, Multiset.add_cons, Multiset.card_cons, ← Multiset.cons_add, h]
    congr 1
    omega

/-- An id is given back. -/
theorem give (h : Balanced free (a ::ₘ used)) : Balanced (a :: free) used := by
  rw [Balanced, Multiset.card_cons, Multiset.add_cons] at h
  rw [Balanced, ← Multiset.cons_coe, Multiset.cons_add, h, List.length_cons]
  congr 1
  omega

end Balanced

end FreeIds
