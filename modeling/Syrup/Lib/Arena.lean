import Mathlib.Tactic

/-!
# Arenas

A program gets resources one after the other, and gives each back. In an *arena* the resources are numbered
in the order in which they are got; there are those that are held, and those that have been given back.
The arena is *kept* if every resource that has been got is held, or has been given back, once
(`Arena.Kept`).

The resources that are held may belong to several owners, at most one to each (`Owned`).
-/

/-- An arena: the resources that are held, those that have been given back, and the next one. -/
structure Arena where
  live : List ℕ
  gone : List ℕ
  next : ℕ

namespace Arena

variable (a : Arena)

/-- Nothing has been got. -/
def empty : Arena := ⟨[], [], 0⟩

/-- The next resource is got. -/
def alloc : Arena := { a with live := a.next :: a.live, next := a.next + 1 }

/-- A resource is given back. -/
def release (r : ℕ) : Arena := { a with live := a.live.erase r, gone := r :: a.gone }

/-- Every resource that has been got is held once, or has been given back once. -/
def Kept : Prop := (a.gone ++ a.live).Perm (List.range a.next)

variable {a}

theorem kept_empty : empty.Kept := List.Perm.refl []

namespace Kept

theorem nodup (h : a.Kept) : a.live.Nodup :=
  (List.nodup_append.1 (h.nodup_iff.2 List.nodup_range)).2.1

theorem lt (h : a.Kept) {r : ℕ} (hr : r ∈ a.live) : r < a.next :=
  List.mem_range.1 (h.subset (List.mem_append_right _ hr))

theorem next_not_mem (h : a.Kept) : a.next ∉ a.live := fun hmem => lt_irrefl _ (h.lt hmem)

theorem alloc (h : a.Kept) : a.alloc.Kept := by
  rw [Kept, Arena.alloc, List.range_succ]
  exact (List.perm_middle.trans (List.Perm.cons _ h)).trans (List.perm_append_singleton _ _).symm

theorem release (h : a.Kept) {r : ℕ} (hr : r ∈ a.live) : (a.release r).Kept := by
  rw [Kept, Arena.release, List.cons_append]
  exact (List.perm_middle.symm.trans
    (List.Perm.append_left a.gone (List.perm_cons_erase hr).symm)).trans h

/-- It does not matter in which order the resources are listed. -/
theorem perm (h : a.Kept) {live : List ℕ} (hlive : live.Perm a.live) :
    Kept { a with live := live } :=
  (List.Perm.append_left a.gone hlive).trans h

end Kept

end Arena

/-! ## Owners -/

section Owned

variable {N : Type*} {own : N → Option ℕ} {live : List ℕ} {n : N} {r : ℕ}

/-- What is held belongs to an owner each. -/
structure Owned (own : N → Option ℕ) (live : List ℕ) : Prop where
  mem : ∀ r, r ∈ live ↔ ∃ n, own n = some r
  ext : ∀ n m r, own n = some r → own m = some r → n = m

namespace Owned

theorem empty : Owned (fun _ : N => none) [] := ⟨fun _ => by simp, nofun⟩

theorem perm {live' : List ℕ} (h : Owned own live) (hlive : live'.Perm live) : Owned own live' :=
  ⟨fun r => hlive.mem_iff.trans (h.mem r), h.ext⟩

variable [DecidableEq N]

/-- Somebody gets something. -/
theorem take (h : Owned own live) (hn : own n = none) (hr : r ∉ live) :
    Owned (Function.update own n (some r)) (r :: live) := by
  refine ⟨fun r' => ?_, fun m m' r' hm hm' => ?_⟩
  · rw [List.mem_cons]
    constructor
    · rintro (rfl | hr')
      · exact ⟨n, Function.update_self ..⟩
      · obtain ⟨m, hm⟩ := (h.mem r').1 hr'
        refine ⟨m, ?_⟩
        rwa [Function.update_of_ne]
        rintro rfl
        cases hn.symm.trans hm
    · rintro ⟨m, hm⟩
      rcases eq_or_ne m n with rfl | hne
      · rw [Function.update_self] at hm
        exact .inl (Option.some.inj hm).symm
      · rw [Function.update_of_ne hne] at hm
        exact .inr ((h.mem r').2 ⟨m, hm⟩)
  · by_cases hmn : m = n <;> by_cases hmn' : m' = n
    · rw [hmn, hmn']
    · rw [hmn, Function.update_self] at hm
      rw [Function.update_of_ne hmn'] at hm'
      obtain rfl := Option.some.inj hm
      exact absurd ((h.mem r).2 ⟨m', hm'⟩) hr
    · rw [hmn', Function.update_self] at hm'
      rw [Function.update_of_ne hmn] at hm
      obtain rfl := Option.some.inj hm'
      exact absurd ((h.mem r).2 ⟨m, hm⟩) hr
    · rw [Function.update_of_ne hmn] at hm
      rw [Function.update_of_ne hmn'] at hm'
      exact h.ext m m' r' hm hm'

/-- Somebody gives back what he has. -/
theorem give (h : Owned own live) (hlive : live.Nodup) (hn : own n = some r) :
    Owned (Function.update own n none) (live.erase r) := by
  refine ⟨fun r' => ?_, fun m m' r' hm hm' => ?_⟩
  · rw [hlive.mem_erase_iff, h.mem]
    constructor
    · rintro ⟨hne, m, hm⟩
      refine ⟨m, ?_⟩
      rwa [Function.update_of_ne]
      rintro rfl
      exact hne (Option.some.inj (hm.symm.trans hn))
    · rintro ⟨m, hm⟩
      rcases eq_or_ne m n with rfl | hne
      · rw [Function.update_self] at hm
        cases hm
      · rw [Function.update_of_ne hne] at hm
        refine ⟨?_, m, hm⟩
        rintro rfl
        exact hne (h.ext m n r' hm hn)
  · have hother (k : N) (hk : Function.update own n none k = some r') : own k = some r' := by
      rcases eq_or_ne k n with rfl | hne
      · rw [Function.update_self] at hk
        cases hk
      · rwa [Function.update_of_ne hne] at hk
    exact h.ext m m' r' (hother m hm) (hother m' hm')

/-- Somebody hands over what he has. -/
theorem move {m : N} (h : Owned own live) (hlive : live.Nodup) (hn : own n = some r)
    (hm : own m = none) : Owned (Function.update (Function.update own m (some r)) n none) live := by
  have hne : m ≠ n := by
    rintro rfl
    cases hn.symm.trans hm
  have hm' : Function.update own n none m = none := by rwa [Function.update_of_ne hne]
  have hr : r ∉ live.erase r := fun hmem => (hlive.mem_erase_iff.1 hmem).1 rfl
  rw [Function.update_comm hne]
  exact ((h.give hlive hn).take hm' hr).perm (List.perm_cons_erase ((h.mem r).2 ⟨n, hn⟩))

end Owned

end Owned
