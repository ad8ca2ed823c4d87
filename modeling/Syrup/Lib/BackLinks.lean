import Mathlib.Tactic

/-!
# Back links

Things `κ` that are in places `π`, where each thing knows its place (`back`) and each place holds a
thing (`slot`). The two are linked if they tell the same (`Linked`).

A thing is put into a place, is taken out of it, moves, or takes the place of another one; each time
both sides have to be written to, and `Linked` says what to write.

The places are often those of lists which holders `ρ` have: the place `(r, j)` holds what is at `j` in
the list of `r` (`held`).
-/

namespace BackLinks

variable {κ π ρ α : Type*}

/-- What the things know of their places is what the places hold. -/
def Linked (back : κ → Option π) (slot : π → Option κ) : Prop :=
  ∀ x p, back x = some p ↔ slot p = some x

/-! ## Linked places -/

namespace Linked

variable {back back' : κ → Option π} {slot slot' : π → Option κ} {x y : κ} {p q : π}

theorem symm (h : Linked back slot) : Linked slot back := fun p x => (h x p).symm

/-- A place holds one thing. -/
theorem ext (h : Linked back slot) (hx : back x = some p) (hy : back y = some p) : x = y := by
  rw [h] at hx hy
  exact Option.some.inj (hx.symm.trans hy)

theorem empty : Linked (fun _ : κ => (none : Option π)) fun _ => none := fun _ _ => by simp

/-- A thing that is nowhere is put into a place that holds nothing. -/
theorem put [DecidableEq κ] [DecidableEq π] (h : Linked back slot) (hx : back x = none)
    (hp : slot p = none) :
    Linked (Function.update back x (some p)) (Function.update slot p (some x)) := by
  intro y q
  by_cases hy : y = x
  · rw [hy, Function.update_self]
    by_cases hq : q = p
    · rw [hq, Function.update_self]
      exact iff_of_true rfl rfl
    · rw [Function.update_of_ne hq, ← h, hx]
      exact iff_of_false (fun e => hq (Option.some.inj e).symm) nofun
  · rw [Function.update_of_ne hy]
    by_cases hq : q = p
    · rw [hq, Function.update_self, h, hp]
      exact iff_of_false nofun fun e => hy (Option.some.inj e).symm
    · rw [Function.update_of_ne hq]
      exact h y q

/-- A thing is taken out of its place. -/
theorem take [DecidableEq κ] [DecidableEq π] (h : Linked back slot) (hx : back x = some p) :
    Linked (Function.update back x none) (Function.update slot p none) := by
  intro y q
  by_cases hy : y = x
  · rw [hy, Function.update_self]
    refine iff_of_false nofun fun e => ?_
    by_cases hq : q = p
    · rw [hq, Function.update_self] at e
      cases e
    · rw [Function.update_of_ne hq, ← h, hx] at e
      exact hq (Option.some.inj e).symm
  · rw [Function.update_of_ne hy]
    by_cases hq : q = p
    · rw [hq, Function.update_self]
      exact iff_of_false (fun e => hy (h.ext e hx)) nofun
    · rw [Function.update_of_ne hq]
      exact h y q

/-- A thing moves to a place that holds nothing. -/
theorem move [DecidableEq κ] [DecidableEq π] (h : Linked back slot) (hx : back x = some p)
    (hq : slot q = none) :
    Linked (Function.update back x (some q))
      (Function.update (Function.update slot p none) q (some x)) := by
  have hq' : Function.update slot p none q = none := by
    by_cases he : q = p
    · rw [he, Function.update_self]
    · rw [Function.update_of_ne he, hq]
  have hmove := (h.take hx).put (Function.update_self ..) hq'
  rwa [Function.update_idem] at hmove

/-- The thing in another place takes the place of one that is taken out. -/
theorem fill [DecidableEq κ] [DecidableEq π] (h : Linked back slot) (hx : back x = some p)
    (hy : back y = some q) :
    Linked (Function.update (Function.update back y (some p)) x none)
      (Function.update (Function.update slot p (some y)) q none) := by
  by_cases hxy : y = x
  · subst hxy
    obtain rfl := Option.some.inj (hx.symm.trans hy)
    rw [Function.update_idem, Function.update_idem]
    exact h.take hx
  · have hpq : p ≠ q := by
      rintro rfl
      exact hxy (h.ext hy hx)
    have hmove := (h.take hx).move ((Function.update_of_ne hxy ..).trans hy) (Function.update_self ..)
    rw [Function.update_comm (Ne.symm hxy), Function.update_comm hpq, Function.update_idem] at hmove
    rwa [Function.update_comm hpq]

/-- All things are moved from places to others. -/
theorem relocate (h : Linked back slot) (f : π → π) (hback : ∀ x, back' x = (back x).map f)
    (hslot : ∀ q x, slot' q = some x ↔ ∃ p, slot p = some x ∧ f p = q) : Linked back' slot' := by
  intro x q
  rw [hback, hslot, Option.map_eq_some_iff]
  exact exists_congr fun p => and_congr_left fun _ => h x p

/-- Everything is taken out of some places. -/
theorem clear (h : Linked back slot) (Q : π → Prop)
    (hback : ∀ x p, back' x = some p ↔ back x = some p ∧ ¬Q p)
    (hslot : ∀ p x, slot' p = some x ↔ slot p = some x ∧ ¬Q p) : Linked back' slot' := by
  intro x p
  rw [hback, hslot, h]

end Linked

/-! ## Lists of holders -/

/-- What is in the lists of holders. -/
def held (holder : ρ → Option α) (get : α → ℕ → Option κ) (p : ρ × ℕ) : Option κ :=
  (holder p.1).bind fun a => get a p.2

variable [DecidableEq ρ] {holder : ρ → Option α} {get : α → ℕ → Option κ} {r : ρ} {a a' : α}

omit [DecidableEq ρ] in
theorem held_eq (hr : holder r = some a) (j : ℕ) : held holder get (r, j) = get a j := by
  rw [held, hr, Option.bind_some]

omit [DecidableEq ρ] in
theorem held_eq_some {p : ρ × ℕ} {x : κ} :
    held holder get p = some x ↔ ∃ a, holder p.1 = some a ∧ get a p.2 = some x :=
  Option.bind_eq_some_iff

theorem held_update (a : α) (j : ℕ) :
    held (Function.update holder r (some a)) get (r, j) = get a j :=
  held_eq (Function.update_self ..) j

theorem held_update_of_ne {r' : ρ} (hr : r' ≠ r) (o : Option α) (j : ℕ) :
    held (Function.update holder r o) get (r', j) = held holder get (r', j) := by
  rw [held, held, Function.update_of_ne hr]

/-- A list is changed at one place. -/
theorem held_set (hr : holder r = some a) {i : ℕ} {o : Option κ}
    (hget : get a' = Function.update (get a) i o) :
    held (Function.update holder r (some a')) get = Function.update (held holder get) (r, i) o := by
  funext ⟨r', j⟩
  by_cases he : r' = r
  · rw [he, held_update, hget]
    by_cases hj : j = i
    · rw [hj, Function.update_self, Function.update_self]
    · rw [Function.update_of_ne hj, Function.update_of_ne (by simpa using hj), held_eq hr]
  · rw [held_update_of_ne he, Function.update_of_ne (by simpa using fun h => absurd h he)]

/-- A list is changed at two places. -/
theorem held_set_set (hr : holder r = some a) {i j : ℕ} {o o' : Option κ}
    (hget : get a' = Function.update (Function.update (get a) i o) j o') :
    held (Function.update holder r (some a')) get =
      Function.update (Function.update (held holder get) (r, i) o) (r, j) o' := by
  funext ⟨r', k⟩
  by_cases he : r' = r
  · rw [he, held_update, hget]
    by_cases hk : k = j
    · rw [hk, Function.update_self, Function.update_self]
    · have hkr : (r, k) ≠ (r, j) := fun h => hk (Prod.mk.inj h).2
      rw [Function.update_of_ne hk, Function.update_of_ne hkr]
      by_cases hi : k = i
      · rw [hi, Function.update_self, Function.update_self]
      · have hir : (r, k) ≠ (r, i) := fun h => hi (Prod.mk.inj h).2
        rw [Function.update_of_ne hi, Function.update_of_ne hir, held_eq hr]
  · rw [held_update_of_ne he, Function.update_of_ne (by simpa using fun h => absurd h he),
      Function.update_of_ne (by simpa using fun h => absurd h he)]

/-! ## Arrays of which the first are in use -/

/-- What is in the first places of an array. -/
def firsts (count : ℕ) (items : ℕ → κ) (j : ℕ) : Option κ := if j < count then some (items j) else none

variable {count : ℕ} {items : ℕ → κ} {x : κ}

theorem firsts_eq_some {j : ℕ} : firsts count items j = some x ↔ j < count ∧ items j = x := by
  rw [firsts]
  split
  · rename_i hj
    exact Option.some_inj.trans (and_iff_right hj).symm
  · rename_i hj
    exact iff_of_false nofun fun h => hj h.1

theorem firsts_eq_none {j : ℕ} : firsts count items j = none ↔ count ≤ j := by
  rw [firsts]
  split <;> simp <;> omega

theorem firsts_of_lt {j : ℕ} (hj : j < count) : firsts count items j = some (items j) := if_pos hj

/-- Something is put behind the others. -/
theorem firsts_push : firsts (count + 1) (Function.update items count x) =
    Function.update (firsts count items) count (some x) := by
  funext j
  by_cases hj : j = count
  · rw [hj, Function.update_self, firsts_of_lt (Nat.lt_succ_self _), Function.update_self]
  · rw [Function.update_of_ne hj, firsts, firsts, Function.update_of_ne hj]
    simp only [show j < count + 1 ↔ j < count by omega]

theorem firsts_set {i : ℕ} (hi : i < count) : firsts count (Function.update items i x) =
    Function.update (firsts count items) i (some x) := by
  funext j
  by_cases hj : j = i
  · rw [hj, Function.update_self, firsts_of_lt hi, Function.update_self]
  · rw [Function.update_of_ne hj, firsts, firsts, Function.update_of_ne hj]

/-- The last one takes the place of one that is taken out. -/
theorem firsts_fill {i : ℕ} (hi : i < count) :
    firsts (count - 1) (Function.update items i (items (count - 1))) =
      Function.update (Function.update (firsts count items) i (some (items (count - 1))))
        (count - 1) none := by
  funext j
  by_cases hj : j = count - 1
  · rw [hj, Function.update_self, firsts_eq_none]
  · rw [Function.update_of_ne hj, ← firsts_set hi, firsts, firsts]
    simp only [show j < count - 1 ↔ j < count by omega]

end BackLinks
