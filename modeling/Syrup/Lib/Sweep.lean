import Mathlib.Data.Fintype.BigOperators
import Mathlib.Tactic

/-!
# Sweeps

A *sweep* is the loop `for (i in l) { ... }` over an array `ι → α` whose body
only rewrites the cell it visits, carries a state along (a quantity still to be
handed out, a list being built), and may `break`. The body may also *fault*:
a sweep that faults has no result.

* `sweep_end`, `sweep_inv`: what every step keeps holds at the end;
* `sweep_frame`: cells that are not visited are not changed;
* `sweep_count`: a sweep raises a number by no more than the number of the cells;
* `sweep_rule`: the rule for sweeps whose steps only look at their cell, and keep
  the balance of a weight of the cells against the state;
* `sweep_drain`: a sweep that hands out an amount and does not break has handed out what every
  cell takes;
* `sweep_total`: a sweep none of whose steps faults returns;
* `sweep_idle`, `sweep_fault`: a sweep whose steps do nothing leaves all as it is, and faults if one of
  them does.

The scan `firstFrom` is the loop that only looks for an index.
-/

namespace Sweep

variable {ι α σ ε : Type*} [DecidableEq ι]

/-- What a step of a sweep makes of the cell it visits: the new cell, the state
    handed on, and whether the loop is left (`break`). -/
structure Out (α σ : Type*) where
  cell : α
  state : σ
  stop : Bool

/-- The loop `for (i in l) { items[i], s = body(i, items[i], s); ... }`. -/
def sweep (body : ι → α → σ → Except ε (Out α σ)) :
    List ι → (ι → α) → σ → Except ε ((ι → α) × σ)
  | [], items, s => .ok (items, s)
  | i :: l, items, s =>
    match body i (items i) s with
    | .error e => .error e
    | .ok out =>
      if out.stop then .ok (Function.update items i out.cell, out.state)
      else sweep body l (Function.update items i out.cell) out.state

variable {body : ι → α → σ → Except ε (Out α σ)}

/-- The two ways a sweep goes on after its first step. -/
theorem sweep_cons {i : ι} {l : List ι} {items items' : ι → α} {s s' : σ}
    (h : sweep body (i :: l) items s = .ok (items', s')) :
    ∃ out, body i (items i) s = .ok out ∧
      ((out.stop = true ∧ items' = Function.update items i out.cell ∧ s' = out.state) ∨
        (out.stop = false ∧
          sweep body l (Function.update items i out.cell) out.state = .ok (items', s'))) := by
  rw [sweep] at h
  split at h
  · cases h
  · rename_i out hout
    refine ⟨out, hout, ?_⟩
    split at h
    · rename_i hs
      cases h
      exact .inl ⟨hs, rfl, rfl⟩
    · rename_i hs
      exact .inr ⟨by simpa using hs, h⟩

/-- A sweep ends as a step that breaks leaves it (`J`), or as the steps that go on keep it
    (`I`). -/
theorem sweep_end {I J : (ι → α) → σ → Prop} {l : List ι} {items items' : ι → α} {s s' : σ}
    (h : sweep body l items s = .ok (items', s'))
    (hstep : ∀ i ∈ l, ∀ items s out, I items s → body i (items i) s = .ok out →
      (out.stop = true → J (Function.update items i out.cell) out.state) ∧
        (out.stop = false → I (Function.update items i out.cell) out.state))
    (hI : I items s) : J items' s' ∨ I items' s' := by
  induction l generalizing items s with
  | nil =>
    cases h
    exact .inr hI
  | cons i l ih =>
    obtain ⟨out, hout, hend⟩ := sweep_cons h
    obtain ⟨hJ, hgo⟩ := hstep i List.mem_cons_self _ _ _ hI hout
    rcases hend with ⟨hs, rfl, rfl⟩ | ⟨hs, h⟩
    · exact .inl (hJ hs)
    · exact ih h (fun j hj => hstep j (List.mem_cons_of_mem _ hj)) (hgo hs)

/-- What every step of a sweep keeps, the sweep keeps. -/
theorem sweep_inv {P : (ι → α) → σ → Prop} {l : List ι} {items items' : ι → α} {s s' : σ}
    (h : sweep body l items s = .ok (items', s'))
    (hstep : ∀ i ∈ l, ∀ items s out, P items s → body i (items i) s = .ok out →
      P (Function.update items i out.cell) out.state)
    (hP : P items s) : P items' s' :=
  (sweep_end h (fun i hi items s out hP hout =>
    ⟨fun _ => hstep i hi items s out hP hout, fun _ => hstep i hi items s out hP hout⟩) hP).elim id id

/-- A sweep only changes the cells it visits. -/
theorem sweep_frame {l : List ι} {items items' : ι → α} {s s' : σ}
    (h : sweep body l items s = .ok (items', s')) {j : ι} (hj : j ∉ l) : items' j = items j := by
  refine sweep_inv (P := fun t _ => t j = items j) h (fun i hi t s out ht _ => ?_) rfl
  have hji : j ≠ i := fun e => hj (e ▸ hi)
  rw [Function.update_of_ne hji, ht]

section Rule

variable [Fintype ι] {M : Type*} [AddCommGroup M]

/-- Rewriting one cell changes the sum of the weights by the difference of its
    weights. -/
theorem sum_update (w : ι → α → M) (items : ι → α) (i : ι) (a : α) :
    ∑ j, w j (Function.update items i a j) = ∑ j, w j (items j) - w i (items i) + w i a := by
  have h : (fun j => w j (Function.update items i a j)) =
      Function.update (fun j => w j (items j)) i (w i a) := by
    funext j
    by_cases hj : j = i
    · subst hj; simp
    · simp [Function.update_of_ne hj]
  rw [h, Finset.sum_update_of_mem (Finset.mem_univ i),
    ← Finset.add_sum_erase Finset.univ _ (Finset.mem_univ i), Finset.sdiff_singleton_eq_erase]
  abel

/-- The rule for a sweep whose steps only look at the cell and the state. What holds
    of every cell at first, and of what a step makes of one (`L`), holds of every cell at the
    end; a weight of the cells stays balanced against the state. The sweep ends with a
    `break`, in a cell and a state as a step that breaks leaves them (`B`), the
    other cells being as they were or as a step that goes on leaves one (`R`); or it has
    visited every cell, and left each as such a step does, in a state as such a
    step leaves it (`Q`). -/
theorem sweep_rule (w : ι → α → M) (m : σ → M) {L R : ι → α → Prop} {Q : σ → Prop}
    {B : ι → α → σ → Prop} {l : List ι} (hl : l.Nodup) {items items' : ι → α} {s s' : σ}
    (h : sweep body l items s = .ok (items', s'))
    (hstep : ∀ i ∈ l, ∀ s out, Q s → body i (items i) s = .ok out →
      L i out.cell ∧ w i out.cell + m out.state = w i (items i) + m s ∧
        (out.stop = true → B i out.cell out.state) ∧
        (out.stop = false → Q out.state ∧ R i out.cell))
    (hL : ∀ i, L i (items i)) (hQ : Q s) :
    (∀ i, L i (items' i)) ∧ ∑ j, w j (items' j) + m s' = ∑ j, w j (items j) + m s ∧
      ((∃ i ∈ l, B i (items' i) s' ∧ ∀ j, j ≠ i → items' j = items j ∨ R j (items' j)) ∨
        Q s' ∧ ∀ i ∈ l, R i (items' i)) := by
  induction l generalizing items s with
  | nil =>
    cases h
    exact ⟨hL, rfl, .inr ⟨hQ, by simp⟩⟩
  | cons i l ih =>
    obtain ⟨hi, hl⟩ := List.nodup_cons.1 hl
    obtain ⟨out, hout, hrest⟩ := sweep_cons h
    obtain ⟨hL', hw, hB, hQR⟩ := hstep i List.mem_cons_self _ _ hQ hout
    have hLu : ∀ j, L j (Function.update items i out.cell j) := by
      intro j
      by_cases hj : j = i
      · subst hj
        rwa [Function.update_self]
      · rw [Function.update_of_ne hj]
        exact hL j
    have hsum : ∑ j, w j (Function.update items i out.cell j) + m out.state =
        ∑ j, w j (items j) + m s := by
      rw [sum_update, ← sub_eq_zero]
      calc ∑ j, w j (items j) - w i (items i) + w i out.cell + m out.state -
            (∑ j, w j (items j) + m s)
          = w i out.cell + m out.state - (w i (items i) + m s) := by abel
        _ = 0 := by rw [hw, sub_self]
    rcases hrest with ⟨hs, rfl, rfl⟩ | ⟨hs, h⟩
    · refine ⟨hLu, hsum, .inl ⟨i, List.mem_cons_self, ?_, fun j hj => .inl ?_⟩⟩
      · rw [Function.update_self]
        exact hB hs
      · exact Function.update_of_ne hj ..
    · -- The cell visited first is not visited again.
      have hRi : R i (items' i) := by
        rw [sweep_frame h hi, Function.update_self]
        exact (hQR hs).2
      have hne {j : ι} (hj : j ∈ l) : Function.update items i out.cell j = items j :=
        Function.update_of_ne (fun e : j = i => hi (e ▸ hj)) ..
      obtain ⟨hL'', hsum', hend⟩ := ih hl h (fun j hj => by
        rw [hne hj]
        exact hstep j (List.mem_cons_of_mem _ hj)) hLu (hQR hs).1
      refine ⟨hL'', hsum'.trans hsum, ?_⟩
      rcases hend with ⟨j, hj, hBj, hother⟩ | ⟨hQ', hall⟩
      · refine .inl ⟨j, List.mem_cons_of_mem _ hj, hBj, fun k hk => ?_⟩
        by_cases hki : k = i
        · exact .inr (hki ▸ hRi)
        · exact (hother k hk).imp_left fun e => e.trans (Function.update_of_ne hki ..)
      · refine .inr ⟨hQ', fun j hj => ?_⟩
        rcases List.mem_cons.1 hj with rfl | hj
        · exact hRi
        · exact hall j hj

end Rule

/-- A sweep hands out an amount, of which a step that goes on has handed out as much as its
    cell takes (`room`). It ends as a step that breaks leaves it (`B`), or all cells have taken what
    they take. -/
theorem sweep_drain {N : Type*} [AddCommGroup N] (room : α → N) (amount : σ → N) {Q B : σ → Prop}
    {l : List ι} (hl : l.Nodup) {items items' : ι → α} {s s' : σ}
    (h : sweep body l items s = .ok (items', s'))
    (hstep : ∀ i ∈ l, ∀ s out, Q s → body i (items i) s = .ok out →
      (out.stop = true → B out.state) ∧
        (out.stop = false → Q out.state ∧ amount out.state = amount s - room (items i)))
    (hQ : Q s) :
    B s' ∨ Q s' ∧ amount s' = amount s - (l.map fun i => room (items i)).sum := by
  induction l generalizing items s with
  | nil =>
    cases h
    exact .inr ⟨hQ, by simp⟩
  | cons i l ih =>
    obtain ⟨hi, hl⟩ := List.nodup_cons.1 hl
    obtain ⟨out, hout, hrest⟩ := sweep_cons h
    obtain ⟨hB, hgo⟩ := hstep i List.mem_cons_self _ _ hQ hout
    rcases hrest with ⟨hs, rfl, rfl⟩ | ⟨hs, h⟩
    · exact .inl (hB hs)
    · obtain ⟨hQ', hamount⟩ := hgo hs
      have hne {j : ι} (hj : j ∈ l) : Function.update items i out.cell j = items j :=
        Function.update_of_ne (fun e : j = i => hi (e ▸ hj)) ..
      refine (ih hl h (fun j hj => ?_) hQ').imp_right fun ⟨hQ'', hsum⟩ => ⟨hQ'', ?_⟩
      · rw [hne hj]
        exact hstep j (List.mem_cons_of_mem _ hj)
      · have hrooms : (l.map fun j => room (Function.update items i out.cell j)) =
            l.map fun j => room (items j) :=
          List.map_congr_left fun j hj => by rw [hne hj]
        rw [hsum, hrooms, hamount, List.map_cons, List.sum_cons, sub_sub]

theorem sweep_total {l : List ι} (h : ∀ i ∈ l, ∀ c s, ∃ out, body i c s = .ok out) (items : ι → α)
    (s : σ) : ∃ x, sweep body l items s = .ok x := by
  induction l generalizing items s with
  | nil => exact ⟨_, rfl⟩
  | cons i l ih =>
    obtain ⟨hi, hl⟩ := List.forall_mem_cons.1 h
    obtain ⟨out, hout⟩ := hi (items i) s
    rw [sweep, hout]
    dsimp only
    split
    · exact ⟨_, rfl⟩
    · exact ih hl _ _

theorem sweep_idle {l : List ι} {items : ι → α} {s : σ}
    (h : ∀ i ∈ l, body i (items i) s = .ok ⟨items i, s, false⟩) : sweep body l items s = .ok (items, s) := by
  induction l with
  | nil => rfl
  | cons i l ih =>
    obtain ⟨hi, hl⟩ := List.forall_mem_cons.1 h
    rw [sweep, hi]
    simp only [Bool.false_eq_true, if_false, Function.update_eq_self]
    exact ih hl

theorem sweep_fault {l : List ι} {items : ι → α} {s : σ}
    (h : ∀ i ∈ l, body i (items i) s = .ok ⟨items i, s, false⟩ ∨ ∃ e, body i (items i) s = .error e)
    (hfault : ∃ i ∈ l, ∃ e, body i (items i) s = .error e) : ∃ e, sweep body l items s = .error e := by
  induction l with
  | nil => simp at hfault
  | cons i l ih =>
    obtain ⟨hi, hl⟩ := List.forall_mem_cons.1 h
    rw [sweep]
    obtain hi | ⟨e, he⟩ := hi
    · -- The step does nothing, so that it is another one that faults.
      obtain ⟨j, hj, e, he⟩ := hfault
      obtain rfl | hj := List.mem_cons.1 hj
      · cases hi.symm.trans he
      · rw [hi]
        simp only [Bool.false_eq_true, if_false, Function.update_eq_self]
        exact ih hl ⟨j, hj, e, he⟩
    · exact ⟨e, by rw [he]⟩

/-! ## Scans -/

/-- The loop `for (i = a; i < n; i++) if (p(i)) break;`: the first index from
    `a` on, below `n`, satisfying `p`. -/
def firstFrom {N : ℕ} (p : Fin N → Bool) (a n : ℕ) : Option (Fin N) :=
  (List.finRange N).find? fun i => decide (a ≤ i.val) && decide (i.val < n) && p i

theorem firstFrom_eq_some {N : ℕ} {p : Fin N → Bool} {a n : ℕ} {i : Fin N} :
    firstFrom p a n = some i ↔
      (a ≤ i.val ∧ i.val < n ∧ p i = true) ∧
        ∀ k : Fin N, a ≤ k.val → k.val < i.val → p k = false := by
  rw [firstFrom, List.find?_eq_some_iff_append]
  constructor
  · rintro ⟨hi, as, bs, hl, has⟩
    simp only [Bool.and_eq_true, decide_eq_true_eq] at hi
    refine ⟨⟨hi.1.1, hi.1.2, hi.2⟩, fun k hak hki => ?_⟩
    -- An index before `i` is in the part of the list before it.
    have hk : k ∈ as ++ i :: bs := hl ▸ List.mem_finRange k
    have hsorted : (as ++ i :: bs).Pairwise (· < ·) := hl ▸ List.pairwise_lt_finRange N
    rw [List.pairwise_append, List.pairwise_cons] at hsorted
    rcases List.mem_append.1 hk with hk | hk
    · have := has k hk
      simp only [Bool.not_eq_true', Bool.and_eq_false_iff, decide_eq_false_iff_not] at this
      rcases this with (h | h) | h
      · exact absurd hak h
      · exact absurd (hki.trans hi.1.2) h
      · exact h
    · rcases List.mem_cons.1 hk with rfl | hk
      · exact absurd hki (lt_irrefl _)
      · exact absurd (hsorted.2.1.1 k hk) (by simpa using hki.le)
  · rintro ⟨⟨ha, hn, hp⟩, hmin⟩
    refine ⟨by simp [ha, hn, hp], ?_⟩
    obtain ⟨as, bs, hl⟩ := List.append_of_mem (List.mem_finRange i)
    refine ⟨as, bs, hl, fun k hk => ?_⟩
    have hsorted : (as ++ i :: bs).Pairwise (· < ·) := hl ▸ List.pairwise_lt_finRange N
    have hki : k < i := (List.pairwise_append.1 hsorted).2.2 k hk i List.mem_cons_self
    by_cases hak : a ≤ k.val
    · simp [hmin k hak hki]
    · simp [hak]

theorem firstFrom_eq_none {N : ℕ} {p : Fin N → Bool} {a n : ℕ} :
    firstFrom p a n = none ↔ ∀ k : Fin N, a ≤ k.val → k.val < n → p k = false := by
  simp only [firstFrom, List.find?_eq_none, List.mem_finRange, true_implies, Bool.and_eq_true,
    decide_eq_true_eq, not_and, Bool.not_eq_true, and_imp]

end Sweep
