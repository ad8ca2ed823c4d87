import Mathlib.Tactic

/-!
# Numbering

The loop `count = 0; for (i in l) if (lacks(items[i])) items[i] = give(count++, items[i]);` gives the
places that lack something what comes next, in the order in which it gets to them (`number`). What
each of them gets is told by its position among those that lack it (`wanting`).

* `number_of_getElem?`, `number_of_not_mem`: what the loop makes of a place;
* `rightly_iff`: what has been counted for some places is given to them if and only if they are
  the places that lack it when it is given.
-/

namespace Numbering

variable {ι α : Type*} [DecidableEq ι] (lacks : α → Bool) (give : ℕ → α → α)

/-- The loop, with the number of what comes next. -/
def number : List ι → ℕ → (ι → α) → ι → α
  | [], _, items => items
  | i :: l, n, items =>
    if lacks (items i) then number l (n + 1) (Function.update items i (give n (items i)))
    else number l n items

/-- The places that lack something. -/
def wanting (l : List ι) (items : ι → α) : List ι := l.filter fun i => lacks (items i)

variable {lacks give}

/-- The loop does not get to other places. -/
theorem number_of_not_mem_list {l : List ι} {n : ℕ} {items : ι → α} {i : ι} (hi : i ∉ l) :
    number lacks give l n items i = items i := by
  induction l generalizing n items with
  | nil => rfl
  | cons j l ih =>
    rw [List.mem_cons, not_or] at hi
    rw [number]
    split
    · rw [ih hi.2, Function.update_of_ne hi.1]
    · exact ih hi.2

omit [DecidableEq ι] in
theorem wanting_cons (i : ι) (l : List ι) (items : ι → α) :
    wanting lacks (i :: l) items =
      if lacks (items i) then i :: wanting lacks l items else wanting lacks l items := by
  rw [wanting, List.filter_cons]
  rfl

/-- A place that is not in a list does not matter to those that are. -/
theorem wanting_update {l : List ι} {items : ι → α} {i : ι} (hi : i ∉ l) (a : α) :
    wanting lacks l (Function.update items i a) = wanting lacks l items :=
  List.filter_congr fun j hj => by rw [Function.update_of_ne fun e : j = i => hi (e ▸ hj)]

/-- A place that lacks nothing is left alone. -/
theorem number_of_not_mem {l : List ι} (hl : l.Nodup) {n : ℕ} {items : ι → α} {i : ι}
    (hi : i ∉ wanting lacks l items) : number lacks give l n items i = items i := by
  induction l generalizing n items with
  | nil => rfl
  | cons j l ih =>
    obtain ⟨hj, hl⟩ := List.nodup_cons.1 hl
    rw [wanting_cons] at hi
    rw [number]
    split at hi
    · rename_i hlacks
      rw [List.mem_cons, not_or] at hi
      rw [if_pos hlacks, ih hl (by rw [wanting_update hj]; exact hi.2), Function.update_of_ne hi.1]
    · rename_i hlacks
      rw [if_neg hlacks]
      exact ih hl hi

/-- A place that lacks something gets what its position tells. -/
theorem number_of_getElem? {l : List ι} (hl : l.Nodup) {n k : ℕ} {items : ι → α} {i : ι}
    (hi : (wanting lacks l items)[k]? = some i) :
    number lacks give l n items i = give (n + k) (items i) := by
  induction l generalizing n k items with
  | nil => cases hi
  | cons j l ih =>
    obtain ⟨hj, hl⟩ := List.nodup_cons.1 hl
    rw [wanting_cons] at hi
    rw [number]
    split at hi
    · rename_i hlacks
      rw [if_pos hlacks]
      cases k with
      | zero =>
        cases hi
        rw [number_of_not_mem_list hj, Function.update_self, add_zero]
      | succ k =>
        have hne : i ≠ j := by
          rintro rfl
          exact hj (List.mem_of_mem_filter (List.mem_of_getElem? hi))
        rw [ih hl (by rw [wanting_update hj]; exact hi), Function.update_of_ne hne]
        congr 1
        omega
    · rename_i hlacks
      rw [if_neg hlacks]
      exact ih hl hi

section Rightly

variable {N : Type*} {give : (ℕ → N) → ℕ → α → α} {l : List ι} {items : ι → α}

/-- The places `meant` get what their positions tell, the others get nothing, and no more is
    given than there are such places. -/
structure Rightly (lacks : α → Bool) (give : (ℕ → N) → ℕ → α → α) (meant : List ι) (l : List ι)
    (items : ι → α) (res : ℕ → N) : Prop where
  received : ∀ k i, meant[k]? = some i → number lacks (give res) l 0 items i = give res k (items i)
  others : ∀ i, i ∉ meant → number lacks (give res) l 0 items i = items i
  read : (wanting lacks l items).length ≤ meant.length

/-- Places get what is meant for them, whatever it is, if and only if they are the places that lack
    it. -/
theorem rightly_iff (hl : l.Nodup) {meant : List ι} (key : α → N)
    (hkey : ∀ res k a, key (give res k a) = res k) (hN : ∀ n : N, ∃ n' : N, n' ≠ n) :
    (∀ res, Rightly lacks give meant l items res) ↔ wanting lacks l items = meant := by
  constructor
  · intro h
    -- A place gets something else than what it has if and only if it lacks something.
    have hmem (i : ι) : i ∈ wanting lacks l items ↔ i ∈ meant := by
      obtain ⟨n, hn⟩ := hN (key (items i))
      constructor
      · intro hi
        obtain ⟨k, hk⟩ := List.mem_iff_getElem?.1 hi
        by_contra hmeant
        have hsame := (h fun _ => n).others i hmeant
        rw [number_of_getElem? hl hk] at hsame
        exact hn ((hkey _ _ _).symm.trans (congrArg key hsame))
      · intro hi
        obtain ⟨k, hk⟩ := List.mem_iff_getElem?.1 hi
        by_contra hwant
        have hgiven := (h fun _ => n).received k i hk
        rw [number_of_not_mem hl hwant] at hgiven
        exact hn ((hkey _ _ _).symm.trans (congrArg key hgiven.symm))
    -- It is at the same position in both lists.
    have hpos {i : ι} {k k' : ℕ} (hk : (wanting lacks l items)[k]? = some i)
        (hk' : meant[k']? = some i) : k = k' := by
      obtain ⟨n, hn⟩ := hN (key (items i))
      by_contra hne
      let res : ℕ → N := fun j => if j = k then n else key (items i)
      have hgiven := congrArg key ((h res).received k' i hk')
      rw [number_of_getElem? hl hk, zero_add, hkey, hkey] at hgiven
      simp only [res, if_true, if_neg (Ne.symm hne)] at hgiven
      exact hn hgiven
    refine List.ext_getElem? fun k => ?_
    cases hk : (wanting lacks l items)[k]? with
    | some i =>
      obtain ⟨k', hk'⟩ := List.mem_iff_getElem?.1 ((hmem i).1 (List.mem_of_getElem? hk))
      rw [hpos hk hk', hk']
    | none =>
      cases hk' : meant[k]? with
      | none => rfl
      | some i =>
        obtain ⟨k', hw⟩ := List.mem_iff_getElem?.1 ((hmem i).2 (List.mem_of_getElem? hk'))
        rw [← hpos hw hk', hw] at hk
        cases hk
  · rintro rfl res
    refine ⟨fun k i hk => ?_, fun i hi => number_of_not_mem hl hi, le_rfl⟩
    rw [number_of_getElem? hl hk, zero_add]

end Rightly

end Numbering
