import Mathlib.Tactic
import Syrup.Exec

/-!
# Records in the order of a perfect hash

A perfect hash gives each of some records its place. The records are put there by exchanging, as long as the record
at a place does not belong there, the two (`hashOrder`). If the hash gives every record a place of its own, the loop
ends, and every record is in its place (`hashOrder_spec`).
-/

namespace Syrup

variable {R : Type} (place : R → ℕ)

/-- The loop `while (i < count) { j = place(records[i]); if (i != j) swap(records[i], records[j]); else i++; }`, for
    so many rounds at most. -/
def hashOrder : ℕ → ℕ → List R → Exec (List R)
  | 0, _, _ => .error .divergence
  | n + 1, i, l =>
    match l[i]? with
    | none => .ok l
    | some r =>
      if i = place r then hashOrder n (i + 1) l
      else
        match l[place r]? with
        | none => .error .outOfBounds
        | some r' => hashOrder n i ((l.set (place r) r).set i r')

/-- The places with a record that does not belong there. -/
def misplaced (l : List R) : Finset ℕ := {k ∈ Finset.range l.length | ∀ r, l[k]? = some r → place r ≠ k}

variable {place}

/-- Each record has a place of its own. -/
structure HasPlaces (place : R → ℕ) (l : List R) : Prop where
  nodup : (l.map place).Nodup
  lt : ∀ r ∈ l, place r < l.length

theorem HasPlaces.perm {l l' : List R} (h : HasPlaces place l) (hl : l'.Perm l) : HasPlaces place l' :=
  ⟨(hl.map place).nodup_iff.2 h.nodup, fun r hr => hl.length_eq ▸ h.lt r (hl.mem_iff.1 hr)⟩

/-- Two records with one place are one record. -/
theorem HasPlaces.injective {l : List R} (h : HasPlaces place l) {i j : ℕ} {r r' : R} (hi : l[i]? = some r)
    (hj : l[j]? = some r') (heq : place r = place r') : i = j := by
  obtain ⟨hilt, -⟩ := List.getElem?_eq_some_iff.1 hi
  refine (List.getElem?_inj (by rwa [List.length_map]) h.nodup).1 ?_
  rw [List.getElem?_map, List.getElem?_map, hi, hj, Option.map_some, Option.map_some, heq]

/-- What an exchange leaves where. -/
theorem getElem?_exchange {l : List R} {i j : ℕ} {r r' : R} (hi : l[i]? = some r)
    (hj : l[j]? = some r') (k : ℕ) :
    ((l.set j r).set i r')[k]? = if k = i then some r' else if k = j then some r else l[k]? := by
  obtain ⟨hilt, -⟩ := List.getElem?_eq_some_iff.1 hi
  obtain ⟨hjlt, -⟩ := List.getElem?_eq_some_iff.1 hj
  rw [List.getElem?_set, List.getElem?_set, List.length_set]
  by_cases hki : k = i
  · rw [if_pos hki.symm, if_pos hki, if_pos hilt]
  · rw [if_neg (Ne.symm hki), if_neg hki]
    by_cases hkj : k = j
    · rw [if_pos hkj.symm, if_pos hkj, if_pos hjlt]
    · rw [if_neg (Ne.symm hkj), if_neg hkj]

/-- An exchange is a permutation. -/
theorem perm_exchange {l : List R} {i j : ℕ} {r r' : R} (hi : l[i]? = some r) (hj : l[j]? = some r') :
    ((l.set j r).set i r').Perm l := by
  obtain ⟨hilt, rfl⟩ := List.getElem?_eq_some_iff.1 hi
  obtain ⟨hjlt, rfl⟩ := List.getElem?_eq_some_iff.1 hj
  exact List.set_set_perm hjlt hilt

theorem mem_misplaced {l : List R} {k : ℕ} : k ∈ misplaced place l ↔ ∃ r, l[k]? = some r ∧ place r ≠ k := by
  rw [misplaced, Finset.mem_filter, Finset.mem_range]
  constructor
  · rintro ⟨hlt, h⟩
    exact ⟨l[k], List.getElem?_eq_getElem hlt, h _ (List.getElem?_eq_getElem hlt)⟩
  · rintro ⟨r, hr, hne⟩
    obtain ⟨hlt, -⟩ := List.getElem?_eq_some_iff.1 hr
    refine ⟨hlt, fun r' hr' => ?_⟩
    rw [hr] at hr'
    exact Option.some.inj hr' ▸ hne

/-- An exchange puts a record in its place, and takes none out of its own. -/
theorem card_misplaced_exchange {l : List R} (h : HasPlaces place l) {i : ℕ} {r r' : R} (hi : l[i]? = some r)
    (hj : l[place r]? = some r') (hne : i ≠ place r) :
    (misplaced place ((l.set (place r) r).set i r')).card < (misplaced place l).card := by
  -- What is exchanged with the record has a place of its own.
  have hplace : place r' ≠ place r := fun heq => hne (h.injective hi hj heq.symm)
  refine Finset.card_lt_card (Finset.ssubset_iff_of_subset ?_ |>.2 ⟨place r, mem_misplaced.2 ⟨r', hj, hplace⟩, ?_⟩)
  · -- A record that does not belong there was there before, or is the one that was moved away.
    intro k hk
    obtain ⟨s, hs, hsk⟩ := mem_misplaced.1 hk
    rw [getElem?_exchange hi hj] at hs
    split at hs
    · rename_i hki
      exact mem_misplaced.2 ⟨r, hki ▸ hi, fun heq => hne (hki ▸ heq.symm)⟩
    · split at hs
      · rename_i hkj
        cases hs
        exact absurd hkj.symm hsk
      · exact mem_misplaced.2 ⟨s, hs, hsk⟩
  · -- At the place of the record there is now the record.
    intro hk
    obtain ⟨s, hs, hsk⟩ := mem_misplaced.1 hk
    rw [getElem?_exchange hi hj, if_neg (Ne.symm hne), if_pos rfl] at hs
    cases hs
    exact hsk rfl

/-- From where the records before are in their places, the loop puts all of them there. -/
theorem hashOrder_from {n i : ℕ} {l : List R} (h : HasPlaces place l)
    (hbefore : ∀ k r, k < i → l[k]? = some r → place r = k) (hfuel : l.length - i + (misplaced place l).card < n) :
    ∃ l', hashOrder place n i l = .ok l' ∧ l'.Perm l ∧ ∀ k r, l'[k]? = some r → place r = k := by
  induction n generalizing i l with
  | zero => exact absurd hfuel (Nat.not_lt_zero _)
  | succ n ih =>
    rw [hashOrder]
    cases hi : l[i]? with
    | none =>
      refine ⟨l, rfl, .refl l, fun k r hk => hbefore k r ?_ hk⟩
      obtain ⟨hlt, -⟩ := List.getElem?_eq_some_iff.1 hk
      exact hlt.trans_le (List.getElem?_eq_none_iff.1 hi)
    | some r =>
      obtain ⟨hilt, -⟩ := List.getElem?_eq_some_iff.1 hi
      dsimp only
      by_cases heq : i = place r
      · -- The record is in its place: one more is.
        rw [if_pos heq]
        refine ih h (fun k s hk hs => ?_) (by omega)
        rcases Nat.lt_succ_iff_lt_or_eq.1 hk with hlt | rfl
        · exact hbefore k s hlt hs
        · rw [hi] at hs
          exact Option.some.inj hs ▸ heq.symm
      · -- The record is put in its place, so that fewer are misplaced.
        rw [if_neg heq]
        obtain ⟨r', hj⟩ : ∃ r', l[place r]? = some r' :=
          ⟨_, List.getElem?_eq_getElem (h.lt r (List.mem_of_getElem? hi))⟩
        simp only [hj]
        have hperm := perm_exchange hi hj
        have hcard := card_misplaced_exchange h hi hj heq
        have hlength : ((l.set (place r) r).set i r').length = l.length := hperm.length_eq
        have hbefore' (k : ℕ) (s : R) (hk : k < i) (hs : ((l.set (place r) r).set i r')[k]? = some s) :
            place s = k := by
          rw [getElem?_exchange hi hj, if_neg hk.ne] at hs
          split at hs
          · rename_i hkj
            cases hs
            exact hkj.symm
          · exact hbefore k s hk hs
        obtain ⟨l', hl', hperm', hall⟩ := ih (h.perm hperm) hbefore' (by omega)
        exact ⟨l', hl', hperm'.trans hperm, hall⟩

/-- The loop puts records with places of their own into them. -/
theorem hashOrder_spec {l : List R} (h : HasPlaces place l) :
    ∃ l', hashOrder place (2 * l.length + 1) 0 l = .ok l' ∧ l'.Perm l ∧ ∀ k r, l'[k]? = some r → place r = k := by
  refine hashOrder_from h (fun k r hk => absurd hk (Nat.not_lt_zero k)) ?_
  have hcard : (misplaced place l).card ≤ (Finset.range l.length).card :=
    Finset.card_le_card (Finset.filter_subset ..)
  rw [Finset.card_range] at hcard
  omega

/-- More rounds than are needed change nothing. -/
theorem hashOrder_mono {n m i : ℕ} {l l' : List R} (h : hashOrder place n i l = .ok l') (hle : n ≤ m) :
    hashOrder place m i l = .ok l' := by
  induction n generalizing m i l with
  | zero => cases h
  | succ n ih =>
    obtain ⟨m, rfl⟩ := Nat.exists_eq_succ_of_ne_zero (by omega : m ≠ 0)
    have hle : n ≤ m := Nat.le_of_succ_le_succ hle
    rw [hashOrder] at h ⊢
    cases hi : l[i]? with
    | none =>
      rw [hi] at h
      exact h
    | some r =>
      simp only [hi] at h ⊢
      split at h
      · rename_i heq
        rw [if_pos heq]
        exact ih h hle
      · rename_i hne
        rw [if_neg hne]
        cases hj : l[place r]? with
        | none =>
          rw [hj] at h
          cases h
        | some r' =>
          rw [hj] at h
          exact ih h hle

/-- Whatever the places, no record gets lost. -/
theorem hashOrder_perm {n i : ℕ} {l l' : List R} (h : hashOrder place n i l = .ok l') : l'.Perm l := by
  induction n generalizing i l with
  | zero => cases h
  | succ n ih =>
    rw [hashOrder] at h
    cases hi : l[i]? with
    | none =>
      rw [hi] at h
      cases h
      exact .refl _
    | some r =>
      simp only [hi] at h
      split at h
      · exact ih h
      · cases hj : l[place r]? with
        | none =>
          rw [hj] at h
          cases h
        | some r' =>
          rw [hj] at h
          exact (ih h).trans (perm_exchange hi hj)

end Syrup
