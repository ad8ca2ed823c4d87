import Mathlib.Tactic

/-!
# Refilling

Places `ι → Option β` are emptied and filled again from a list of records, each of which tells the
place it goes to (`place`), if there is one, and what is put there (`value`): the loop
`for (r in l) items[place(r)] = value(r);`, which faults if the place of a record is outside the
array (`refill`).

If there is one record of what each place has held, the places are refilled as they were if and only
if every record tells the place it was made of, and what was there (`refill_eq_iff`).
-/

namespace Refill

universe u

variable {ι β γ ε : Type u} [DecidableEq ι]

/-- One round of the loop. -/
def put (v : ι → Option β) (b : β) : Option ι → ι → Option β
  | none => v
  | some i => Function.update v i (some b)

/-- The loop. -/
def refill (place : γ → Except ε (Option ι)) (value : γ → β) :
    List γ → (ι → Option β) → Except ε (ι → Option β)
  | [], v => .ok v
  | r :: l, v =>
    match place r with
    | .error e => .error e
    | .ok o => refill place value l (put v (value r) o)

variable {place : γ → Except ε (Option ι)} {value : γ → β} {l : List γ} {v v' : ι → Option β}

theorem put_self (v : ι → Option β) (b : β) (i : ι) : put v b (some i) i = some b :=
  Function.update_self ..

theorem put_of_ne (v : ι → Option β) (b : β) {i j : ι} (h : j ≠ i) : put v b (some i) j = v j :=
  Function.update_of_ne h ..

theorem put_eq_some {b b' : β} {o : Option ι} {i : ι} (h : put v b o i = some b') :
    (o = some i ∧ b = b') ∨ v i = some b' := by
  cases o with
  | none => exact .inr h
  | some j =>
    rcases eq_or_ne i j with rfl | hne
    · rw [put_self, Option.some.injEq] at h
      exact .inl ⟨rfl, h⟩
    · rw [put_of_ne v b hne] at h
      exact .inr h

theorem refill_cons {r : γ} (h : refill place value (r :: l) v = .ok v') :
    ∃ o, place r = .ok o ∧ refill place value l (put v (value r) o) = .ok v' := by
  rw [refill] at h
  split at h
  · cases h
  · rename_i o ho
    exact ⟨o, ho, h⟩

/-- What a place holds after the loop has been put there by the loop, or was there before. -/
theorem refill_mem (h : refill place value l v = .ok v') {i : ι} {b : β} (hi : v' i = some b) :
    (∃ r ∈ l, place r = .ok (some i) ∧ value r = b) ∨ v i = some b := by
  induction l generalizing v with
  | nil =>
    cases h
    exact .inr hi
  | cons r l ih =>
    obtain ⟨o, ho, h⟩ := refill_cons h
    rcases ih h with ⟨r', hr', hplace, hvalue⟩ | hb
    · exact .inl ⟨r', List.mem_cons_of_mem _ hr', hplace, hvalue⟩
    · rcases put_eq_some hb with ⟨rfl, hvalue⟩ | hb
      · exact .inl ⟨r, List.mem_cons_self, ho, hvalue⟩
      · exact .inr hb

/-- If the records agree with `u`, the places they go to are filled as `u` says. -/
theorem refill_agrees {u : ι → Option β}
    (hu : ∀ r ∈ l, ∃ i, place r = .ok (some i) ∧ u i = some (value r))
    (hv : ∀ i, v i = none ∨ v i = u i) :
    ∃ v', refill place value l v = .ok v' ∧ (∀ i, v' i = none ∨ v' i = u i) ∧
      (∀ i, v i = u i → v' i = u i) ∧ ∀ r ∈ l, ∀ i, place r = .ok (some i) → v' i = u i := by
  induction l generalizing v with
  | nil => exact ⟨v, rfl, hv, fun _ h => h, nofun⟩
  | cons r l ih =>
    obtain ⟨i, hi, hui⟩ := hu r List.mem_cons_self
    have hself : put v (value r) (some i) i = u i := by rw [put_self, hui]
    have hother {j : ι} (hne : j ≠ i) : put v (value r) (some i) j = v j := put_of_ne v _ hne
    obtain ⟨v', hv', hor, hkeep, hfill⟩ :=
      ih (v := put v (value r) (some i)) (fun r hr => hu r (List.mem_cons_of_mem _ hr)) fun j => by
        rcases eq_or_ne j i with rfl | hne
        · exact .inr hself
        · rw [hother hne]
          exact hv j
    refine ⟨v', by rw [refill, hi]; exact hv', hor, fun j hj => hkeep j ?_, fun r' hr' j hj => ?_⟩
    · rcases eq_or_ne j i with rfl | hne
      · exact hself
      · rw [hother hne, hj]
    · rcases List.mem_cons.1 hr' with rfl | hr'
      · rw [hi] at hj
        cases hj
        exact hkeep i hself
      · exact hfill r' hr' j hj

variable {W : List ι} {r : ι → γ}

/-- Emptied places, refilled from a record of each that was filled, are as they were if and only if
    the records tell their places and what was there. A record that tells the place and the value
    of another place comes with one of that place that tells it too. -/
theorem refill_eq_iff (hW : ∀ i, i ∈ W ↔ (v i).isSome)
    (hplace : ∀ i j, place (r i) = .ok (some j) → v j = some (value (r i)) →
      place (r j) = .ok (some j)) :
    refill place value (W.map r) (fun _ => none) = .ok v ↔
      ∀ i b, v i = some b → place (r i) = .ok (some i) ∧ value (r i) = b := by
  constructor
  · intro h
    -- A place that was filled has been filled from some record, so that its own tells it.
    have hsource {j : ι} {b : β} (hj : v j = some b) :
        ∃ i ∈ W, place (r i) = .ok (some j) ∧ value (r i) = b := by
      rcases refill_mem h hj with ⟨_, hr, hp, hval⟩ | hnone
      · obtain ⟨i, hi, rfl⟩ := List.mem_map.1 hr
        exact ⟨i, hi, hp, hval⟩
      · cases hnone
    have hown {j : ι} {b : β} (hj : v j = some b) : place (r j) = .ok (some j) := by
      obtain ⟨i, _, hp, hval⟩ := hsource hj
      exact hplace i j hp (by rw [hval, hj])
    intro j b hj
    obtain ⟨i, hi, hp, hval⟩ := hsource hj
    obtain ⟨b', hb'⟩ := Option.isSome_iff_exists.1 ((hW i).1 hi)
    rw [hown hb'] at hp
    cases hp
    exact ⟨hown hj, hval⟩
  · intro h
    have hagree : ∀ r' ∈ W.map r, ∃ i, place r' = .ok (some i) ∧ v i = some (value r') := by
      intro r' hr'
      obtain ⟨i, hi, rfl⟩ := List.mem_map.1 hr'
      obtain ⟨b, hb⟩ := Option.isSome_iff_exists.1 ((hW i).1 hi)
      exact ⟨i, (h i b hb).1, by rw [(h i b hb).2, hb]⟩
    obtain ⟨v', hv', hor, -, hfill⟩ := refill_agrees (v := fun _ => none) hagree fun _ => .inl rfl
    rw [hv']
    congr 1
    funext i
    rcases hor i with hnone | hsame
    · cases hvi : v i with
      | none => exact hnone
      | some b =>
        rw [← hvi]
        exact hfill (r i) (List.mem_map_of_mem ((hW i).2 (by rw [hvi]; rfl))) i (h i b hvi).1
    · exact hsame

/-- A loop that refills what a state shows. -/
theorem view_foldlM {σ : Type u} {step : σ → γ → Except ε σ} {view : σ → ι → Option β} {P : σ → Prop}
    (hstep : ∀ s r, P s → view <$> step s r = (fun o => put (view s) (value r) o) <$> place r)
    (hP : ∀ s r s', P s → step s r = .ok s' → P s') (l : List γ) {s : σ} (hs : P s) :
    view <$> l.foldlM step s = refill place value l (view s) := by
  induction l generalizing s with
  | nil => rfl
  | cons r l ih =>
    have hr := hstep s r hs
    rw [List.foldlM_cons, refill]
    cases hsr : step s r with
    | error e =>
      rw [hsr] at hr
      cases hp : place r with
      | error e' =>
        rw [hp] at hr
        cases hr
        rfl
      | ok o =>
        rw [hp] at hr
        cases hr
    | ok s' =>
      rw [hsr] at hr
      cases hp : place r with
      | error e' =>
        rw [hp] at hr
        cases hr
      | ok o =>
        rw [hp] at hr
        have hview : view s' = put (view s) (value r) o := Except.ok.inj hr
        have hrest := ih (hP s r s' hs hsr)
        rw [hview] at hrest
        exact hrest

end Refill
