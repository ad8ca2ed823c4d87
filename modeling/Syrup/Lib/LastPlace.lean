import Mathlib.Tactic

/-!
# Arrays whose last place is a buffer

An array of `n` places is filled from its first place on. What comes next is put into the last place, and copied
from there to the next one (`Filled.push`): the last place is a buffer until it is filled itself. As long as there
are places, the array holds what has come (`pushes_eq_ok`), and nothing more fits in (`pushes_iff`).
-/

namespace LastPlace

variable {α β ε : Type} {n : ℕ} {e : ε}

/-- Items from the first place on, and how many of them are filled. -/
structure Filled (α : Type) where
  count : ℕ
  items : ℕ → α

namespace Filled

/-- What is in the places that are filled. -/
def toList (s : Filled α) : List α := (List.range s.count).map s.items

/-- What comes next: `f` is what is done with the buffer. -/
def push (n : ℕ) (e : ε) (f : α → α) (s : Filled α) : Except ε (Filled α) :=
  let items := Function.update s.items (n - 1) (f (s.items (n - 1)))
  if s.count < n then .ok ⟨s.count + 1, Function.update items s.count (items (n - 1))⟩ else .error e

theorem push_eq_ok {f : α → α} {s s' : Filled α} (h : s.push n e f = .ok s') :
    s.count < n ∧ s'.count = s.count + 1 ∧ ∃ a, s'.toList = s.toList ++ [f a] := by
  rw [push] at h
  split at h
  · rename_i hlt
    cases h
    refine ⟨hlt, rfl, s.items (n - 1), ?_⟩
    change (List.range (s.count + 1)).map (Function.update _ _ _) = _
    rw [List.range_succ, List.map_append, List.map_singleton, Function.update_self, Function.update_self]
    congr 1
    refine List.map_congr_left fun i hi => ?_
    have hi := List.mem_range.1 hi
    rw [Function.update_of_ne hi.ne, Function.update_of_ne (by omega)]
  · cases h

/-- What has come is there, in its order. -/
theorem pushes_eq_ok {f : β → α → α} {l : List β} {s s' : Filled α}
    (h : l.foldlM (fun s b => s.push n e (f b)) s = .ok s') :
    s'.count = s.count + l.length ∧
      ∃ as, s'.toList = s.toList ++ as ∧ List.Forall₂ (fun b a => ∃ a₀, a = f b a₀) l as := by
  induction l generalizing s with
  | nil =>
    cases h
    exact ⟨rfl, [], (List.append_nil _).symm, .nil⟩
  | cons b l ih =>
    rw [List.foldlM_cons] at h
    cases hpush : s.push n e (f b) with
    | error e =>
      rw [hpush] at h
      cases h
    | ok s₁ =>
      rw [hpush] at h
      obtain ⟨-, hcount, a, hlist⟩ := push_eq_ok hpush
      obtain ⟨hcount', as, hlist', has⟩ := ih h
      refine ⟨?_, f b a :: as, ?_, .cons ⟨a, rfl⟩ has⟩
      · rw [hcount', hcount, List.length_cons]
        omega
      · rw [hlist', hlist, List.append_assoc, List.singleton_append]

/-- There must be places for all. -/
theorem pushes_iff {f : β → α → α} {l : List β} {s : Filled α} (hs : s.count ≤ n) :
    (∃ s', l.foldlM (fun s b => s.push n e (f b)) s = .ok s') ↔ s.count + l.length ≤ n := by
  induction l generalizing s with
  | nil => exact ⟨fun _ => hs, fun _ => ⟨s, rfl⟩⟩
  | cons b l ih =>
    rw [List.foldlM_cons, List.length_cons]
    by_cases hlt : s.count < n
    · obtain ⟨s₁, hpush⟩ : ∃ s₁, s.push n e (f b) = .ok s₁ := ⟨_, if_pos hlt⟩
      obtain ⟨-, hcount, -⟩ := push_eq_ok hpush
      rw [hpush]
      refine (ih (by omega)).trans ?_
      omega
    · have hfull : s.push n e (f b) = .error e := if_neg hlt
      rw [hfull]
      constructor
      · rintro ⟨_, h⟩
        cases h
      · intro h
        omega

/-- What is done with each of the places that are filled, one after the other. -/
def each (g : α → Except ε α) (s : Filled α) (k : ℕ) : Except ε (Filled α) :=
  (List.range k).foldlM (fun s i => do
    let a ← g (s.items i)
    .ok { s with items := Function.update s.items i a }) s

theorem each_succ (g : α → Except ε α) (s : Filled α) (k : ℕ) :
    s.each g (k + 1) = (s.each g k) >>= fun s => (g (s.items k)) >>= fun a =>
      .ok { s with items := Function.update s.items k a } := by
  rw [each, List.range_succ, List.foldlM_append]
  congr 1
  funext s
  rw [List.foldlM_cons]
  exact bind_pure _

/-- It is done with what was there. -/
theorem each_eq_ok {g : α → Except ε α} {s s' : Filled α} {k : ℕ} (h : s.each g k = .ok s') :
    s'.count = s.count ∧ (∀ i < k, g (s.items i) = .ok (s'.items i)) ∧ ∀ i, k ≤ i → s'.items i = s.items i := by
  induction k generalizing s' with
  | zero =>
    cases h
    exact ⟨rfl, fun i hi => absurd hi (Nat.not_lt_zero i), fun _ _ => rfl⟩
  | succ k ih =>
    rw [each_succ] at h
    cases hk : s.each g k with
    | error e =>
      rw [hk] at h
      cases h
    | ok s₁ =>
      obtain ⟨hcount, hdone, hkept⟩ := ih hk
      rw [hk] at h
      cases hg : g (s₁.items k) with
      | error e =>
        change (g (s₁.items k) >>= _) = _ at h
        rw [hg] at h
        cases h
      | ok a =>
        change (g (s₁.items k) >>= _) = _ at h
        rw [hg] at h
        cases h
        refine ⟨hcount, fun i hi => ?_, fun i hi => ?_⟩
        · by_cases hik : i = k
          · subst hik
            have hself : Function.update s₁.items i a i = a := Function.update_self ..
            rw [← hkept i le_rfl, hg]
            exact congrArg Except.ok hself.symm
          · have hother : Function.update s₁.items k a i = s₁.items i := Function.update_of_ne hik ..
            exact (hdone i (by omega)).trans (congrArg Except.ok hother.symm)
        · have hother : Function.update s₁.items k a i = s₁.items i := Function.update_of_ne (by omega) ..
          exact hother.trans (hkept i (by omega))

theorem each_iff {g : α → Except ε α} {s : Filled α} {k : ℕ} :
    (∃ s', s.each g k = .ok s') ↔ ∀ i < k, ∃ a, g (s.items i) = .ok a := by
  constructor
  · rintro ⟨s', h⟩ i hi
    exact ⟨_, (each_eq_ok h).2.1 i hi⟩
  · intro h
    induction k with
    | zero => exact ⟨s, rfl⟩
    | succ k ih =>
      obtain ⟨s₁, hs₁⟩ := ih fun i hi => h i (by omega)
      obtain ⟨a, ha⟩ := h k (by omega)
      rw [← (each_eq_ok hs₁).2.2 k le_rfl] at ha
      refine ⟨{ s₁ with items := Function.update s₁.items k a }, ?_⟩
      rw [each_succ, hs₁]
      change (g (s₁.items k) >>= _) = _
      rw [ha]
      rfl

/-- One by one. -/
theorem each_toList {g : α → Except ε α} {s s' : Filled α} (h : s.each g s.count = .ok s') :
    List.Forall₂ (fun a a' => g a = .ok a') s.toList s'.toList := by
  obtain ⟨hcount, hdone, -⟩ := each_eq_ok h
  rw [toList, toList, hcount, List.forall₂_map_left_iff, List.forall₂_map_right_iff]
  exact List.forall₂_same.2 fun i hi => hdone i (List.mem_range.1 hi)

theorem each_toList_iff {g : α → Except ε α} {s : Filled α} :
    (∃ s', s.each g s.count = .ok s') ↔ ∀ a ∈ s.toList, ∃ a', g a = .ok a' := by
  rw [each_iff, toList, List.forall_mem_map]
  exact forall_congr' fun i => by rw [List.mem_range]

end Filled

end LastPlace
