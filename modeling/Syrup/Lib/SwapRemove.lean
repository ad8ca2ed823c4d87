import Mathlib.Tactic

/-!
# Arrays from which items are taken while they are gone through

The items of an array are tried one after the other, and some are taken: the last item is put into the place of
one that is taken (`swapRemove`), and is tried next. So the array is what has been kept, followed by what is
still to be tried (`swapRemove_append`); and what comes next is always at the front of the rest, into which the
last item is moved when one has been taken (`visit`). Each item is tried once, and what is left are those that
have not been taken (`visit_spec`).
-/

namespace SwapRemove

variable {α ε σ : Type} {f : α → σ → Except ε (Bool × σ)}

/-- A list the last item of which has been moved to its front. -/
def front (l : List α) : List α := l.getLast?.elim [] fun a => a :: l.dropLast

/-- The last item is put into the place of another one. -/
def swapRemove (l : List α) (i : ℕ) : List α := l.getLast?.elim [] fun a => (l.set i a).dropLast

theorem front_perm (l : List α) : (front l).Perm l := by
  rcases List.eq_nil_or_concat l with rfl | ⟨l, a, rfl⟩
  · exact .refl _
  · rw [List.concat_eq_append, front, List.getLast?_concat, List.dropLast_concat]
    exact (List.perm_append_singleton a l).symm

theorem length_front (l : List α) : (front l).length = l.length := (front_perm l).length_eq

/-- An item is written to, and then kept. -/
theorem set_append_cons (kept rest : List α) (a b : α) :
    (kept ++ a :: rest).set kept.length b = kept ++ [b] ++ rest := by
  rw [List.set_append_right _ _ le_rfl, Nat.sub_self, List.set_cons_zero, List.append_cons]

/-- What is behind the item that is taken has its last item moved to the front. -/
theorem swapRemove_append (kept rest : List α) (a : α) :
    swapRemove (kept ++ a :: rest) kept.length = kept ++ front rest := by
  rcases List.eq_nil_or_concat rest with rfl | ⟨rest, b, rfl⟩
  · simp [swapRemove, front]
  · have hlist : kept ++ a :: (rest ++ [b]) = (kept ++ a :: rest) ++ [b] := by simp
    rw [List.concat_eq_append, hlist, swapRemove, front, List.getLast?_concat, List.getLast?_concat,
      Option.elim_some, Option.elim_some, List.set_append_left _ _ (by simp), List.dropLast_concat,
      List.dropLast_concat, set_append_cons, ← List.append_cons]

/-- What is in the place of the item does not matter. -/
theorem swapRemove_set (l : List α) (i : ℕ) (a : α) : swapRemove (l.set i a) i = swapRemove l i := by
  rcases List.eq_nil_or_concat l with rfl | ⟨l, b, rfl⟩
  · rfl
  · rcases lt_trichotomy i l.length with hlt | rfl | hgt
    · rw [List.concat_eq_append, List.set_append_left _ _ hlt, swapRemove, swapRemove, List.getLast?_concat,
        List.getLast?_concat, Option.elim_some, Option.elim_some, List.set_append_left _ _ (by simpa using hlt),
        List.set_append_left _ _ hlt, List.set_set]
    · simp [swapRemove]
    · rw [List.set_eq_of_length_le (by simpa using hgt)]

theorem length_swapRemove (l : List α) (i : ℕ) : (swapRemove l i).length = l.length - 1 := by
  rcases List.eq_nil_or_concat l with rfl | ⟨l, a, rfl⟩
  · rfl
  · simp [swapRemove]

theorem getLast?_map_range {n : ℕ} (f : ℕ → α) (hn : 0 < n) :
    ((List.range n).map f).getLast? = some (f (n - 1)) := by
  obtain ⟨n, rfl⟩ := Nat.exists_eq_succ_of_ne_zero hn.ne'
  rw [List.range_succ, List.map_append, List.map_singleton, List.getLast?_concat, Nat.succ_sub_one]

/-- The items of an array after the last one has been put into the place of another one. -/
theorem swapRemove_map_range {n k : ℕ} (f : ℕ → α) (hk : k < n) : swapRemove ((List.range n).map f) k =
    (List.range (n - 1)).map fun i => f (if i = k then n - 1 else i) := by
  rw [swapRemove, getLast?_map_range f (by omega), Option.elim_some]
  refine List.ext_getElem (by simp) fun i hi _ => ?_
  rw [List.getElem_dropLast, List.getElem_set, List.getElem_map, List.getElem_map, List.getElem_range,
    List.getElem_range]
  split
  · rename_i he
    rw [if_pos he.symm]
  · rename_i hne
    rw [if_neg (Ne.symm hne)]

/-- The items of an array after one of them has been written to. -/
theorem map_range_set {n k : ℕ} {f g : ℕ → α} {a : α} (hk : g k = a) (hne : ∀ i < n, i ≠ k → g i = f i) :
    (List.range n).map g = ((List.range n).map f).set k a := by
  refine List.ext_getElem (by simp) fun i hi _ => ?_
  have hi : i < n := by simpa using hi
  rw [List.getElem_set, List.getElem_map, List.getElem_map, List.getElem_range]
  split
  · rename_i he
    rw [← he, hk]
  · rename_i he
    exact hne i hi (Ne.symm he)

/-! ## Trying items -/

/-- Items are tried in their order: what is left of them. -/
def tryAll (f : α → σ → Except ε (Bool × σ)) : List α → σ → Except ε (List α × σ)
  | [], s => .ok ([], s)
  | a :: l, s => do
    let (taken, s) ← f a s
    let (kept, s) ← tryAll f l s
    return (if taken then kept else a :: kept, s)

/-- Items are tried, so many at most, with the last one moved to the front when one has been taken: those that
    have been tried, in their order, and those that are left. -/
def visit (f : α → σ → Except ε (Bool × σ)) : ℕ → List α → σ → Except ε (List α × List α × σ)
  | 0, _, s => .ok ([], [], s)
  | _ + 1, [], s => .ok ([], [], s)
  | n + 1, a :: l, s => do
    let (taken, s) ← f a s
    if taken then
      let (tried, kept, s) ← visit f n (front l) s
      return (a :: tried, kept, s)
    else
      let (tried, kept, s) ← visit f n l s
      return (a :: tried, a :: kept, s)

theorem tryAll_cons {a : α} {l kept : List α} {s s₁ s' : σ} {taken : Bool} (ha : f a s = .ok (taken, s₁))
    (hl : tryAll f l s₁ = .ok (kept, s')) :
    tryAll f (a :: l) s = .ok (if taken then kept else a :: kept, s') := by
  rw [tryAll, ha]
  change (tryAll f l s₁ >>= _) = _
  rw [hl]
  rfl

theorem tryAll_append {l l' kept kept' : List α} {s s₁ s' : σ} (hl : tryAll f l s = .ok (kept, s₁))
    (hl' : tryAll f l' s₁ = .ok (kept', s')) : tryAll f (l ++ l') s = .ok (kept ++ kept', s') := by
  induction l generalizing s kept with
  | nil =>
    cases hl
    exact hl'
  | cons a l ih =>
    rw [tryAll] at hl
    cases ha : f a s with
    | error e =>
      rw [ha] at hl
      cases hl
    | ok x =>
      obtain ⟨taken, s₂⟩ := x
      rw [ha] at hl
      change (tryAll f l s₂ >>= _) = _ at hl
      cases hrest : tryAll f l s₂ with
      | error e =>
        rw [hrest] at hl
        cases hl
      | ok x =>
        obtain ⟨k, s₃⟩ := x
        rw [hrest] at hl
        cases hl
        rw [List.cons_append, tryAll_cons ha (ih hrest)]
        cases taken <;> rfl

/-- The first item is taken or kept, and then the others are visited. -/
theorem visit_cons {n : ℕ} {a : α} {l tried kept : List α} {s s' : σ}
    (h : visit f (n + 1) (a :: l) s = .ok (tried, kept, s')) : ∃ s₁ t, tried = a :: t ∧
      ((f a s = .ok (true, s₁) ∧ visit f n (front l) s₁ = .ok (t, kept, s')) ∨
        ∃ k, kept = a :: k ∧ f a s = .ok (false, s₁) ∧ visit f n l s₁ = .ok (t, k, s')) := by
  rw [visit] at h
  cases ha : f a s with
  | error e =>
    rw [ha] at h
    cases h
  | ok x =>
    obtain ⟨taken, s₁⟩ := x
    rw [ha] at h
    cases taken with
    | true =>
      change (visit f n (front l) s₁ >>= _) = _ at h
      cases hx : visit f n (front l) s₁ with
      | error e =>
        rw [hx] at h
        cases h
      | ok x =>
        obtain ⟨t, k, s₂⟩ := x
        rw [hx] at h
        cases h
        exact ⟨s₁, t, rfl, .inl ⟨rfl, hx⟩⟩
    | false =>
      change (visit f n l s₁ >>= _) = _ at h
      cases hx : visit f n l s₁ with
      | error e =>
        rw [hx] at h
        cases h
      | ok x =>
        obtain ⟨t, k, s₂⟩ := x
        rw [hx] at h
        cases h
        exact ⟨s₁, t, rfl, .inr ⟨k, rfl, rfl, hx⟩⟩

/-- Each item is tried once, if each can be, and those are left that have not been taken. -/
theorem visit_spec {Q : σ → Prop} {n : ℕ} {l : List α} {s : σ}
    (hf : ∀ a ∈ l, ∀ s, Q s → ∃ taken s', f a s = .ok (taken, s') ∧ Q s') (hs : Q s) (hn : l.length ≤ n) :
    ∃ tried kept s', visit f n l s = .ok (tried, kept, s') ∧ Q s' ∧ tried.Perm l ∧
      tryAll f tried s = .ok (kept, s') := by
  -- What is still to be tried gets shorter by one, also when its last item has been moved to the front.
  induction n generalizing l s with
  | zero =>
    obtain rfl := List.eq_nil_of_length_eq_zero (Nat.le_zero.1 hn)
    exact ⟨[], [], s, rfl, hs, .refl _, rfl⟩
  | succ n ih =>
    cases l with
    | nil => exact ⟨[], [], s, rfl, hs, .refl _, rfl⟩
    | cons a l =>
      have hl : l.length ≤ n := Nat.le_of_succ_le_succ hn
      obtain ⟨hfa, hfl⟩ := List.forall_mem_cons.1 hf
      obtain ⟨taken, s₁, ha, hs₁⟩ := hfa s hs
      cases taken with
      | true =>
        obtain ⟨t, k, s', hx, hs', hperm, htry⟩ :=
          ih (l := front l) (fun b hb => hfl b ((front_perm l).mem_iff.1 hb)) hs₁ (by rw [length_front]; exact hl)
        refine ⟨a :: t, k, s', ?_, hs', (hperm.trans (front_perm l)).cons a, tryAll_cons ha htry⟩
        rw [visit, ha]
        change (visit f n (front l) s₁ >>= _) = _
        rw [hx]
        rfl
      | false =>
        obtain ⟨t, k, s', hx, hs', hperm, htry⟩ := ih hfl hs₁ hl
        refine ⟨a :: t, a :: k, s', ?_, hs', hperm.cons a, tryAll_cons ha htry⟩
        rw [visit, ha]
        change (visit f n l s₁ >>= _) = _
        rw [hx]
        rfl

end SwapRemove
