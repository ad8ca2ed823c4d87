import Mathlib.Tactic

/-!
# Executions

The modelled functions are C functions. Where C leaves the result undefined, or
the program dies or hangs, a modelled function has no result but a `Fault`: an
array is indexed outside its bounds, a `NULL` pointer is dereferenced, an
`assert` fails, a loop does not end, something is divided by zero, or a signed
number overflows where that is checked (`Exec.int32`). What a
function *returns*, it returns by `Except.ok`.
-/

namespace Syrup

-- Arrays of these lengths are indexed by literals.
instance neZero_one : NeZero 1 := ⟨Nat.succ_ne_zero 0⟩

instance neZero_two : NeZero 2 := ⟨Nat.succ_ne_zero 1⟩

instance neZero_four : NeZero 4 := ⟨Nat.succ_ne_zero 3⟩

/-- Why a call does not return. -/
inductive Fault
  | outOfBounds
  | nullPointer
  | assertion
  | divergence
  | divisionByZero
  | overflow
  deriving DecidableEq, Repr

/-- A call, which returns a value or faults. -/
abbrev Exec := Except Fault

namespace Exec

universe u

variable {α β : Type u}

/-- A sequence of two calls returns what the second returns on what the first
    returns. -/
theorem bind_eq_ok {x : Exec α} {f : α → Exec β} {b : β} :
    (x >>= f) = .ok b ↔ ∃ a, x = .ok a ∧ f a = .ok b := by
  cases x with
  | error e => simp [bind, Except.bind]
  | ok a => simp [bind, Except.bind]

theorem map_eq_ok {f : α → β} {x : Exec α} {b : β} :
    f <$> x = .ok b ↔ ∃ a, x = .ok a ∧ f a = b := by
  cases x with
  | error e => simp [Functor.map, Except.map]
  | ok a => simp [Functor.map, Except.map]

theorem ok_bind {a : α} {f : α → Exec β} : ((.ok a : Exec α) >>= f) = f a := rfl

theorem pure_eq_ok {a b : α} : (pure a : Exec α) = .ok b ↔ a = b := by
  simp [pure, Except.pure]

/-- Dereferencing a pointer, `NULL` being `none`. -/
def deref : Option α → Exec α
  | none => .error .nullPointer
  | some a => .ok a

@[simp] theorem deref_eq_ok {o : Option α} {a : α} : deref o = .ok a ↔ o = some a := by
  cases o <;> simp [deref]

/-- An index `count - 1`, which is outside of all bounds if there is nothing. -/
def last (count : ℕ) : Exec ℕ := if count = 0 then .error .outOfBounds else .ok (count - 1)

/-- The result of a signed computation. -/
def int32 (v : ℤ) : Exec Int32 :=
  if -2147483648 ≤ v ∧ v ≤ 2147483647 then .ok (Int32.ofInt v) else .error .overflow

theorem toInt_int32 {v : ℤ} {n : Int32} (h : int32 v = .ok n) : n.toInt = v := by
  rw [int32] at h
  split at h
  · cases h
    rename_i hv
    exact Int32.toInt_ofInt_of_le (by omega) (by omega)
  · cases h

/-- An index into a block. -/
def within (size i : ℕ) : Exec Unit := if i < size then .ok () else .error .outOfBounds

/-- What every step of a loop over a list keeps, the loop keeps. -/
theorem foldlM_invariant {P : β → Prop} {f : β → α → Exec β} {l : List α} {b b' : β}
    (h : l.foldlM f b = .ok b') (hstep : ∀ a ∈ l, ∀ b b', P b → f b a = .ok b' → P b') (hP : P b) :
    P b' := by
  induction l generalizing b with
  | nil =>
    cases h
    exact hP
  | cons a l ih =>
    rw [List.foldlM_cons] at h
    obtain ⟨b₁, h₁, h⟩ := bind_eq_ok.1 h
    exact ih h (fun a ha => hstep a (List.mem_cons_of_mem _ ha))
      (hstep a List.mem_cons_self b b₁ hP h₁)

/-- The call returns, and what it returns satisfies `P`. -/
def Returns (x : Exec α) (P : α → Prop) : Prop :=
  match x with
  | .ok a => P a
  | .error _ => False

instance (x : Exec α) (P : α → Prop) [DecidablePred P] : Decidable (x.Returns P) :=
  match x with
  | .ok a => inferInstanceAs (Decidable (P a))
  | .error _ => inferInstanceAs (Decidable False)

theorem returns_iff {x : Exec α} {P : α → Prop} : x.Returns P ↔ ∃ a, x = .ok a ∧ P a := by
  cases x with
  | error e => simp [Returns]
  | ok a => simp [Returns]

/-! ## What a call ensures -/

/-- If the call returns, what it returns satisfies `P`. -/
def Ensures (x : Exec α) (P : α → Prop) : Prop := ∀ a, x = .ok a → P a

namespace Ensures

variable {x : Exec α} {P Q : α → Prop} {R : β → Prop}

theorem ok {a : α} (h : P a) : Ensures (.ok a) P := fun _ ha => by
  cases ha
  exact h

theorem pure {a : α} (h : P a) : Ensures (Pure.pure a) P := ok h

theorem error {e : Fault} : Ensures (.error e : Exec α) P := by rintro _ ⟨⟩

theorem mono (h : Ensures x P) (hPQ : ∀ a, P a → Q a) : Ensures x Q := fun a ha => hPQ a (h a ha)

theorem and (h : Ensures x P) (h' : Ensures x Q) : Ensures x fun a => P a ∧ Q a :=
  fun a ha => ⟨h a ha, h' a ha⟩

/-- The rule of sequences. -/
theorem bind {f : α → Exec β} (h : Ensures x P) (hf : ∀ a, P a → Ensures (f a) R) :
    Ensures (x >>= f) R := by
  intro b hb
  obtain ⟨a, ha, hb⟩ := bind_eq_ok.1 hb
  exact hf a (h a ha) b hb

/-- The rule of sequences, where all is known of the first call that it returns. -/
theorem andThen {f : α → Exec β} (hf : ∀ a, x = .ok a → Ensures (f a) R) : Ensures (x >>= f) R :=
  bind (fun _ ha => ha) hf

theorem map {f : α → β} (h : Ensures x fun a => R (f a)) : Ensures (f <$> x) R := by
  intro b hb
  obtain ⟨a, ha, rfl⟩ := map_eq_ok.1 hb
  exact h a ha

theorem deref {o : Option α} (h : ∀ a, o = some a → P a) : Ensures (deref o) P :=
  fun a ha => h a (deref_eq_ok.1 ha)

/-- The rule of loops over a list. -/
theorem foldlM {I : β → Prop} {f : β → α → Exec β} {l : List α} {b : β} (hI : I b)
    (hstep : ∀ a ∈ l, ∀ b, I b → Ensures (f b a) I) : Ensures (l.foldlM f b) I :=
  fun _ h => foldlM_invariant h (fun a ha b _ hb h => hstep a ha b hb _ h) hI

end Ensures

/-- The rule of loops over the first numbers, with an invariant that depends on how many there have
    been. -/
theorem Ensures.foldlM_range {I : ℕ → α → Prop} {f : α → ℕ → Exec α} {n : ℕ} {b : α} (hI : I 0 b)
    (hstep : ∀ i < n, ∀ b, I i b → Ensures (f b i) (I (i + 1))) :
    Ensures ((List.range n).foldlM f b) (I n) := by
  induction n with
  | zero => exact .pure hI
  | succ n ih =>
    rw [List.range_succ, List.foldlM_append]
    refine (ih fun i hi => hstep i (Nat.lt_succ_of_lt hi)).bind fun b hb => ?_
    rw [List.foldlM_cons]
    exact (hstep n (Nat.lt_succ_self n) b hb).bind fun _ h => .pure h

/-! ## Calls that return -/

namespace Returns

variable {x : Exec α} {P Q : α → Prop} {R : β → Prop}

/-- A call that returns what it ensures. -/
theorem of_ensures (hx : ∃ a, x = .ok a) (h : Ensures x P) : x.Returns P := by
  obtain ⟨a, rfl⟩ := hx
  exact h a rfl

theorem total (h : x.Returns P) : ∃ a, x = .ok a := by
  obtain ⟨a, rfl, -⟩ := returns_iff.1 h
  exact ⟨a, rfl⟩

theorem mono (h : x.Returns P) (hPQ : ∀ a, P a → Q a) : x.Returns Q := by
  obtain ⟨a, rfl, ha⟩ := returns_iff.1 h
  exact hPQ a ha

/-- The rule of sequences. -/
theorem bind {f : α → Exec β} (h : x.Returns P) (hf : ∀ a, P a → (f a).Returns R) : (x >>= f).Returns R := by
  obtain ⟨a, rfl, ha⟩ := returns_iff.1 h
  exact hf a ha

/-- The rule of loops over the first numbers, with an invariant that depends on how many there have been. -/
theorem foldlM_range {I : ℕ → α → Prop} {f : α → ℕ → Exec α} {n : ℕ} {b : α} (hI : I 0 b)
    (hstep : ∀ i < n, ∀ b, I i b → (f b i).Returns (I (i + 1))) :
    ((List.range n).foldlM f b).Returns (I n) := by
  induction n with
  | zero => exact hI
  | succ n ih =>
    rw [List.range_succ, List.foldlM_append]
    refine (ih fun i hi => hstep i (Nat.lt_succ_of_lt hi)).bind fun b hb => ?_
    rw [List.foldlM_cons]
    exact (hstep n (Nat.lt_succ_self n) b hb).bind fun _ h => h

end Returns

/-! ## Indices -/

theorem within_spec {size i : ℕ} : Ensures (within size i) fun _ => i < size := by
  rw [within]
  split
  · exact .ok ‹_›
  · exact .error

theorem last_spec {count : ℕ} : Ensures (last count) fun i => 0 < count ∧ i = count - 1 := by
  rw [last]
  split
  · exact .error
  · exact .ok ⟨Nat.pos_of_ne_zero ‹_›, rfl⟩

end Exec

end Syrup
