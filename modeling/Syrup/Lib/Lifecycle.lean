import Mathlib.Tactic

/-!
# Lifecycles

A *resource* is acquired once, is used while it is held, and is released once. What a program does
with resources is a list of operations (`Op`), in which every resource is in a phase (`phase`): it
is fresh, held, or released. The list is *proper* if every operation is done on a resource in the
phase it needs (`Proper`), and *settled* if no resource is held at its end (`Settled`).

* `admits_append`: the rule for what is done after something else;
* `phase_concat`: an operation changes the phase of its resource only;
* `count_release`: in a proper list a resource is released once, or not at all.
-/

namespace Lifecycle

variable {R : Type*} [DecidableEq R]

/-- The phases of a resource. -/
inductive Phase
  | fresh
  | held
  | released
  deriving DecidableEq

/-- What is done with a resource. -/
inductive Op (R : Type*)
  | acquire (r : R)
  | use (r : R)
  | release (r : R)
  deriving DecidableEq

/-- The resource with which something is done. -/
def Op.resource : Op R → R
  | acquire r => r
  | use r => r
  | release r => r

/-- The phase in which a resource has to be. -/
def Op.needs : Op R → Phase
  | acquire _ => .fresh
  | use _ => .held
  | release _ => .held

/-- The phase of a resource after a list of operations. -/
def phase (t : List (Op R)) (r : R) : Phase :=
  if .release r ∈ t then .released else if .acquire r ∈ t then .held else .fresh

@[simp] theorem phase_nil (r : R) : phase [] r = .fresh := rfl

theorem phase_eq_held {t : List (Op R)} {r : R} :
    phase t r = .held ↔ .acquire r ∈ t ∧ .release r ∉ t := by
  rw [phase]
  split
  · rename_i h
    exact ⟨nofun, fun h' => absurd h h'.2⟩
  · rename_i h
    split <;> rename_i h'
    · exact ⟨fun _ => ⟨h', h⟩, fun _ => rfl⟩
    · exact ⟨nofun, fun h'' => absurd h''.1 h'⟩

/-- What an operation makes of the phase of its resource. -/
def Op.after : Op R → Phase → Phase
  | acquire _, .released => .released
  | acquire _, _ => .held
  | use _, p => p
  | release _, _ => .released

/-- An operation changes the phase of its resource only. -/
theorem phase_concat (t : List (Op R)) (op : Op R) (r : R) :
    phase (t ++ [op]) r = if op.resource = r then op.after (phase t r) else phase t r := by
  by_cases hr : op.resource = r
  · rw [if_pos hr]
    subst hr
    cases op with
    | acquire r =>
      by_cases h : .release r ∈ t
      · simp [phase, Op.resource, Op.after, h]
      · by_cases h' : .acquire r ∈ t <;> simp [phase, Op.resource, Op.after, h, h']
    | use r => exact if_congr (by simp [Op.resource]) rfl (if_congr (by simp [Op.resource]) rfl rfl)
    | release r => simp [phase, Op.resource, Op.after]
  · have hne : .release r ≠ op ∧ .acquire r ≠ op := by
      constructor <;> rintro rfl <;> exact hr rfl
    rw [if_neg hr]
    simp [phase, hne.1, hne.2]

/-- After a list of operations, an operation is done on a resource in the phase it needs. -/
def Admissible (t : List (Op R)) (op : Op R) : Prop := phase t op.resource = op.needs

/-- After a list of operations, every one of another list is done on a resource in the phase it
    needs. -/
def Admits (t : List (Op R)) : List (Op R) → Prop
  | [] => True
  | op :: l => Admissible t op ∧ Admits (t ++ [op]) l

/-- Every operation is done on a resource in the phase it needs. -/
def Proper (t : List (Op R)) : Prop := Admits [] t

/-- No resource is held. -/
def Settled (t : List (Op R)) : Prop := ∀ r, phase t r ≠ .held

theorem admits_append {t l l' : List (Op R)} :
    Admits t (l ++ l') ↔ Admits t l ∧ Admits (t ++ l) l' := by
  induction l generalizing t with
  | nil => simp [Admits]
  | cons op l ih =>
    rw [List.cons_append, Admits, Admits, ih, and_assoc, List.append_assoc, List.singleton_append]

/-- A proper list goes on as one that is admitted after it. -/
theorem proper_append {t l : List (Op R)} : Proper (t ++ l) ↔ Proper t ∧ Admits t l := by
  rw [Proper, admits_append, List.nil_append]
  rfl

/-- In a proper list, what is used or released has been acquired before, and has not been released
    before. -/
theorem Proper.held {t pre post : List (Op R)} {op : Op R} (h : Proper t)
    (ht : t = pre ++ op :: post) (hop : op.needs = .held) :
    .acquire op.resource ∈ pre ∧ .release op.resource ∉ pre := by
  rw [ht] at h
  rw [← phase_eq_held, ← hop]
  exact (proper_append.1 h).2.1

/-- In a proper list a resource has been released once if it is in that phase, and not at all
    otherwise. -/
theorem count_release {t : List (Op R)} (h : Proper t) (r : R) :
    t.count (.release r) = if phase t r = .released then 1 else 0 := by
  induction t using List.reverseRecOn with
  | nil => rfl
  | append_singleton t op ih =>
    obtain ⟨ht, hop, -⟩ := proper_append.1 h
    have ih := ih ht
    rw [List.count_append, ih, phase_concat]
    by_cases hr : op.resource = r
    · subst hr
      rw [if_pos rfl, show phase t op.resource = op.needs from hop]
      cases op <;> simp [Op.resource, Op.needs, Op.after]
    · have hne : op ≠ .release r := by
        rintro rfl
        exact hr rfl
      rw [if_neg hr, List.count_eq_zero.2 (by simpa using hne.symm), add_zero]

/-- What has been acquired in a proper and settled list has been released once. -/
theorem Settled.count {t : List (Op R)} (h : Settled t) (ht : Proper t) {r : R}
    (hr : .acquire r ∈ t) : t.count (.release r) = 1 := by
  rw [count_release ht, if_pos]
  by_contra hn
  refine h r (phase_eq_held.2 ⟨hr, fun hmem => hn ?_⟩)
  rw [phase, if_pos hmem]

end Lifecycle
