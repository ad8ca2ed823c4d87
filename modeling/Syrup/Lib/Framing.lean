import Mathlib.Tactic

/-!
# Framing

Packets are sent over a stream one after the other, each as a word (`Code.word`). The words may depend
on a state, which both sides advance with every packet (`Code.next`). A reader takes the first word off
what has come so far, or needs more (`Code.Reads`).

However the stream is cut, a reader that has the beginning of the words of some packets either needs
more, or reads the first of them and has the beginning of the words of the others (`Reads.read`); and it
has read them all when it needs more although nothing is to come (`Reads.done`).
-/

namespace Framing

variable {σ β π : Type*}

/-- How packets are written. -/
structure Code (σ β π : Type*) where
  word : σ → π → List β
  next : σ → π → σ

namespace Code

variable (c : Code σ β π)

/-- The words of a list of packets. -/
def words (s : σ) : List π → List β
  | [] => []
  | p :: ps => c.word s p ++ words (c.next s p) ps

/-- The state after a list of packets. -/
def after (s : σ) (ps : List π) : σ := ps.foldl c.next s

@[simp] theorem words_nil (s : σ) : c.words s [] = [] := rfl

@[simp] theorem words_cons (s : σ) (p : π) (ps : List π) :
    c.words s (p :: ps) = c.word s p ++ c.words (c.next s p) ps := rfl

@[simp] theorem after_nil (s : σ) : c.after s [] = s := rfl

@[simp] theorem after_cons (s : σ) (p : π) (ps : List π) :
    c.after s (p :: ps) = c.after (c.next s p) ps := rfl

theorem after_append (s : σ) (ps qs : List π) : c.after s (ps ++ qs) = c.after (c.after s ps) qs :=
  List.foldl_append

theorem words_append (s : σ) (ps qs : List π) :
    c.words s (ps ++ qs) = c.words s ps ++ c.words (c.after s ps) qs := by
  induction ps generalizing s with
  | nil => rfl
  | cons p ps ih => rw [List.cons_append, words_cons, ih, words_cons, after_cons, List.append_assoc]

/-- The beginning of the words of some packets is part of the first word, or all of it and the beginning of
    the words of the others. -/
theorem cut {s : σ} {p : π} {ps : List π} {buffer rest : List β}
    (hwords : buffer ++ rest = c.words s (p :: ps)) :
    (buffer <+: c.word s p ∧ buffer.length < (c.word s p).length) ∨
      ∃ buffer', buffer = c.word s p ++ buffer' ∧ buffer' ++ rest = c.words (c.next s p) ps := by
  rw [words_cons] at hwords
  have hbuffer : buffer <+: c.word s p ++ c.words (c.next s p) ps := ⟨rest, hwords⟩
  have hword : c.word s p <+: c.word s p ++ c.words (c.next s p) ps := List.prefix_append ..
  by_cases hlt : buffer.length < (c.word s p).length
  · exact .inl ⟨List.prefix_of_prefix_length_le hbuffer hword hlt.le, hlt⟩
  · obtain ⟨buffer', rfl⟩ := List.prefix_of_prefix_length_le hword hbuffer (not_lt.1 hlt)
    rw [List.append_assoc, List.append_cancel_left_eq] at hwords
    exact .inr ⟨buffer', rfl, hwords⟩

variable {ρ : Type*}

/-- A reader of a code, which makes `view s p` of a packet `p` in the state `s`: the first packet with what
    is behind it, or nothing if more is needed. -/
structure Reads (view : σ → π → ρ) (take : σ → List β → Option (ρ × List β)) : Prop where
  word : ∀ s p l, take s (c.word s p ++ l) = some (view s p, l)
  more : ∀ s p l, l <+: c.word s p → l.length < (c.word s p).length → take s l = none
  nil : ∀ s, take s [] = none

variable {c} {view : σ → π → ρ} {take : σ → List β → Option (ρ × List β)}

namespace Reads

/-- What a reader makes of the beginning of the words of some packets. -/
theorem read (h : c.Reads view take) {s : σ} {ps : List π} {buffer rest : List β}
    (hwords : buffer ++ rest = c.words s ps) :
    take s buffer = none ∨ ∃ p ps' buffer', ps = p :: ps' ∧ take s buffer = some (view s p, buffer') ∧
      buffer' ++ rest = c.words (c.next s p) ps' := by
  cases ps with
  | nil =>
    obtain ⟨rfl, -⟩ := List.append_eq_nil_iff.1 hwords
    exact .inl (h.nil s)
  | cons p ps =>
    rcases c.cut hwords with ⟨hbegin, hlt⟩ | ⟨buffer', rfl, hrest⟩
    · exact .inl (h.more s p buffer hbegin hlt)
    · exact .inr ⟨p, ps, buffer', rfl, h.word s p buffer', hrest⟩

/-- A reader that needs more although nothing is to come has read all packets. -/
theorem done (h : c.Reads view take) {s : σ} {ps : List π} (hnone : take s (c.words s ps) = none) :
    ps = [] := by
  cases ps with
  | nil => rfl
  | cons p ps =>
    rw [words_cons, h.word] at hnone
    cases hnone

end Reads

end Code

end Framing
