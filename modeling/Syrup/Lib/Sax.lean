import Mathlib.Tactic

/-!
# Documents that are parsed by their tags

A document is a tree of elements. A parser gets the start tag of an element, then what is in the element, and
then its end tag (`Element.events`). Between the tags it has only its state, and it may stop the parsing.

Elements that leave the state as it was are those that are skipped by counting how deep one is in them
(`Parser.run_skipped`). What is in an element is parsed child by child (`Parser.run_element`, `Parser.run_forest`).
-/

namespace Sax

variable {α S ε : Type}

/-- An element: what its start tag says, and what is in it. -/
inductive Element (α : Type)
  | node (tag : α) (children : List (Element α))

/-- A tag. -/
inductive Event (α : Type)
  | start (tag : α)
  | stop

namespace Element

/-- What the start tag says. -/
def tag : Element α → α
  | node t _ => t

/-- The elements in it. -/
def children : Element α → List (Element α)
  | node _ cs => cs

mutual

/-- The tags of an element, in the order of the document. -/
def events : Element α → List (Event α)
  | node t cs => .start t :: (forest cs ++ [.stop])

/-- The tags of some elements. -/
def forest : List (Element α) → List (Event α)
  | [] => []
  | c :: cs => c.events ++ forest cs

end

theorem forest_append (l l' : List (Element α)) : forest (l ++ l') = forest l ++ forest l' := by
  induction l with
  | nil => rfl
  | cons c l ih => rw [List.cons_append, forest, forest, ih, List.append_assoc]

end Element

/-- A parser: what it does at tags, and whether it has stopped the parsing. -/
structure Parser (α S ε : Type) where
  start : α → S → Except ε S
  stop : S → Except ε S
  stopped : S → Bool

namespace Parser

variable (p : Parser α S ε)

/-- A tag. -/
def handle (s : S) : Event α → Except ε S
  | .start t => p.start t s
  | .stop => p.stop s

/-- Tags, as long as the parsing has not been stopped. -/
def run (l : List (Event α)) (s : S) : Except ε S :=
  l.foldlM (fun s e => if p.stopped s then .ok s else p.handle s e) s

theorem run_nil (s : S) : p.run [] s = .ok s := rfl

variable {p}

theorem run_cons {s s' : S} {e : Event α} {l : List (Event α)} (h : p.stopped s = false)
    (he : p.handle s e = .ok s') : p.run (e :: l) s = p.run l s' := by
  rw [run, List.foldlM_cons, h, if_neg Bool.false_ne_true, he]
  rfl

theorem run_append {s s' : S} {l l' : List (Event α)} (h : p.run l s = .ok s') :
    p.run (l ++ l') s = p.run l' s' := by
  rw [run, List.foldlM_append]
  rw [run] at h
  rw [h]
  rfl

/-- Nothing is read any more. -/
theorem run_stopped {s : S} (h : p.stopped s = true) (l : List (Event α)) : p.run l s = .ok s := by
  induction l with
  | nil => rfl
  | cons e l ih =>
    rw [run, List.foldlM_cons, h, if_pos rfl]
    exact ih

/-- An element is parsed by its start tag, what is in it, and its end tag. -/
theorem run_element {e : Element α} {s s₁ s₂ : S} (hs : p.stopped s = false)
    (hstart : p.start e.tag s = .ok s₁) (hforest : p.run (Element.forest e.children) s₁ = .ok s₂)
    (hs₂ : p.stopped s₂ = false) : p.run e.events s = p.stop s₂ := by
  obtain ⟨t, cs⟩ := e
  change p.start t s = .ok s₁ at hstart
  change p.run (Element.forest cs) s₁ = .ok s₂ at hforest
  rw [Element.events, run_cons (e := .start t) hs hstart, run_append hforest]
  cases hstop : p.stop s₂ with
  | error e =>
    rw [run, List.foldlM_cons, hs₂, if_neg Bool.false_ne_true, handle, hstop]
    rfl
  | ok s₃ =>
    rw [run_cons (e := .stop) hs₂ hstop]
    rfl

/-- Elements are parsed one by one: if each of them does `f` to the states that meet `I`, and these go on to
    meet it, all do what `f` does. -/
theorem run_forest {I : S → Prop} {f : S → Element α → S} {cs : List (Element α)}
    (h : ∀ c ∈ cs, ∀ s, I s → p.run c.events s = .ok (f s c) ∧ I (f s c)) {s : S} (hs : I s) :
    p.run (Element.forest cs) s = .ok (cs.foldl f s) ∧ I (cs.foldl f s) := by
  induction cs generalizing s with
  | nil => exact ⟨rfl, hs⟩
  | cons c cs ih =>
    obtain ⟨hc, hI⟩ := h c List.mem_cons_self s hs
    rw [Element.forest, run_append hc]
    exact ih (fun c hc => h c (List.mem_cons_of_mem _ hc)) hI

/-- Elements each of which leaves the state as it was leave it as it was. -/
theorem run_forest_kept {cs : List (Element α)} {s : S} (h : ∀ c ∈ cs, p.run c.events s = .ok s) :
    p.run (Element.forest cs) s = .ok s := by
  induction cs with
  | nil => rfl
  | cons c cs ih =>
    rw [Element.forest, run_append (h c List.mem_cons_self)]
    exact ih fun c hc => h c (List.mem_cons_of_mem _ hc)

/-- The same for what is known of the state, which is `I` and depends on the elements before it. -/
theorem run_forest_prefix {I : List (Element α) → S → Prop} {b cs : List (Element α)}
    (h : ∀ l c l', b ++ cs = l ++ c :: l' → ∀ s, I l s → ∃ s', p.run c.events s = .ok s' ∧ I (l ++ [c]) s')
    {s : S} (hs : I b s) : ∃ s', p.run (Element.forest cs) s = .ok s' ∧ I (b ++ cs) s' := by
  induction cs generalizing b s with
  | nil => exact ⟨s, rfl, by rwa [List.append_nil]⟩
  | cons c cs ih =>
    obtain ⟨s₁, hrun, hs₁⟩ := h b c cs rfl s hs
    rw [List.append_cons] at h ⊢
    obtain ⟨s₂, hrun₂, hs₂⟩ := ih h hs₁
    exact ⟨s₂, by rw [Element.forest, run_append hrun, hrun₂], hs₂⟩

/-- Here it depends on what has been collected from them. -/
theorem run_forest_collect {β : Type} {I : List β → S → Prop} {g : Element α → List β}
    {cs : List (Element α)}
    (h : ∀ c ∈ cs, ∀ l s, I l s → ∃ s', p.run c.events s = .ok s' ∧ I (l ++ g c) s') {l : List β} {s : S}
    (hs : I l s) : ∃ s', p.run (Element.forest cs) s = .ok s' ∧ I (l ++ cs.flatMap g) s' := by
  refine run_forest_prefix (I := fun cs s => I (l ++ cs.flatMap g) s) (b := []) (fun cs₁ c cs₂ hcs s hs => ?_)
    (by rwa [List.flatMap_nil, List.append_nil])
  rw [List.nil_append] at hcs
  obtain ⟨s', hrun, hs'⟩ := h c (hcs ▸ List.mem_append_right _ List.mem_cons_self) _ s hs
  refine ⟨s', hrun, ?_⟩
  rwa [List.flatMap_append, List.flatMap_singleton, ← List.append_assoc]

/-- States in which a parser skips: it only counts how deep it is. -/
structure Skips (p : Parser α S ε) (I : S → Prop) (deeper : S → S) : Prop where
  running : ∀ s, I s → p.stopped s = false
  kept : ∀ s, I s → I (deeper s)
  start : ∀ t s, I s → p.start t s = .ok (deeper s)
  stop : ∀ s, I s → p.stop (deeper s) = .ok s

mutual

/-- An element that is skipped leaves the state as it was. -/
theorem Skips.run_skipped {I : S → Prop} {deeper : S → S} (h : Skips p I deeper) (e : Element α) {s : S}
    (hs : I s) : p.run e.events s = .ok s := by
  match e with
  | .node t cs =>
    have hdeeper := h.kept s hs
    rw [run_element (e := .node t cs) (h.running s hs) (h.start t s hs) (h.run_skipped_forest cs hdeeper) (h.running _ hdeeper)]
    exact h.stop s hs

/-- So do several. -/
theorem Skips.run_skipped_forest {I : S → Prop} {deeper : S → S} (h : Skips p I deeper)
    (cs : List (Element α)) {s : S} (hs : I s) : p.run (Element.forest cs) s = .ok s := by
  match cs with
  | [] => rfl
  | c :: cs =>
    rw [Element.forest, run_append (h.run_skipped c hs)]
    exact h.run_skipped_forest cs hs

end

end Parser

/-! ## What is written last -/

/-- What is written to a part of a record by the entries of a list: the last entry that writes to it counts. -/
theorem foldl_written {R A X : Type} {step : R → A → R} {p : R → X} {writes : A → Option X} {l : List A}
    (h : ∀ a ∈ l, ∀ r, p (step r a) = (writes a).getD (p r)) (r : R) :
    p (l.foldl step r) = (l.reverse.findSome? writes).getD (p r) := by
  induction l generalizing r with
  | nil => rfl
  | cons a l ih =>
    rw [List.foldl_cons, ih fun a ha => h a (List.mem_cons_of_mem _ ha), h a List.mem_cons_self,
      List.reverse_cons, List.findSome?_append, List.findSome?_singleton]
    cases l.reverse.findSome? writes with
    | none => rfl
    | some x => rfl

end Sax
