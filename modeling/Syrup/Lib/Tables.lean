import Mathlib.Tactic

/-!
# Tables

A table of a relational database: rows `ρ` by their primary keys `κ`, of which no two are the same
(`Table`). Rows are deleted (`Table.filter`), changed (`Table.change`) and written (`Table.put`).

A table tells what is under a key (`Table.get?`), and the lemmas about what it tells after each of these
are all that is needed to know about it.
-/

namespace Relational

/-- A table with its primary key. -/
structure Table (κ ρ : Type*) where
  rows : List (κ × ρ)
  nodup : (rows.map Prod.fst).Nodup

namespace Table

variable {κ ρ : Type*} {t : Table κ ρ} {k k' : κ} {r r' : ρ}

/-- There are no rows. -/
def empty : Table κ ρ := ⟨[], List.nodup_nil⟩

/-- The rows of a list, if no two keys are the same. -/
def ofList (l : List (κ × ρ)) (h : (l.map Prod.fst).Nodup) : Table κ ρ := ⟨l, h⟩

/-- `DELETE`, of all rows but these. -/
def filter (t : Table κ ρ) (p : κ → ρ → Bool) : Table κ ρ where
  rows := t.rows.filter fun row => p row.1 row.2
  nodup := t.nodup.sublist (List.filter_sublist.map _)

/-- `UPDATE`. -/
def change (t : Table κ ρ) (f : κ → ρ → ρ) : Table κ ρ where
  rows := t.rows.map fun row => (row.1, f row.1 row.2)
  nodup := by
    rw [List.map_map]
    exact t.nodup

/-- Whether there is a row that meets a condition. -/
def any (t : Table κ ρ) (p : κ → ρ → Bool) : Bool := t.rows.any fun row => p row.1 row.2

section

variable [DecidableEq κ]

/-- The row with this key. -/
def get? (t : Table κ ρ) (k : κ) : Option ρ :=
  t.rows.findSome? fun row => if row.1 = k then some row.2 else none

/-- Whether there is a row with this key. -/
def has (t : Table κ ρ) (k : κ) : Bool := (t.get? k).isSome

/-- A row is written, in place of that with its key if there is one. -/
def put (t : Table κ ρ) (k : κ) (r : ρ) : Table κ ρ where
  rows := (k, r) :: t.rows.filter fun row => row.1 ≠ k
  nodup := by
    rw [List.map_cons, List.nodup_cons]
    refine ⟨fun h => ?_, t.nodup.sublist (List.filter_sublist.map _)⟩
    obtain ⟨row, hrow, rfl⟩ := List.mem_map.1 h
    exact of_decide_eq_true (List.mem_filter.1 hrow).2 rfl

/-- What is under a key. -/
theorem get?_eq_some : t.get? k = some r ↔ (k, r) ∈ t.rows := by
  obtain ⟨rows, hnodup⟩ := t
  change rows.findSome? _ = _ ↔ (k, r) ∈ rows
  induction rows with
  | nil => simp
  | cons row rows ih =>
    rw [List.map_cons, List.nodup_cons] at hnodup
    rw [List.findSome?_cons, List.mem_cons]
    obtain ⟨k', r'⟩ := row
    by_cases hk : k' = k
    · subst hk
      rw [if_pos rfl]
      refine ⟨fun h => .inl (congrArg (Prod.mk k') (Option.some.inj h).symm), fun h => ?_⟩
      rcases h with h | h
      · rw [(Prod.mk.inj h).2]
      · exact absurd (List.mem_map_of_mem h) hnodup.1
    · rw [if_neg hk]
      refine (ih hnodup.2).trans ⟨.inr, fun h => ?_⟩
      rcases h with h | h
      · exact absurd (Prod.mk.inj h).1.symm hk
      · exact h

theorem has_iff : t.has k = true ↔ ∃ r, t.get? k = some r := Option.isSome_iff_exists

@[simp] theorem get?_empty : (empty : Table κ ρ).get? k = none := rfl

theorem any_iff {p : κ → ρ → Bool} : t.any p = true ↔ ∃ k r, t.get? k = some r ∧ p k r = true := by
  rw [any, List.any_eq_true]
  exact ⟨fun ⟨row, hrow, hp⟩ => ⟨row.1, row.2, get?_eq_some.2 hrow, hp⟩,
    fun ⟨k, r, hr, hp⟩ => ⟨(k, r), get?_eq_some.1 hr, hp⟩⟩

theorem get?_filter (t : Table κ ρ) (p : κ → ρ → Bool) (k : κ) :
    (t.filter p).get? k = (t.get? k).filter (p k) := by
  ext r
  rw [get?_eq_some, Option.filter_eq_some_iff, get?_eq_some]
  exact List.mem_filter

theorem get?_filter_eq_some {p : κ → ρ → Bool} :
    (t.filter p).get? k = some r ↔ t.get? k = some r ∧ p k r = true := by
  rw [get?_filter, Option.filter_eq_some_iff]

theorem get?_change (t : Table κ ρ) (f : κ → ρ → ρ) (k : κ) :
    (t.change f).get? k = (t.get? k).map (f k) := by
  ext r
  rw [get?_eq_some, Option.map_eq_some_iff]
  refine List.mem_map.trans ⟨fun ⟨row, hrow, heq⟩ => ?_, fun ⟨r', hr', heq⟩ => ?_⟩
  · obtain ⟨rfl, rfl⟩ := Prod.mk.inj heq
    exact ⟨row.2, get?_eq_some.2 hrow, rfl⟩
  · exact ⟨(k, r'), get?_eq_some.1 hr', by rw [heq]⟩

theorem get?_change_eq_some {f : κ → ρ → ρ} :
    (t.change f).get? k = some r ↔ ∃ r', t.get? k = some r' ∧ f k r' = r := by
  rw [get?_change, Option.map_eq_some_iff]

@[simp] theorem get?_put_self : (t.put k r).get? k = some r :=
  get?_eq_some.2 List.mem_cons_self

theorem get?_put_of_ne (h : k' ≠ k) : (t.put k r).get? k' = t.get? k' := by
  ext r'
  rw [get?_eq_some, get?_eq_some]
  refine List.mem_cons.trans ⟨fun hmem => ?_, fun hmem => .inr (List.mem_filter.2 ⟨hmem, decide_eq_true h⟩)⟩
  rcases hmem with heq | hmem
  · exact absurd (Prod.mk.inj heq).1 h
  · exact (List.mem_filter.1 hmem).1

/-- A row with a key that is not there yet comes before all others. -/
theorem rows_put (h : t.get? k = none) : (t.put k r).rows = (k, r) :: t.rows := by
  refine congrArg ((k, r) :: ·) (List.filter_eq_self.2 fun row hrow => decide_eq_true fun heq => ?_)
  have hget : t.get? k = some row.2 := get?_eq_some.2 (heq ▸ hrow)
  rw [h] at hget
  cases hget

/-- Rows are written under keys of which no two are the same. What is written may depend on what is there. -/
theorem foldlM_put {α : Type*} {f : Table κ ρ → α → Option (Table κ ρ)} {key : α → κ}
    {P : α → ρ → Prop} {l : List α} (hl : (l.map key).Nodup)
    (hf : ∀ a ∈ l, ∀ u : Table κ ρ, u.get? (key a) = t.get? (key a) →
      ∃ r, f u a = some (u.put (key a) r) ∧ P a r) :
    ∃ u, l.foldlM f t = some u ∧ (∀ a ∈ l, ∃ r, u.get? (key a) = some r ∧ P a r) ∧
      ∀ k, (∀ a ∈ l, key a ≠ k) → u.get? k = t.get? k := by
  induction l generalizing t with
  | nil => exact ⟨t, rfl, nofun, fun _ _ => rfl⟩
  | cons a l ih =>
    rw [List.map_cons, List.nodup_cons] at hl
    obtain ⟨r, hr, hP⟩ := hf a List.mem_cons_self t rfl
    have hne : ∀ b ∈ l, key b ≠ key a := fun b hb heq => hl.1 (heq ▸ List.mem_map_of_mem hb)
    obtain ⟨u, hu, hrows, hkept⟩ := ih (t := t.put (key a) r) hl.2 fun b hb u hget =>
      hf b (List.mem_cons_of_mem _ hb) u (hget.trans (get?_put_of_ne (hne b hb)))
    refine ⟨u, ?_, fun b hb => ?_, fun k hk => ?_⟩
    · rw [List.foldlM_cons, hr]
      exact hu
    · rcases List.mem_cons.1 hb with rfl | hb
      · exact ⟨r, (hkept _ hne).trans get?_put_self, hP⟩
      · exact hrows b hb
    · rw [hkept k fun b hb => hk b (List.mem_cons_of_mem _ hb)]
      exact get?_put_of_ne (hk a List.mem_cons_self).symm

end

end Table

end Relational
