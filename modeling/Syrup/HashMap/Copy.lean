import Syrup.HashMap.FiniteMap

/-!
# Copies of hash sets

The records of a set are put into a list by a `foreach`, and another set is made of the list. The
set made is another table, but has the same records (`insertAll_perm`).
-/

namespace Syrup

open HashSet

namespace Exec

universe u

variable {α β : Type u}

/-- The loop `for (a in l) list = list + f(a);` returns if each round does, and what it returns is
    what the rounds return, one after the other. -/
theorem foldlM_append {f : α → Exec (List β)} {l : List α} {acc out : List β} :
    l.foldlM (fun acc a => do return acc ++ (← f a)) acc = .ok out ↔
      ∃ g : α → List β, (∀ a ∈ l, f a = .ok (g a)) ∧ out = acc ++ l.flatMap g := by
  induction l generalizing acc with
  | nil =>
    rw [List.foldlM_nil, pure_eq_ok]
    constructor
    · rintro rfl
      exact ⟨fun _ => [], nofun, (List.append_nil _).symm⟩
    · rintro ⟨g, -, rfl⟩
      exact (List.append_nil _).symm
  | cons a l ih =>
    rw [List.foldlM_cons, bind_eq_ok]
    constructor
    · rintro ⟨acc₁, h₁, h⟩
      obtain ⟨e, he, h₁⟩ := bind_eq_ok.1 h₁
      rw [pure_eq_ok] at h₁
      subst h₁
      obtain ⟨g, hg, rfl⟩ := ih.1 h
      -- What a round returns does not depend on what is there already.
      have hsame (b : α) (hb : b ∈ a :: l) : f b = .ok ((f b).toOption.getD []) := by
        rcases List.mem_cons.1 hb with rfl | hb
        · rw [he]
          rfl
        · rw [hg b hb]
          rfl
      have hga : ∀ b ∈ l, g b = (f b).toOption.getD [] := fun b hb => by
        rw [hg b hb]
        rfl
      refine ⟨fun b => (f b).toOption.getD [], hsame, ?_⟩
      rw [List.flatMap_cons, List.flatMap_congr hga, List.append_assoc, he]
      rfl
    · rintro ⟨g, hg, rfl⟩
      refine ⟨acc ++ g a, bind_eq_ok.2 ⟨g a, hg a List.mem_cons_self, rfl⟩, ih.2 ⟨g, fun b hb =>
        hg b (List.mem_cons_of_mem _ hb), ?_⟩⟩
      rw [List.flatMap_cons, List.append_assoc]

end Exec

variable {R K : Type}

/-! ## Listing the records -/

section Foreach

variable {σ : Type}

/-- A `foreach` whose callback only reads, and may fault. -/
theorem hashSetU16Foreach_readM (g : R → σ → Exec σ) (set : HashSet R) (ctx : σ) :
    hashSetU16Foreach (fun r c => do return (r, ← g r c)) set ctx = do
      return (set, ← set.records.foldlM (fun c r => g r c) ctx) := by
  have hsweep (body : Fin set.capacity → Slot R → σ → Exec (Sweep.Out (Slot R) σ))
      (hbody : ∀ i s c, body i s c = do
        return { cell := s, state := ← s.record?.elim (.ok c) (g · c), stop := false })
      (l : List (Fin set.capacity)) (c : σ) :
      Sweep.sweep body l set.slots c = do
        return (set.slots,
          ← ((l.map set.slots).filterMap Slot.record?).foldlM (fun c r => g r c) c) := by
    induction l generalizing c with
    | nil => rfl
    | cons i l ih =>
      -- The cell is written as it was.
      have hgo (c₁ : σ) : (if false = true then .ok (Function.update set.slots i (set.slots i), c₁)
          else Sweep.sweep body l (Function.update set.slots i (set.slots i)) c₁ : Exec _) = do
            return (set.slots,
              ← ((l.map set.slots).filterMap Slot.record?).foldlM (fun c r => g r c) c₁) := by
        rw [if_neg Bool.false_ne_true, Function.update_eq_self]
        exact ih c₁
      rw [Sweep.sweep, hbody, List.map_cons]
      cases hr : (set.slots i).record? with
      | none =>
        rw [List.filterMap_cons_none hr, Option.elim_none]
        exact hgo c
      | some r =>
        rw [List.filterMap_cons_some hr, Option.elim_some, List.foldlM_cons]
        cases hg : g r c with
        | error e => rfl
        | ok c₁ => exact hgo c₁
  rw [hashSetU16Foreach, hsweep _ (fun i s c => by
    cases s with
    | occupied r =>
      simp only [Slot.record?_occupied, Option.elim_some]
      cases g r c <;> rfl
    | _ => rfl), ← List.ofFn_eq_map, ← slotList, ← records]
  cases set.records.foldlM (fun c r => g r c) ctx <;> rfl

/-- A list of what each record is made into. -/
theorem hashSetU16Foreach_list (g : R → Exec (List σ)) (set : HashSet R) :
    hashSetU16Foreach (fun r l => do return (r, l ++ (← g r))) set [] = do
      return (set, ← set.records.foldlM (fun l r => do return l ++ (← g r)) []) := by
  rw [← hashSetU16Foreach_readM (fun r l => do return l ++ (← g r))]
  simp only [bind_assoc, pure_bind]

variable [DecidableEq K] {h : Hashing R K} {set : HashSet R}

/-- The loop, with a callback that lists the records. -/
theorem foreachLoop_list (alloc : Bool) (set : HashSet R) {l : List (Slot R)} {i : ℕ}
    (hd : set.slotList.drop i = l) (acc : List R) :
    foreachLoop h alloc (fun r acc => ([], acc ++ [r])) (List.range' i l.length) set acc =
      .ok (set, acc ++ l.filterMap Slot.record?) := by
  induction l generalizing i acc with
  | nil => exact congrArg (fun l => Except.ok (set, l)) (List.append_nil acc).symm
  | cons s l ih =>
    obtain ⟨⟨hi, hs⟩, hd'⟩ := slots_of_drop hd
    rw [List.length_cons, List.range'_succ, foreachLoop, dif_pos hi, hs]
    cases s with
    | free => exact ih hd' acc
    | deleted => exact ih hd' acc
    | occupied r =>
      simp only [removeAll]
      rw [ih hd', List.filterMap_cons_some (Slot.record?_occupied r), List.append_assoc]
      rfl

/-- A list of the records. -/
theorem hashSetU32Foreach_list (hw : set.WF h) (alloc : Bool) :
    ∃ set', hashSetU32Foreach h alloc (fun r l => ([], l ++ [r])) set [] =
      .ok (set', set.records) := by
  have hrange : List.range set.capacity = List.range' 0 set.slotList.length := by
    rw [length_slotList, List.range_eq_range']
  have hloop : foreachLoop h alloc (fun r l => ([], l ++ [r])) (List.range set.capacity)
      { set with iterating := true } [] = .ok ({ set with iterating := true }, set.records) := by
    rw [hrange]
    exact foreachLoop_list alloc { set with iterating := true } List.drop_zero []
  have hw' : HashSet.WF h { set with iterating := false } := ⟨hw.count_eq, hw.chained⟩
  obtain ⟨set', hs', -⟩ := shrink_spec hw' alloc
  refine ⟨set', ?_⟩
  rw [hashSetU32Foreach, hloop]
  simp only [hs']

end Foreach

/-! ## Making a set of a list -/

/-- An insertion whose result is not looked at. -/
def insertRecord (h : Hashing R K) (alloc : Bool) (set : HashSet R) (r : R) : Exec (HashSet R) := do
  let (_, set) ← hashSetInsert h alloc set r
  return set

variable {h : Hashing R K} {set : HashSet R} {m : K → Option R}

theorem insertRecord_spec (hw : set.WF h) (r : R) :
    ∃ set', insertRecord h true set r = .ok set' ∧ set'.WF h ∧
      set'.entries = r ::ₘ set.entries := by
  obtain ⟨ok, set', hins, hw', he, -, hok, -⟩ := hashSetInsert_spec hw true r
  exact ⟨set', Exec.bind_eq_ok.2 ⟨(ok, set'), hins, rfl⟩, hw', he (hok rfl)⟩

theorem insertAll_spec (hw : set.WF h) (l : List R) :
    ∃ set', l.foldlM (insertRecord h true) set = .ok set' ∧ set'.WF h ∧
      set'.entries = ↑l + set.entries := by
  induction l generalizing set with
  | nil => exact ⟨set, rfl, hw, (zero_add _).symm⟩
  | cons r l ih =>
    obtain ⟨set₁, h₁, hw₁, he₁⟩ := insertRecord_spec hw r
    obtain ⟨set', hset', hw', he'⟩ := ih hw₁
    refine ⟨set', ?_, hw', ?_⟩
    · rw [List.foldlM_cons]
      exact Exec.bind_eq_ok.2 ⟨set₁, h₁, hset'⟩
    · rw [he', he₁, ← Multiset.cons_coe, ← Multiset.singleton_add, ← Multiset.singleton_add]
      abel

/-- A set made of a list has the records that are in the list. -/
theorem insertAll_perm (l : List R) :
    ∃ set', l.foldlM (insertRecord h true) hashSetInit = .ok set' ∧ set'.records.Perm l := by
  obtain ⟨set', hset', -, he⟩ := insertAll_spec (h := h) hashSetInit_wf l
  refine ⟨set', hset', Multiset.coe_eq_coe.1 ?_⟩
  rw [hashSetInit_entries, add_zero, ← listEntries_slotList] at he
  exact he

end Syrup
