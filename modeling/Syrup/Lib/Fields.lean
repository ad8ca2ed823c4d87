import Syrup.Lib.Wire

/-!
# Fields that are read or skipped

A reader goes through some bytes field by field. To read a field it looks whether all of it is there, but it skips
without looking: bytes that are skipped may be missing, which is found out only if something is read after them.

So fields can be read if as many bytes are there as the last field that is read needs (`readFields_eq_none`), which may
be fewer than the fields have (`widthOf`). Where all are there, it does not matter what comes after them
(`readFields_append`).

Records begin with a byte that says which fields they have. Some of them are `recordsRead`; if all of these are there
(`Whole`), they are the records that the bytes consist of.
-/

namespace Fields

open Wire

/-- What is done with some bytes. -/
inductive Field
  | skip (n : ℕ)
  | num (format : Format)

/-- How many bytes fields have. -/
def widthOf : List Field → ℕ
  | [] => 0
  | .skip n :: fs => n + widthOf fs
  | .num format :: fs => format.width + widthOf fs

/-- How many bytes it takes to read fields: those up to the end of the last one that is not skipped. -/
def needs : List Field → ℕ
  | [] => 0
  | .skip n :: fs => if needs fs = 0 then 0 else n + needs fs
  | .num format :: fs => format.width + needs fs

/-- The numbers that are read, and the bytes after the fields. Of bytes that are skipped beyond the end none are
    left. -/
def readFields : List Field → List UInt8 → Option (List ℤ × List UInt8)
  | [], bs => some ([], bs)
  | .skip n :: fs, bs => readFields fs (bs.drop n)
  | .num format :: fs, bs => do
    let (v, bs) ← format.read bs
    let (vs, bs) ← readFields fs bs
    return (v :: vs, bs)

/-- How many numbers are read. -/
def numbersIn : List Field → ℕ
  | [] => 0
  | .skip _ :: fs => numbersIn fs
  | .num _ :: fs => numbersIn fs + 1

theorem needs_le_widthOf (fs : List Field) : needs fs ≤ widthOf fs := by
  induction fs with
  | nil => exact le_rfl
  | cons f fs ih =>
    cases f with
    | skip n =>
      rw [needs, widthOf]
      split <;> omega
    | num format =>
      rw [needs, widthOf]
      omega

/-- After the fields there is what is left of the bytes. -/
theorem readFields_rest {fs : List Field} {bs rest : List UInt8} {vs : List ℤ}
    (h : readFields fs bs = some (vs, rest)) : rest = bs.drop (widthOf fs) := by
  induction fs generalizing bs vs with
  | nil =>
    cases h
    rfl
  | cons f fs ih =>
    cases f with
    | skip n =>
      rw [ih h, List.drop_drop, widthOf]
    | num format =>
      obtain ⟨⟨v, bs'⟩, hread, h⟩ := Option.bind_eq_some_iff.1 h
      obtain ⟨⟨vs', rest'⟩, hrest, h⟩ := Option.bind_eq_some_iff.1 h
      cases h
      rw [Format.read] at hread
      split at hread
      · cases hread
        rw [ih hrest, List.drop_drop, widthOf]
      · cases hread

/-- As many numbers are read as there are fields that are read. -/
theorem length_readFields {fs : List Field} {bs rest : List UInt8} {vs : List ℤ}
    (h : readFields fs bs = some (vs, rest)) : vs.length = numbersIn fs := by
  induction fs generalizing bs vs with
  | nil =>
    cases h
    rfl
  | cons f fs ih =>
    cases f with
    | skip n => exact ih h
    | num format =>
      obtain ⟨⟨v, bs'⟩, _, h⟩ := Option.bind_eq_some_iff.1 h
      obtain ⟨⟨vs', rest'⟩, hrest, h⟩ := Option.bind_eq_some_iff.1 h
      cases h
      rw [List.length_cons, ih hrest, numbersIn]

/-- Fields can be read exactly if the bytes that this takes are there. -/
theorem readFields_eq_none {fs : List Field} {bs : List UInt8} :
    readFields fs bs = none ↔ bs.length < needs fs := by
  induction fs generalizing bs with
  | nil => exact iff_of_false (fun h => by cases h) (Nat.not_lt_zero _)
  | cons f fs ih =>
    cases f with
    | skip n =>
      rw [readFields, ih, needs, List.length_drop]
      split <;> omega
    | num format =>
      rw [readFields, Format.read, needs]
      split
      · rename_i hle
        have hrest := @ih (bs.drop format.width)
        rw [List.length_drop] at hrest
        cases hread : readFields fs (bs.drop format.width) with
        | none =>
          rw [hread] at hrest
          simp only [bind, Option.bind, hread, true_iff]
          have hlt := hrest.1 rfl
          omega
        | some r =>
          rw [hread] at hrest
          simp only [bind, Option.bind, hread]
          refine iff_of_false (fun h => by cases h) fun hlt => ?_
          have hnone := hrest.2 (by omega)
          cases hnone
      · exact iff_of_true rfl (by omega)

/-- What comes after fields that are there is not looked at. -/
theorem readFields_append {fs : List Field} {bs : List UInt8} (h : widthOf fs ≤ bs.length) (rest : List UInt8) :
    readFields fs (bs ++ rest) = (readFields fs bs).map fun r => (r.1, r.2 ++ rest) := by
  induction fs generalizing bs with
  | nil => rfl
  | cons f fs ih =>
    cases f with
    | skip n =>
      rw [widthOf] at h
      rw [readFields, readFields, List.drop_append_of_le_length (by omega), ih (by rw [List.length_drop]; omega)]
    | num format =>
      rw [widthOf] at h
      have hlen : format.width ≤ bs.length := by omega
      have hlen' : format.width ≤ (bs ++ rest).length := by
        rw [List.length_append]
        omega
      rw [readFields, readFields, Format.read, Format.read, if_pos hlen, if_pos hlen',
        List.take_append_of_le_length hlen, List.drop_append_of_le_length hlen]
      simp only [bind, Option.bind, ih (show widthOf fs ≤ (bs.drop format.width).length by
        rw [List.length_drop]; omega)]
      cases readFields fs (bs.drop format.width) with
      | none => rfl
      | some r => rfl

/-! ## Records -/

section Records

variable (fields : UInt8 → List Field) {σ : Type}

/-- Reads some records, and does something with the numbers of each; if a record cannot be read, nothing is left of the
    bytes. -/
def parse (apply : UInt8 → List ℤ → σ → σ) : ℕ → List UInt8 → σ → σ × Option (List UInt8)
  | 0, bs, s => (s, some bs)
  | _ + 1, [], s => (s, none)
  | n + 1, code :: bs, s =>
    match readFields (fields code) bs with
    | none => (s, none)
    | some (vs, bs) => parse apply n bs (apply code vs s)

/-- The first bytes of the records that can be read. -/
def recordsRead : ℕ → List UInt8 → List UInt8
  | 0, _ => []
  | _ + 1, [] => []
  | n + 1, code :: bs =>
    if needs (fields code) ≤ bs.length then code :: recordsRead n (bs.drop (widthOf (fields code))) else []

/-- How many bytes records have that begin like this. -/
def recordsSize (codes : List UInt8) : ℕ := (codes.map fun code => 1 + widthOf (fields code)).sum

/-- The bytes of some records. -/
def flat (rs : List (UInt8 × List UInt8)) : List UInt8 := rs.flatMap fun r => r.1 :: r.2

/-- All fields are there. -/
def Whole (rs : List (UInt8 × List UInt8)) : Prop := ∀ r ∈ rs, r.2.length = widthOf (fields r.1)

variable {fields} {apply : UInt8 → List ℤ → σ → σ} {n : ℕ} {bs : List UInt8} {s : σ}

theorem recordsSize_cons (code : UInt8) (codes : List UInt8) :
    recordsSize fields (code :: codes) = 1 + widthOf (fields code) + recordsSize fields codes := by
  rw [recordsSize, List.map_cons, List.sum_cons]
  rfl

theorem flat_cons (r : UInt8 × List UInt8) (rs : List (UInt8 × List UInt8)) :
    flat (r :: rs) = r.1 :: (r.2 ++ flat rs) :=
  List.flatMap_cons

/-- One more record, or none. -/
theorem recordsRead_cons {code : UInt8} : (bs.length < needs (fields code) ∧
      recordsRead fields (n + 1) (code :: bs) = [] ∧ parse fields apply (n + 1) (code :: bs) s = (s, none)) ∨
    ∃ vs, readFields (fields code) bs = some (vs, bs.drop (widthOf (fields code))) ∧
      recordsRead fields (n + 1) (code :: bs) = code :: recordsRead fields n (bs.drop (widthOf (fields code))) ∧
      parse fields apply (n + 1) (code :: bs) s =
        parse fields apply n (bs.drop (widthOf (fields code))) (apply code vs s) := by
  rw [recordsRead, parse]
  have hnone := @readFields_eq_none (fields code) bs
  cases hread : readFields (fields code) bs with
  | none =>
    rw [hread] at hnone
    have hlt := hnone.1 rfl
    exact .inl ⟨hlt, if_neg (not_le.2 hlt), rfl⟩
  | some r =>
    obtain ⟨vs, rest⟩ := r
    rw [hread] at hnone
    have hle : needs (fields code) ≤ bs.length := by
      by_contra hlt
      have := hnone.2 (not_le.1 hlt)
      cases this
    have hrest := readFields_rest hread
    rw [hrest]
    exact .inr ⟨vs, rfl, if_pos hle, rfl⟩

/-- Bytes are left exactly if all records can be read; they are those after them. -/
theorem parse_rest : (parse fields apply n bs s).2 =
    if (recordsRead fields n bs).length = n then
      some (bs.drop (recordsSize fields (recordsRead fields n bs))) else none := by
  induction n generalizing bs s with
  | zero =>
    rw [parse, recordsRead, recordsSize]
    rfl
  | succ n ih =>
    cases bs with
    | nil =>
      rw [parse, recordsRead]
      rfl
    | cons code bs =>
      obtain ⟨_, hnil, hparse⟩ | ⟨vs, _, hcons, hparse⟩ := @recordsRead_cons fields σ apply n bs s code
      · rw [hnil, hparse]
        rfl
      · rw [hcons, hparse, ih, List.length_cons, recordsSize_cons]
        simp only [Nat.add_right_cancel_iff, List.drop_drop]
        rw [Nat.add_assoc, Nat.add_comm 1, List.drop_succ_cons]

/-- What every record keeps, all keep. -/
theorem parse_invariant {I : σ → Prop} (hs : I s)
    (h : ∀ code ∈ recordsRead fields n bs, ∀ bs' rest vs s, readFields (fields code) bs' = some (vs, rest) → I s →
      I (apply code vs s)) : I (parse fields apply n bs s).1 := by
  induction n generalizing bs s with
  | zero => exact hs
  | succ n ih =>
    cases bs with
    | nil => exact hs
    | cons code bs =>
      obtain ⟨_, _, hparse⟩ | ⟨vs, hread, hcons, hparse⟩ := @recordsRead_cons fields σ apply n bs s code
      · rw [hparse]
        exact hs
      · rw [hcons] at h
        obtain ⟨hcode, h⟩ := List.forall_mem_cons.1 h
        rw [hparse]
        exact ih (hcode _ _ _ _ hread hs) h

/-- What every record adds its bytes to counts the bytes of all. -/
theorem parse_count {f : σ → ℕ} (h : ∀ code vs s, f (apply code vs s) = f s + (1 + widthOf (fields code))) :
    f (parse fields apply n bs s).1 = f s + recordsSize fields (recordsRead fields n bs) := by
  induction n generalizing bs s with
  | zero => rfl
  | succ n ih =>
    cases bs with
    | nil => rfl
    | cons code bs =>
      obtain ⟨_, hnil, hparse⟩ | ⟨vs, _, hcons, hparse⟩ := @recordsRead_cons fields σ apply n bs s code
      · rw [hnil, hparse]
        rfl
      · rw [hcons, hparse, ih, h, recordsSize_cons, Nat.add_assoc]

/-- What follows from the bytes once, follows from them from then on. -/
theorem parse_congr {τ : Type} {g : σ → τ} {s' : σ} (hs : g s = g s')
    (h : ∀ code vs s s', g s = g s' → g (apply code vs s) = g (apply code vs s')) :
    g (parse fields apply n bs s).1 = g (parse fields apply n bs s').1 := by
  induction n generalizing bs s s' with
  | zero => exact hs
  | succ n ih =>
    cases bs with
    | nil => exact hs
    | cons code bs =>
      rw [parse, parse]
      cases readFields (fields code) bs with
      | none => exact hs
      | some r => exact ih (h code r.1 s s' hs)

/-- If one of the records determines something, it follows from the bytes. -/
theorem parse_determined {τ : Type} {g : σ → τ} {s' : σ} {Sets : UInt8 → Prop}
    (h : ∀ code vs s s', g s = g s' → g (apply code vs s) = g (apply code vs s'))
    (hsets : ∀ code bs vs rest s s', Sets code → readFields (fields code) bs = some (vs, rest) →
      g (apply code vs s) = g (apply code vs s'))
    (hcode : ∃ code ∈ recordsRead fields n bs, Sets code) :
    g (parse fields apply n bs s).1 = g (parse fields apply n bs s').1 := by
  induction n generalizing bs s s' with
  | zero =>
    obtain ⟨_, hmem, _⟩ := hcode
    exact absurd hmem List.not_mem_nil
  | succ n ih =>
    cases bs with
    | nil =>
      obtain ⟨_, hmem, _⟩ := hcode
      exact absurd hmem List.not_mem_nil
    | cons code bs =>
      obtain ⟨sets, hmem, hset⟩ := hcode
      obtain ⟨_, hnil, _⟩ | ⟨vs, hread, hcons, _⟩ := @recordsRead_cons fields σ apply n bs s code
      · rw [hnil] at hmem
        exact absurd hmem List.not_mem_nil
      · rw [parse, parse, hread]
        rw [hcons] at hmem
        rcases List.mem_cons.1 hmem with rfl | hmem
        · exact parse_congr (hsets _ _ _ _ s s' hset hread) h
        · exact ih ⟨sets, hmem, hset⟩

/-! ### Whole records -/

/-- The numbers in a record. -/
def numbers (fields : UInt8 → List Field) (r : UInt8 × List UInt8) : List ℤ :=
  (readFields (fields r.1) r.2).elim [] Prod.fst

variable {rs : List (UInt8 × List UInt8)} {rest : List UInt8}

theorem length_flat (h : Whole fields rs) : (flat rs).length = recordsSize fields (rs.map Prod.fst) := by
  induction rs with
  | nil => rfl
  | cons r rs ih =>
    obtain ⟨hr, hrs⟩ := List.forall_mem_cons.1 h
    rw [flat_cons, List.length_cons, List.length_append, ih hrs, hr, List.map_cons, recordsSize_cons]
    omega

/-- Records that are whole are read. -/
theorem recordsRead_flat (h : Whole fields rs) :
    recordsRead fields rs.length (flat rs ++ rest) = rs.map Prod.fst := by
  induction rs with
  | nil => rfl
  | cons r rs ih =>
    obtain ⟨hr, hrs⟩ := List.forall_mem_cons.1 h
    have hneeds := needs_le_widthOf (fields r.1)
    rw [flat_cons, List.cons_append, List.append_assoc, List.length_cons, recordsRead,
      if_pos (by rw [List.length_append]; omega), List.drop_left' hr,
      ih hrs, List.map_cons]

/-- What is done with the numbers of whole records. -/
theorem parse_flat (h : Whole fields rs) : parse fields apply rs.length (flat rs ++ rest) s =
    (rs.foldl (fun s r => apply r.1 (numbers fields r) s) s, some rest) := by
  induction rs generalizing s with
  | nil => rfl
  | cons r rs ih =>
    obtain ⟨hr, hrs⟩ := List.forall_mem_cons.1 h
    have hread := @readFields_append (fields r.1) r.2 hr.ge (flat rs ++ rest)
    rw [flat_cons, List.cons_append, List.append_assoc, List.length_cons, parse, hread, List.foldl_cons, numbers]
    cases hown : readFields (fields r.1) r.2 with
    | none =>
      have hlt := readFields_eq_none.1 hown
      have hneeds := needs_le_widthOf (fields r.1)
      omega
    | some own =>
      obtain ⟨vs, left⟩ := own
      have hleft : left = [] := by
        rw [readFields_rest hown, List.drop_eq_nil_iff]
        exact hr.le
      rw [hleft]
      exact ih hrs

/-- Records that can be read, all of whose bytes are there, are whole. -/
theorem exists_flat (hall : (recordsRead fields n bs).length = n)
    (hsize : recordsSize fields (recordsRead fields n bs) ≤ bs.length) :
    ∃ rs rest, rs.length = n ∧ Whole fields rs ∧ bs = flat rs ++ rest := by
  induction n generalizing bs with
  | zero => exact ⟨[], bs, rfl, fun _ hr => absurd hr List.not_mem_nil, rfl⟩
  | succ n ih =>
    cases bs with
    | nil => cases hall
    | cons code bs =>
      rw [recordsRead] at hall hsize
      split at hall
      · rename_i hneeds
        rw [if_pos hneeds, recordsSize_cons, List.length_cons] at hsize
        obtain ⟨rs, rest, hlen, hwhole, hbs⟩ := @ih (bs.drop (widthOf (fields code)))
          (Nat.succ.inj hall) (by rw [List.length_drop]; omega)
        refine ⟨(code, bs.take (widthOf (fields code))) :: rs, rest, by rw [List.length_cons, hlen],
          List.forall_mem_cons.2 ⟨List.length_take_of_le (by omega), hwhole⟩, ?_⟩
        rw [flat_cons, List.cons_append, List.append_assoc]
        exact congrArg (code :: ·) ((List.take_append_drop ..).symm.trans (congrArg (_ ++ ·) hbs))
      · cases hall

end Records

end Fields
