import Syrup.HashMap.FiniteMap
import Syrup.Client.Skills

/-!
# Quest infos: `client_get_quest_info`, `client_set_quest_info`

A quest info is a text of at most 12 characters, which is kept in a field of as many bytes, with its length beside it.
The client is told when it changes.

Here the record has its bytes, which are read and written as C strings.
-/

namespace Syrup

open HashSet

/-! ## Strings -/

/-- The characters before the first terminator, if there is one. -/
def cString : List UInt8 → Option (List UInt8)
  | [] => none
  | b :: bs => if b = 0 then some [] else (cString bs).map (b :: ·)

/-- Whether `strncmp` finds a difference. -/
def strncmp : ℕ → List UInt8 → List UInt8 → Exec Bool
  | 0, _, _ => .ok false
  | n + 1, a :: as, b :: bs =>
    if a ≠ b then .ok true else if a = 0 then .ok false else strncmp n as bs
  | _ + 1, _, _ => .error .outOfBounds

/-- `char value[12]`. -/
abbrev ValueField := {bs : List UInt8 // bs.length = 12}

/-- `strncpy`, of the characters of a string: what is missing is filled up with terminators. -/
def ValueField.strncpy (dst : ValueField) (src : List UInt8) (n : ℕ) : Exec ValueField :=
  if h : n ≤ 12 then
    .ok ⟨src.take n ++ .replicate (n - src.length) 0 ++ dst.val.drop n, by
      simp only [List.length_append, List.length_take, List.length_replicate, List.length_drop, dst.property]
      omega⟩
  else .error .outOfBounds

/-- `strcpy`, of the characters of a string and its terminator. -/
def ValueField.strcpy (dst : ValueField) (src : List UInt8) : Exec ValueField :=
  if h : src.length + 1 ≤ 12 then
    .ok ⟨src ++ 0 :: dst.val.drop (src.length + 1), by
      simp only [List.length_append, List.length_cons, List.length_drop, dst.property]
      omega⟩
  else .error .outOfBounds

/-! ## The code -/

/-- `struct QuestInfoProgress`. -/
structure QuestInfoRecord where
  id : UInt16
  length : UInt8
  value : ValueField

/-- The keys of `questInfos`. -/
def questInfoRecords (hash : UInt16 → UInt64) : Hashing QuestInfoRecord UInt16 := ⟨QuestInfoRecord.id, hash⟩

/-- The quest infos, what the client was told of them at login, and the packets with updates that it has got since,
    each with the arguments of `update_quest_packet`. -/
structure QuestInfos where
  set : HashSet QuestInfoRecord
  login : UInt16 → Option (List UInt8)
  sent : List (UInt16 × List UInt8)

/-- What the client knows. -/
def QuestInfos.copy (s : QuestInfos) : UInt16 → Option (List UInt8) :=
  s.sent.foldl (fun known p => Function.update known p.1 (some p.2)) s.login

/-- `session_write`, of an `update_quest_packet`. -/
def QuestInfos.send (s : QuestInfos) (info : UInt16) (value : List UInt8) : QuestInfos :=
  { s with sent := s.sent ++ [(info, value)] }

section Code

variable (hash : UInt16 → UInt64)

/-- `client_get_quest_info`: the bytes from the pointer on, or `none` for `NULL`. -/
def clientGetQuestInfo (s : QuestInfos) (info : UInt16) : Option (List UInt8) :=
  (hashSetGet (questInfoRecords hash) s.set info).map fun qi => qi.value.val

/-- `client_set_quest_info`, with whether it returns `0`. -/
def clientSetQuestInfo (alloc : Bool) (s : QuestInfos) (info : UInt16) (value : List UInt8) :
    Exec (Bool × QuestInfos) :=
  match hashSetGet (questInfoRecords hash) s.set info with
  | none => do
    let length := UInt8.ofNat value.length
    let bytes ← ValueField.strncpy ⟨.replicate 12 0, List.length_replicate⟩ value length.toNat
    let (ok, set) ← hashSetInsert (questInfoRecords hash) alloc s.set ⟨info, length, bytes⟩
    let s := { s with set := set }
    return if ok then (true, s.send info value) else (false, s)
  | some qi => do
    let differs ← strncmp qi.length.toNat qi.value.val (value ++ [0])
    let s := if differs then s.send info value else s
    let bytes ← ValueField.strcpy qi.value value
    return (true, { s with
      set := hashSetWrite (questInfoRecords hash) s.set info
        { qi with length := UInt8.ofNat value.length, value := bytes } })

end Code

/-- A text of at most 12 characters. -/
structure InfoValue where
  chars : List UInt8
  nonzero : ∀ c ∈ chars, c ≠ 0
  short : chars.length ≤ 12

/-! ## Lemmas on strings -/

theorem cString_append {v : List UInt8} (h : ∀ c ∈ v, c ≠ 0) (rest : List UInt8) :
    cString (v ++ 0 :: rest) = some v := by
  induction v with
  | nil => rfl
  | cons c v ih =>
    obtain ⟨hc, hv⟩ := List.forall_mem_cons.1 h
    rw [List.cons_append, cString, if_neg hc, ih hv]
    rfl

/-- Without a terminator there is no string. -/
theorem cString_eq_none {v : List UInt8} (h : ∀ c ∈ v, c ≠ 0) : cString v = none := by
  induction v with
  | nil => rfl
  | cons c v ih =>
    obtain ⟨hc, hv⟩ := List.forall_mem_cons.1 h
    rw [cString, if_neg hc, ih hv]
    rfl

/-- As many characters as an old text has are the same if and only if the new text begins with it. -/
theorem strncmp_eq {bs old v : List UInt8} (h : cString bs = some old) :
    strncmp old.length bs (v ++ [0]) = .ok (!decide (old <+: v)) := by
  induction bs generalizing old v with
  | nil => cases h
  | cons b bs ih =>
    rw [cString] at h
    split at h
    · cases h
      rw [List.length_nil, strncmp, decide_eq_true List.nil_prefix]
      rfl
    · rename_i hb
      obtain ⟨old, hold, rfl⟩ := Option.map_eq_some_iff.1 h
      cases v with
      | nil =>
        rw [List.length_cons, List.nil_append, strncmp, if_pos hb, decide_eq_false (by simp)]
        rfl
      | cons c v =>
        rw [List.length_cons, List.cons_append, strncmp]
        by_cases hc : b = c
        · rw [if_neg (not_not.2 hc), if_neg hb, ih hold]
          simp only [hc, List.prefix_cons_inj]
        · rw [if_pos hc, decide_eq_false fun hbegins => hc (List.cons_prefix_cons.1 hbegins).1]
          rfl

end Syrup
