import Syrup.HashMap.Spec
import Mathlib.Data.Set.Card

/-!
# A hash set is a finite map

The purpose of a hash set: a finite map from keys to records. `Represents h set m`
says that a set represents the map `m : K → Option R`; each operation on a set is
the operation on the map that its name says, as long as it is used as it is meant
to be: only keys that are not present are inserted, and only keys that are present
are removed.

The callback of a `foreach` may remove keys, of records that have been visited
(`Legal`): the tombstones it leaves are behind the loop, and the table keeps its
size until the loop is over.

`Run` is the runs of such operations on a set, with the map they make; on every
run, the set behaves as the map (`run_behaves`). The key of a set has one size: all
keys are hashed and compared as values of one type `K`.
-/

namespace Syrup

open Probe Slots HashSet

variable {R K : Type*}

/-- The records of a set, in the order of the table. -/
def HashSet.records (set : HashSet R) : List R := set.slotList.filterMap Slot.record?

/-- A set represents a map: its entries are the records of the map, each once. -/
structure Represents (h : Hashing R K) (set : HashSet R) (m : K → Option R) : Prop where
  wf : set.WF h
  nodup : (set.entries.map h.key).Nodup
  lookup : ∀ k r, m k = some r ↔ r ∈ set.entries ∧ h.key r = k

namespace Represents

variable {h : Hashing R K} {set set' : HashSet R} {m : K → Option R}

theorem of_entries (hr : Represents h set m) (hw : set'.WF h) (he : set'.entries = set.entries) :
    Represents h set' m :=
  ⟨hw, he ▸ hr.nodup, fun k r => he ▸ hr.lookup k r⟩

theorem iterating (hr : Represents h set m) (b : Bool) :
    Represents h { set with iterating := b } m :=
  hr.of_entries ⟨hr.wf.count_eq, hr.wf.chained⟩ rfl

theorem mem_iff (hr : Represents h set m) (r : R) : r ∈ set.entries ↔ m (h.key r) = some r := by
  rw [hr.lookup]
  simp

theorem of_entries_zero (hw : set.WF h) (he : set.entries = 0) :
    Represents h set fun _ => none :=
  ⟨hw, by simp [he], fun k r => by simp [he]⟩

variable [DecidableEq K]

/-- A new record goes under its key. -/
theorem insert (hr : Represents h set m) {r : R} (hnew : m (h.key r) = none)
    (hw : set'.WF h) (he : set'.entries = r ::ₘ set.entries) :
    Represents h set' (Function.update m (h.key r) (some r)) := by
  refine ⟨hw, ?_, fun k q => ?_⟩
  · rw [he, Multiset.map_cons, Multiset.nodup_cons]
    refine ⟨fun hk => ?_, hr.nodup⟩
    obtain ⟨q, hq, hqk⟩ := Multiset.mem_map.1 hk
    rw [hr.mem_iff, hqk, hnew] at hq
    cases hq
  · rw [he, Multiset.mem_cons]
    by_cases hk : k = h.key r
    · subst hk
      rw [Function.update_self]
      refine ⟨fun e => by cases e; exact ⟨.inl rfl, rfl⟩, ?_⟩
      rintro ⟨rfl | hq, hqk⟩
      · rfl
      · rw [hr.mem_iff, hqk, hnew] at hq
        cases hq
    · rw [Function.update_of_ne hk, hr.lookup]
      refine ⟨fun ⟨hq, hqk⟩ => ⟨.inr hq, hqk⟩, ?_⟩
      rintro ⟨rfl | hq, hqk⟩
      · exact absurd hqk.symm hk
      · exact ⟨hq, hqk⟩

/-- Without the record found under a key, nothing is under it. -/
theorem remove (hr : Represents h set m) {k : K} {r : R} (hk : m k = some r)
    (hw : set'.WF h) (he : set.entries = r ::ₘ set'.entries) :
    Represents h set' (Function.update m k none) := by
  obtain ⟨_, rfl⟩ := (hr.lookup k r).1 hk
  have hnodup := hr.nodup
  rw [he, Multiset.map_cons, Multiset.nodup_cons] at hnodup
  refine ⟨hw, hnodup.2, fun k q => ?_⟩
  by_cases hqk : k = h.key r
  · subst hqk
    rw [Function.update_self]
    refine ⟨nofun, fun ⟨hq, hqk⟩ => ?_⟩
    exact absurd (Multiset.mem_map.2 ⟨q, hq, hqk⟩) hnodup.1
  · rw [Function.update_of_ne hqk, hr.lookup, he, Multiset.mem_cons]
    refine ⟨?_, fun ⟨hq, hkq⟩ => ⟨.inr hq, hkq⟩⟩
    rintro ⟨rfl | hq, hkq⟩
    · exact absurd hkq.symm hqk
    · exact ⟨hq, hkq⟩

/-- A lookup in a set is the lookup in the map. -/
theorem get_eq (hr : Represents h set m) (k : K) : hashSetGet h set k = m k := by
  cases hg : hashSetGet h set k with
  | none =>
    have hnone := (hashSetGet_eq_none_iff hr.wf).1 hg
    cases hm : m k with
    | none => rfl
    | some r =>
      obtain ⟨hr', hk⟩ := (hr.lookup k r).1 hm
      exact absurd hk (hnone r hr')
  | some r => exact ((hr.lookup k r).2 (hashSetGet_mem hg)).symm

/-- A write through the pointer of a lookup is an update of the map. -/
theorem write (hr : Represents h set m) {k : K} {r r' : R} (hk : m k = some r)
    (hkey : h.key r' = h.key r) :
    Represents h (hashSetWrite h set k r') (Function.update m k (some r')) := by
  have hrk : h.key r = k := ((hr.lookup k r).1 hk).2
  obtain ⟨hw, rest, he, he'⟩ := hashSetWrite_spec hr.wf ((hr.get_eq k).trans hk) hkey
  have hnodup := hr.nodup
  rw [he, Multiset.map_cons, Multiset.nodup_cons, hrk] at hnodup
  refine ⟨hw, ?_, fun k' q => ?_⟩
  · rw [he', Multiset.map_cons, Multiset.nodup_cons, hkey, hrk]
    exact hnodup
  · rw [he', Multiset.mem_cons]
    by_cases hk' : k' = k
    · subst hk'
      rw [Function.update_self]
      refine ⟨fun e => by cases e; exact ⟨.inl rfl, hkey.trans hrk⟩, ?_⟩
      rintro ⟨rfl | hq, hqk⟩
      · rfl
      · exact absurd (Multiset.mem_map.2 ⟨q, hq, hqk⟩) hnodup.1
    · rw [Function.update_of_ne hk', hr.lookup, he, Multiset.mem_cons]
      constructor
      · rintro ⟨rfl | hq, hqk⟩
        · exact absurd (hqk.symm.trans hrk) hk'
        · exact ⟨.inr hq, hqk⟩
      · rintro ⟨rfl | hq, hqk⟩
        · exact absurd (hqk.symm.trans (hkey.trans hrk)) hk'
        · exact ⟨.inr hq, hqk⟩

omit [DecidableEq K] in
/-- The size of a set is the number of keys of the map. -/
theorem size_eq (hr : Represents h set m) : hashSetSize set = {k | m k ≠ none}.ncard := by
  classical
  have hkeys : {k | m k ≠ none} = ↑(set.entries.map h.key).toFinset := by
    ext k
    rw [Finset.mem_coe, Multiset.mem_toFinset, Multiset.mem_map, Set.mem_ofPred_eq,
      Option.ne_none_iff_exists']
    exact exists_congr fun r => hr.lookup k r
  rw [hkeys, Set.ncard_coe_finset, Multiset.toFinset_card_of_nodup hr.nodup, Multiset.card_map]
  exact hr.wf.count_eq

omit [DecidableEq K] in
theorem records_nodup (hr : Represents h set m) : (set.records.map h.key).Nodup := by
  have := hr.nodup
  rw [← listEntries_slotList] at this
  exact this

omit [DecidableEq K] in
theorem mem_records (hr : Represents h set m) (r : R) :
    r ∈ set.records ↔ m (h.key r) = some r := by
  rw [← hr.mem_iff, ← listEntries_slotList]
  rfl

end Represents

/-! ## Iterating -/

section Foreach

variable {σ : Type*} [DecidableEq K] {h : Hashing R K}

/-- A map without some keys. -/
def eraseAll (ks : List K) (m : K → Option R) : K → Option R :=
  ks.foldl (fun m k => Function.update m k none) m

/-- What a callback makes of the records it is called on, in their order: it
    removes keys from the map, and hands on its context. -/
def visitAll (f : R → σ → List K × σ) (l : List R) (m : K → Option R) (ctx : σ) :
    (K → Option R) × σ :=
  l.foldl (fun s r => (eraseAll (f r s.2).1 s.1, (f r s.2).2)) (m, ctx)

/-- The removals of a call: each of a key that is present. -/
def Removable (m : K → Option R) : List K → Prop
  | [] => True
  | k :: ks => m k ≠ none ∧ Removable (Function.update m k none) ks

/-- A callback only removes keys of records it has visited, and that are
    present. -/
def Legal (h : Hashing R K) (f : R → σ → List K × σ) :
    List R → List K → (K → Option R) → σ → Prop
  | [], _, _, _ => True
  | r :: l, seen, m, ctx =>
    (f r ctx).1 ⊆ h.key r :: seen ∧ Removable m (f r ctx).1 ∧
      Legal h f l (h.key r :: seen) (eraseAll (f r ctx).1 m) (f r ctx).2

variable {set : HashSet R} {m : K → Option R}

omit [DecidableEq K] in
theorem length_slotList (set : HashSet R) : set.slotList.length = set.capacity :=
  List.length_ofFn

omit [DecidableEq K] in
theorem slots_of_drop {i : ℕ} {s : Slot R} {l : List (Slot R)}
    (hd : set.slotList.drop i = s :: l) :
    (∃ hi : i < set.capacity, set.slots ⟨i, hi⟩ = s) ∧ set.slotList.drop (i + 1) = l := by
  have hi : i < set.slotList.length := by
    by_contra hge
    rw [List.drop_eq_nil_of_le (by omega)] at hd
    cases hd
  rw [List.drop_eq_getElem_cons hi, List.cons.injEq] at hd
  refine ⟨⟨length_slotList set ▸ hi, ?_⟩, hd.2⟩
  rw [← hd.1]
  simp [slotList]

/-- A removal during an iteration leaves the slots from `j` on alone, if none of
    them holds the key. -/
theorem remove_iterating (hr : Represents h set m) (hit : set.iterating = true) (alloc : Bool)
    {k : K} (hk : m k ≠ none) {j : ℕ}
    (hj : k ∉ ((set.slotList.drop j).filterMap Slot.record?).map h.key) :
    ∃ set', hashSetRemove h alloc set k = .ok set' ∧
      Represents h set' (Function.update m k none) ∧ set'.iterating = true ∧
      set'.slotList.drop j = set.slotList.drop j := by
  obtain ⟨r, hkr⟩ := Option.ne_none_iff_exists'.1 hk
  obtain ⟨i, c, _, hi, he, hew, hent⟩ := erase_spec hr.wf ((hr.get_eq k).trans hkr)
  refine ⟨{ set with slots := Function.update set.slots i .deleted, count := c }, ?_,
    hr.remove hkr hew hent, hit, ?_⟩
  · rw [hashSetRemove, he]
    exact if_pos hit
  · have hij : i.val < j := by
      by_contra hge
      refine hj (List.mem_map.2 ⟨r, List.mem_filterMap.2 ⟨.occupied r, ?_, rfl⟩,
        ((hr.lookup k r).1 hkr).2⟩)
      refine List.mem_iff_getElem.2 ⟨i.val - j, ?_, ?_⟩
      · rw [List.length_drop, length_slotList]
        omega
      · rw [List.getElem_drop]
        simp only [slotList, List.getElem_ofFn]
        rw [← hi]
        congr 2
        omega
    refine List.ext_getElem (by simp [slotList]) fun q hq _ => ?_
    rw [List.getElem_drop, List.getElem_drop]
    simp only [slotList, List.getElem_ofFn]
    exact Function.update_of_ne (by simp [Fin.ext_iff]; omega) ..

theorem removeAll_spec (alloc : Bool) {ks : List K} {j : ℕ} (hr : Represents h set m)
    (hit : set.iterating = true) (hks : Removable m ks)
    (hj : ∀ k ∈ ks, k ∉ ((set.slotList.drop j).filterMap Slot.record?).map h.key) :
    ∃ set', removeAll h alloc ks set = .ok set' ∧ Represents h set' (eraseAll ks m) ∧
      set'.iterating = true ∧ set'.slotList.drop j = set.slotList.drop j := by
  induction ks generalizing set m with
  | nil => exact ⟨set, rfl, hr, hit, rfl⟩
  | cons k ks ih =>
    obtain ⟨s, hs, hsr, hsi, hsd⟩ := remove_iterating hr hit alloc hks.1 (hj k List.mem_cons_self)
    obtain ⟨s', hs', hsr', hsi', hsd'⟩ := ih hsr hsi hks.2 (by
      rw [hsd]
      exact fun q hq => hj q (List.mem_cons_of_mem _ hq))
    exact ⟨s', by rw [removeAll, hs]; exact hs', hsr', hsi', hsd'.trans hsd⟩

/-- The loop from the index `i` on: the slots `l` from there on are as they were
    when the iteration began, and hold no key that has been visited. -/
theorem foreachLoop_spec (alloc : Bool) (f : R → σ → List K × σ) {l : List (Slot R)} {i : ℕ}
    {seen : List K} {ctx : σ} (hr : Represents h set m) (hit : set.iterating = true)
    (hd : set.slotList.drop i = l) (hnodup : ((l.filterMap Slot.record?).map h.key).Nodup)
    (hseen : ∀ k ∈ seen, k ∉ (l.filterMap Slot.record?).map h.key)
    (hf : Legal h f (l.filterMap Slot.record?) seen m ctx) :
    ∃ set', foreachLoop h alloc f (List.range' i l.length) set ctx =
        .ok (set', (visitAll f (l.filterMap Slot.record?) m ctx).2) ∧
      Represents h set' (visitAll f (l.filterMap Slot.record?) m ctx).1 := by
  induction l generalizing set m i seen ctx with
  | nil => exact ⟨set, rfl, hr⟩
  | cons s l ih =>
    obtain ⟨⟨hi, hs⟩, hd'⟩ := slots_of_drop hd
    rw [List.length_cons, List.range'_succ, foreachLoop, dif_pos hi, hs]
    cases s with
    | free => exact ih hr hit hd' hnodup hseen hf
    | deleted => exact ih hr hit hd' hnodup hseen hf
    | occupied r =>
      obtain ⟨hks, hrem, hf⟩ := hf
      obtain ⟨hrl, hnodup⟩ := List.nodup_cons.1 hnodup
      have hseen' : ∀ k ∈ h.key r :: seen, k ∉ (l.filterMap Slot.record?).map h.key := by
        intro k hk
        rcases List.mem_cons.1 hk with rfl | hk
        · exact hrl
        · exact fun hkl => hseen k hk (List.mem_cons_of_mem _ hkl)
      obtain ⟨s, hs, hsr, hsi, hsd⟩ := removeAll_spec alloc hr hit hrem
        (hd' ▸ fun k hk => hseen' k (hks hk))
      obtain ⟨s', hs', hsr'⟩ := ih hsr hsi (hsd.trans hd') hnodup hseen' hf
      exact ⟨s', by simp only [hs]; exact hs', hsr'⟩

/-- A `foreach` calls its callback on the records, each once, in the order of the
    table. -/
theorem hashSetU32Foreach_spec (alloc : Bool) (f : R → σ → List K × σ) {ctx : σ}
    (hr : Represents h set m) (hf : Legal h f set.records [] m ctx) :
    ∃ set', hashSetU32Foreach h alloc f set ctx =
        .ok (set', (visitAll f set.records m ctx).2) ∧
      Represents h set' (visitAll f set.records m ctx).1 := by
  have hrange : List.range set.capacity = List.range' 0 set.slotList.length := by
    rw [length_slotList, List.range_eq_range']
  obtain ⟨s, hs, hsr⟩ : ∃ s, foreachLoop h alloc f (List.range set.capacity)
      { set with iterating := true } ctx = .ok (s, (visitAll f set.records m ctx).2) ∧
      Represents h s (visitAll f set.records m ctx).1 :=
    hrange ▸ foreachLoop_spec alloc f (hr.iterating true) rfl (List.drop_zero ..)
      hr.records_nodup (by simp) hf
  obtain ⟨s', hs', hsw', hse', _⟩ := shrink_spec (hsr.iterating false).wf alloc
  refine ⟨s', ?_, (hsr.iterating false).of_entries hsw' hse'⟩
  rw [hashSetU32Foreach, hs]
  simp only [hs']

omit [DecidableEq K] in
/-- The `foreach` of the other sets, with a callback that only reads, calls it on
    the same records. -/
theorem hashSetU16Foreach_read (f : R → σ → σ) (set : HashSet R) (ctx : σ) :
    hashSetU16Foreach (fun r c => .ok (r, f r c)) set ctx =
      .ok (set, set.records.foldl (fun c r => f r c) ctx) := by
  have hsweep (body : Fin set.capacity → Slot R → σ → Exec (Sweep.Out (Slot R) σ))
      (hbody : ∀ i s c, body i s c =
        .ok { cell := s, state := s.record?.elim c (f · c), stop := false })
      (l : List (Fin set.capacity)) (c : σ) :
      Sweep.sweep body l set.slots c =
        .ok (set.slots, ((l.map set.slots).filterMap Slot.record?).foldl (fun c r => f r c) c) := by
    induction l generalizing c with
    | nil => rfl
    | cons i l ih =>
      rw [Sweep.sweep, hbody]
      simp only [Bool.false_eq_true, if_false, Function.update_eq_self]
      rw [ih, List.map_cons]
      cases set.slots i <;> rfl
  rw [hashSetU16Foreach]
  simp only
  rw [hsweep _ (by intro i s c; cases s <;> rfl), records, slotList, List.ofFn_eq_map]

end Foreach

/-! ## Runs -/

/-- The runs of the operations on a set, used as they are meant to be, with the
    map they make. -/
inductive Run [DecidableEq K] (h : Hashing R K) : HashSet R → (K → Option R) → Prop
  | init : Run h hashSetInit fun _ => none
  /-- An insertion of a key that is not present. -/
  | insert {set set' : HashSet R} {m : K → Option R} {alloc ok : Bool} {r : R} : Run h set m →
      m (h.key r) = none → hashSetInsert h alloc set r = .ok (ok, set') →
      Run h set' (if ok then Function.update m (h.key r) (some r) else m)
  /-- A removal of a key that is present. -/
  | remove {set set' : HashSet R} {m : K → Option R} {alloc : Bool} {k : K} : Run h set m →
      m k ≠ none → hashSetRemove h alloc set k = .ok set' → Run h set' (Function.update m k none)
  | clear {set : HashSet R} {m : K → Option R} : Run h set m →
      Run h (hashSetClear set) fun _ => none
  /-- An iteration, with removals of the keys that have been visited. -/
  | foreach {σ : Type} {set set' : HashSet R} {m : K → Option R} {alloc : Bool}
      {f : R → σ → List K × σ} {ctx ctx' : σ} : Run h set m →
      Legal h f set.records [] m ctx → hashSetU32Foreach h alloc f set ctx = .ok (set', ctx') →
      Run h set' (visitAll f set.records m ctx).1

/-- A set behaves as a map: what its operations return, and that they return, is
    what the map says. -/
structure Behaves [DecidableEq K] (h : Hashing R K) (set : HashSet R) (m : K → Option R) :
    Prop where
  get_eq : ∀ k, hashSetGet h set k = m k
  size_eq : hashSetSize set = {k | m k ≠ none}.ncard
  records_nodup : (set.records.map h.key).Nodup
  mem_records : ∀ r, r ∈ set.records ↔ m (h.key r) = some r
  /-- An insertion returns, and succeeds unless an allocation fails. -/
  insert : ∀ alloc r, ∃ ok set', hashSetInsert h alloc set r = .ok (ok, set') ∧
    (alloc = true → ok = true)
  remove : ∀ alloc k, m k ≠ none → ∃ set', hashSetRemove h alloc set k = .ok set'
  /-- An iteration calls its callback on the records, in their order. -/
  foreach : ∀ {σ : Type} alloc (f : R → σ → List K × σ) ctx, Legal h f set.records [] m ctx →
    ∃ set', hashSetU32Foreach h alloc f set ctx = .ok (set', (visitAll f set.records m ctx).2)
  foreach_read : ∀ {σ : Type} (f : R → σ → σ) ctx,
    hashSetU16Foreach (fun r c => .ok (r, f r c)) set ctx =
      .ok (set, set.records.foldl (fun c r => f r c) ctx)

section Run

variable [DecidableEq K] {h : Hashing R K} {set : HashSet R} {m : K → Option R}

/-- A set represents the map of its run. -/
theorem Run.represents (hrun : Run h set m) : Represents h set m := by
  induction hrun with
  | init => exact .of_entries_zero hashSetInit_wf hashSetInit_entries
  | @insert _ _ _ _ ok _ _ hnew hins ih =>
    obtain ⟨ok', set', hins', hw, he, hsame, _⟩ := hashSetInsert_spec ih.wf _ _
    rw [hins] at hins'
    cases hins'
    cases ok with
    | true => exact ih.insert hnew hw (he rfl)
    | false => exact hsame rfl ▸ ih
  | remove _ hk hrem ih =>
    obtain ⟨r, hkr⟩ := Option.ne_none_iff_exists'.1 hk
    obtain ⟨set', hrem', hw, he, _⟩ := hashSetRemove_spec ih.wf _ ((ih.get_eq _).trans hkr)
    rw [hrem] at hrem'
    cases hrem'
    exact ih.remove hkr hw he
  | clear _ _ => exact .of_entries_zero (hashSetClear_wf _) (hashSetClear_entries _)
  | foreach _ hf hfor ih =>
    obtain ⟨set', hfor', hr⟩ := hashSetU32Foreach_spec _ _ ih hf
    rw [hfor] at hfor'
    cases hfor'
    exact hr

/-- On every run, a hash set behaves as the finite map that the run makes. -/
theorem run_behaves (hrun : Run h set m) : Behaves h set m := by
  have hr := hrun.represents
  refine ⟨hr.get_eq, hr.size_eq, hr.records_nodup, hr.mem_records, fun alloc r => ?_,
    fun alloc k hk => ?_, fun alloc f ctx hf => ?_,
    fun f ctx => hashSetU16Foreach_read f set ctx⟩
  · obtain ⟨ok, set', hins, _, _, _, hok, _⟩ := hashSetInsert_spec hr.wf alloc r
    exact ⟨ok, set', hins, hok⟩
  · obtain ⟨r, hkr⟩ := Option.ne_none_iff_exists'.1 hk
    obtain ⟨set', hrem, _⟩ := hashSetRemove_spec hr.wf alloc ((hr.get_eq k).trans hkr)
    exact ⟨set', hrem⟩
  · obtain ⟨set', hfor, _⟩ := hashSetU32Foreach_spec alloc f hr hf
    exact ⟨set', hfor⟩

/-- The keys `1`, then `2`, under one hash: the second key is found behind the
    first one, which has been removed. -/
theorem run_behaves_collision :
    ∃ set : HashSet UInt32, Behaves ⟨id, fun _ => 0⟩ set
      (Function.update (Function.update (Function.update (fun _ => none) 1 (some 1)) 2 (some 2))
        1 none) := by
  let h : Hashing UInt32 UInt32 := ⟨id, fun _ => 0⟩
  obtain ⟨ok₁, s₁, h₁, _, _, _, hok₁, _⟩ :=
    hashSetInsert_spec (h := h) hashSetInit_wf true (1 : UInt32)
  have r₁ : Run h s₁ _ := .insert .init rfl h₁
  rw [if_pos (hok₁ rfl)] at r₁
  obtain ⟨ok₂, s₂, h₂, _, _, _, hok₂, _⟩ := hashSetInsert_spec r₁.represents.wf true (2 : UInt32)
  have r₂ : Run h s₂ _ := .insert r₁ (by decide) h₂
  rw [if_pos (hok₂ rfl)] at r₂
  obtain ⟨s₃, h₃, _⟩ := hashSetRemove_spec (k := (1 : UInt32)) (r := (1 : UInt32))
    r₂.represents.wf true ((r₂.represents.get_eq 1).trans (by decide))
  exact ⟨s₃, run_behaves (.remove r₂ (by decide) h₃)⟩

end Run

end Syrup
