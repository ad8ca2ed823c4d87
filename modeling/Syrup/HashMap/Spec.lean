import Syrup.HashMap

/-!
# What the operations of a hash set do

The records of a hash set are a multiset, its `entries`: nothing in the table
keeps two records from having the same key. A set is *well formed* (`WF`) when
it counts its entries, and when the probing for a record from its home on gets
to it without passing a free slot (`Chained`): this is what the operations
rely on, and what tombstones and rehashing keep.

On a well-formed set every operation returns, with a well-formed set:

* an insertion adds a record (`hashSetInsert_spec`);
* a lookup finds a record if there is one with the key (`hashSetGet_mem`,
  `hashSetGet_eq_none_iff`);
* a removal takes out the record that the lookup finds (`hashSetRemove_spec`);
* halving the table changes nothing (`shrink_spec`).
-/

namespace Syrup

open Probe Slots

variable {R K : Type*}

/-- The records of a table. -/
def tableEntries {n : ℕ} (table : Fin n → Slot R) : Multiset R :=
  contents fun i => (table i).record?

/-- The probing for any record of a table gets to it. -/
def Chained (h : Hashing R K) {n : ℕ} (hn : 0 < n) (table : Fin n → Slot R) : Prop :=
  ∀ i r, table i = .occupied r → Chain (fun j => table j ≠ .free) (h.home hn (h.key r)) i

namespace HashSet

/-- The records of a set. -/
def entries (set : HashSet R) : Multiset R := tableEntries set.slots

/-- The invariant of a set: it counts its entries, and the probing for any of
    them gets to it. -/
structure WF (h : Hashing R K) (set : HashSet R) : Prop where
  count_eq : set.count = set.entries.card
  chained : Chained h set.capacity_pos set.slots

end HashSet

/-! ## Tables -/

section Table

variable {h : Hashing R K} {n : ℕ} {hn : 0 < n} {table : Fin n → Slot R}

theorem mem_tableEntries {r : R} : r ∈ tableEntries table ↔ ∃ i, table i = .occupied r := by
  simp [tableEntries, mem_contents]

theorem record?_update (i : Fin n) (s : Slot R) :
    (fun j => (Function.update table i s j).record?) =
      Function.update (fun j => (table j).record?) i s.record? := by
  funext j
  exact Function.apply_update (fun _ => Slot.record?) table i s j

/-- Filling a slot that is not occupied adds its record. -/
theorem tableEntries_fill {i : Fin n} (hi : (table i).isOccupied = false) (r : R) :
    tableEntries (Function.update table i (.occupied r)) = r ::ₘ tableEntries table := by
  have hnone : (table i).record? = none := by
    cases hs : table i <;> simp_all [Slot.isOccupied, Slot.record?]
  rw [tableEntries, record?_update, Slot.record?_occupied, contents,
    weigh_fill (v := fun j => (table j).record?) _ hnone, add_comm]
  rfl

/-- A tombstone takes away the record of its slot. -/
theorem tableEntries_erase {i : Fin n} {r : R} (hi : table i = .occupied r) :
    tableEntries table = r ::ₘ tableEntries (Function.update table i .deleted) := by
  have hsome : (table i).record? = some r := by rw [hi]; rfl
  rw [tableEntries, tableEntries, record?_update, Slot.record?_deleted, contents_eq_weigh,
    ← weigh_empty (v := fun j => (table j).record?) (fun a => ({a} : Multiset R)) hsome, add_comm]
  rfl

/-- The records of a table with a slot that is not occupied are fewer than its
    slots. -/
theorem card_tableEntries :
    (tableEntries table).card = (Finset.univ.filter fun i => (table i).isOccupied = true).card := by
  change Multiset.cardHom (∑ i, one (fun r => {r}) (table i).record?) = _
  rw [map_sum, Finset.card_filter]
  refine Finset.sum_congr rfl fun i _ => ?_
  cases table i <;> simp [Slot.record?, Slot.isOccupied]

theorem exists_unoccupied (hc : (tableEntries table).card < n) :
    ∃ i, (table i).isOccupied = false := by
  by_contra hne
  push Not at hne
  rw [card_tableEntries, Finset.filter_true_of_mem (fun i _ => by simpa using hne i)] at hc
  simp at hc

/-- A record put where the probing from its home stops is reached by probing. -/
theorem Chained.fill (hc : Chained h hn table) {p : Fin n → Bool} {i : Fin n} {r : R}
    (hp : probe p n (h.home hn (h.key r)) = some i)
    (hfree : ∀ j, p j = false → table j ≠ .free) :
    Chained h hn (Function.update table i (.occupied r)) := by
  intro j r' hj m hm
  by_cases hmi : next^[m] (h.home hn (h.key r')) = i
  · rw [hmi, Function.update_self]
    exact nofun
  rw [Function.update_of_ne hmi]
  by_cases hji : j = i
  · subst hji
    rw [Function.update_self] at hj
    cases hj
    exact hfree _ ((probe_full hp).2 m hm)
  · rw [Function.update_of_ne hji] at hj
    exact hc j r' hj m hm

/-- A tombstone blocks no probing. -/
theorem Chained.erase (hc : Chained h hn table) (i : Fin n) :
    Chained h hn (Function.update table i .deleted) := by
  intro j r hj m hm
  by_cases hmi : next^[m] (h.home hn (h.key r)) = i
  · rw [hmi, Function.update_self]
    exact nofun
  rw [Function.update_of_ne hmi]
  by_cases hji : j = i
  · subst hji
    rw [Function.update_self] at hj
    cases hj
  · rw [Function.update_of_ne hji] at hj
    exact hc j r hj m hm

/-- A record written over another one with the same key is reached as it was. -/
theorem Chained.write (hc : Chained h hn table) {i : Fin n} {r r' : R}
    (hi : table i = .occupied r) (hk : h.key r' = h.key r) :
    Chained h hn (Function.update table i (.occupied r')) := by
  intro j q hj m hm
  by_cases hmi : next^[m] (h.home hn (h.key q)) = i
  · rw [hmi, Function.update_self]
    exact nofun
  rw [Function.update_of_ne hmi]
  by_cases hji : j = i
  · subst hji
    rw [Function.update_self] at hj
    cases hj
    rw [hk] at hm ⊢
    exact hc j r hi m hm
  · rw [Function.update_of_ne hji] at hj
    exact hc j q hj m hm

variable (h hn) in
theorem chained_empty : Chained h hn fun _ => (.free : Slot R) :=
  fun _ _ h => nomatch h

theorem tableEntries_empty : tableEntries (fun _ : Fin n => (.free : Slot R)) = 0 := by
  simp [tableEntries, contents, weigh, Slot.record?]

/-! ## Rehashing -/

/-- There is room for one more record in a table that is not full, and it is
    reached there. -/
theorem reinsert_spec (hc : Chained h hn table) (hroom : (tableEntries table).card < n)
    (hdel : ∀ i, table i ≠ .deleted) (r : R) :
    ∃ table', reinsert h hn table r = .ok table' ∧ Chained h hn table' ∧
      tableEntries table' = r ::ₘ tableEntries table ∧ ∀ i, table' i ≠ .deleted := by
  obtain ⟨j, hj⟩ := exists_unoccupied hroom
  have hjfree : (table j).isFree = true := by
    have := hdel j
    cases hs : table j <;> simp_all [Slot.isOccupied, Slot.isFree]
  obtain ⟨i, hi⟩ := exists_probe (p := fun i => (table i).isFree) (h.home hn (h.key r)) hjfree
  refine ⟨Function.update table i (.occupied r), by rw [reinsert, hi], hc.fill hi ?_,
    tableEntries_fill ?_ r, fun k => ?_⟩
  · intro j hj hjf
    simp [hjf, Slot.isFree] at hj
  · have := (probe_full hi).1
    cases hs : table i <;> simp_all [Slot.isOccupied, Slot.isFree]
  · by_cases hk : k = i
    · subst hk
      rw [Function.update_self]
      exact nofun
    · rw [Function.update_of_ne hk]
      exact hdel k

/-- The records in a list of slots. -/
def listEntries (l : List (Slot R)) : Multiset R := ↑(l.filterMap Slot.record?)

/-- Rehashing puts all records of the old table into the new one, if they fit. -/
theorem rehash_spec (l : List (Slot R)) (hc : Chained h hn table)
    (hroom : (listEntries l + tableEntries table).card ≤ n) (hdel : ∀ i, table i ≠ .deleted) :
    ∃ table', rehash h hn l table = .ok table' ∧ Chained h hn table' ∧
      tableEntries table' = listEntries l + tableEntries table := by
  induction l generalizing table with
  | nil => exact ⟨table, rfl, hc, by simp [listEntries]⟩
  | cons s l ih =>
    cases s with
    | free => exact ih hc hroom hdel
    | deleted => exact ih hc hroom hdel
    | occupied r =>
      have hl : listEntries (.occupied r :: l) = r ::ₘ listEntries l := by
        simp [listEntries, Slot.record?]
      rw [hl] at hroom ⊢
      obtain ⟨t, ht, htc, hte, htd⟩ := reinsert_spec hc (by
        simp only [Multiset.card_add, Multiset.card_cons] at hroom
        omega) hdel r
      obtain ⟨t', ht', htc', hte'⟩ := ih htc (by
        rw [hte]
        simp only [Multiset.card_add, Multiset.card_cons] at hroom ⊢
        omega) htd
      refine ⟨t', by rw [rehash, ht]; exact ht', htc', ?_⟩
      rw [hte', hte, Multiset.add_cons, Multiset.cons_add]

end Table

namespace HashSet

variable {h : Hashing R K} {set : HashSet R}

theorem listEntries_slotList (set : HashSet R) : listEntries set.slotList = set.entries := by
  have hlist (l : List (Slot R)) :
      (l.map fun s => one (fun r => ({r} : Multiset R)) s.record?).sum = listEntries l := by
    induction l with
    | nil => rfl
    | cons s l ih =>
      rw [List.map_cons, List.sum_cons, ih]
      cases s with
      | free => exact zero_add _
      | deleted => exact zero_add _
      | occupied r => exact Multiset.singleton_add r _
  rw [← hlist, slotList, List.map_ofFn, List.sum_ofFn]
  rfl

theorem resize_spec {n : ℕ} (hn : 0 < n) (hw : set.WF h) (hroom : set.count ≤ n) :
    ∃ set', set.resize h n hn = .ok set' ∧ set'.WF h ∧ set'.entries = set.entries ∧
      set'.capacity = n ∧ set'.count = set.count ∧ set'.iterating = set.iterating := by
  obtain ⟨t, ht, htc, hte⟩ := rehash_spec set.slotList
    (chained_empty h hn) (by
      rw [listEntries_slotList, tableEntries_empty, add_zero, ← hw.count_eq]
      exact hroom) (fun _ => nofun)
  rw [listEntries_slotList, tableEntries_empty, add_zero] at hte
  refine ⟨⟨n, hn, set.count, t, set.iterating⟩, by rw [resize, ht], ⟨?_, htc⟩, hte, rfl, rfl, rfl⟩
  exact hw.count_eq.trans (congrArg _ hte.symm)

theorem place_spec (hw : set.WF h) (hroom : set.count < set.capacity) (r : R) :
    ∃ set', set.place h r = .ok set' ∧ set'.WF h ∧ set'.entries = r ::ₘ set.entries ∧
      set'.iterating = set.iterating := by
  have hcard : (tableEntries set.slots).card < set.capacity := hw.count_eq ▸ hroom
  obtain ⟨j, hj⟩ := exists_unoccupied hcard
  obtain ⟨i, hi⟩ := exists_probe (p := fun i => !(set.slots i).isOccupied)
    (h.home set.capacity_pos (h.key r)) (j := j) (by simp [hj])
  have hio : (set.slots i).isOccupied = false := by simpa using (probe_full hi).1
  have hent := tableEntries_fill hio r
  refine ⟨{ set with slots := Function.update set.slots i (.occupied r), count := set.count + 1 },
    by rw [place, hi], ⟨?_, ?_⟩, hent, rfl⟩
  · change set.count + 1 = (tableEntries _).card
    rw [hent, Multiset.card_cons, hw.count_eq, entries]
  · refine hw.chained.fill hi fun j hj hjf => ?_
    simp [hjf, Slot.isOccupied] at hj

end HashSet

open HashSet

section Operations

variable {h : Hashing R K} {set : HashSet R}

theorem hashSetInit_wf : (hashSetInit : HashSet R).WF h :=
  ⟨(congrArg Multiset.card tableEntries_empty).symm, chained_empty h Nat.one_pos⟩

theorem hashSetInit_entries : (hashSetInit : HashSet R).entries = 0 := tableEntries_empty

theorem hashSetClear_wf (set : HashSet R) : (hashSetClear set).WF h :=
  ⟨(congrArg Multiset.card tableEntries_empty).symm, chained_empty h Nat.one_pos⟩

theorem hashSetClear_entries (set : HashSet R) : (hashSetClear set).entries = 0 :=
  tableEntries_empty

/-- An insertion adds the record, or, if the table would have to grow and
    cannot, changes nothing. -/
theorem hashSetInsert_spec (hw : set.WF h) (alloc : Bool) (r : R) :
    ∃ ok set', hashSetInsert h alloc set r = .ok (ok, set') ∧ set'.WF h ∧
      (ok = true → set'.entries = r ::ₘ set.entries) ∧ (ok = false → set' = set) ∧
      (alloc = true → ok = true) ∧ set'.iterating = set.iterating := by
  by_cases hfull : set.count = set.capacity
  · cases alloc with
    | false =>
      refine ⟨false, set, ?_, hw, by simp, by simp, by simp, rfl⟩
      rw [hashSetInsert, if_pos hfull, if_neg Bool.false_ne_true]
      rfl
    | true =>
      have hpos := set.capacity_pos
      obtain ⟨g, hg, hgw, hge, hgc, hgn, hgi⟩ := resize_spec
        (Nat.mul_pos hpos Nat.two_pos) hw (by omega)
      obtain ⟨set', hp, hpw, hpe, hpi⟩ := place_spec hgw (by omega) r
      refine ⟨true, set', ?_, hpw, fun _ => by rw [hpe, hge], by simp, by simp, hpi.trans hgi⟩
      rw [hashSetInsert, if_pos hfull, if_pos rfl]
      exact Exec.bind_eq_ok.2 ⟨g, hg, Exec.bind_eq_ok.2 ⟨set', hp, rfl⟩⟩
  · have hle : set.count ≤ set.capacity := by
      rw [hw.count_eq, HashSet.entries, card_tableEntries]
      exact (Finset.card_le_univ _).trans_eq (Fintype.card_fin _)
    obtain ⟨set', hp, hpw, hpe, hpi⟩ := place_spec hw (by omega) r
    refine ⟨true, set', ?_, hpw, fun _ => hpe, by simp, by simp, hpi⟩
    rw [hashSetInsert, if_neg hfull]
    exact Exec.bind_eq_ok.2 ⟨set', hp, rfl⟩

variable [DecidableEq K] {k : K}

/-- A lookup that finds a record has found it in the slot at which the probing
    ends. -/
theorem hashSetGet_eq_some {r : R} (hg : hashSetGet h set k = some r) :
    ∃ i, set.find h k = some i ∧ set.slots i = .occupied r ∧ h.key r = k := by
  rw [hashSetGet, Option.bind_eq_some_iff] at hg
  obtain ⟨i, hi, hr⟩ := hg
  have hs : set.slots i = .occupied r := Slot.record?_eq_some.1 hr
  have := (probe_full hi).1
  rw [hs] at this
  exact ⟨i, hi, hs, by simpa [stops] using this⟩

/-- A lookup only finds entries with the key. -/
theorem hashSetGet_mem {r : R} (hg : hashSetGet h set k = some r) :
    r ∈ set.entries ∧ h.key r = k := by
  obtain ⟨i, _, hs, hk⟩ := hashSetGet_eq_some hg
  exact ⟨mem_tableEntries.2 ⟨i, hs⟩, hk⟩

/-- A lookup finds no entry exactly when there is none with the key. -/
theorem hashSetGet_eq_none_iff (hw : set.WF h) :
    hashSetGet h set k = none ↔ ∀ r ∈ set.entries, h.key r ≠ k := by
  constructor
  · intro hg r hr hk
    obtain ⟨j, hj⟩ := mem_tableEntries.1 hr
    have hstop : stops h k (set.slots j) = true := by simp [hj, stops, hk]
    obtain ⟨i, hi⟩ := exists_probe (p := fun i => stops h k (set.slots i))
      (h.home set.capacity_pos k) hstop
    rw [hashSetGet, HashSet.find, hi, Option.bind_some] at hg
    -- The probing stops at `i`, on the chain that leads to `r` or at its end:
    -- the slot is not free, so that it holds a record.
    have hnf : set.slots i ≠ .free := by
      rcases probe_chain (hk ▸ hw.chained j r hj) hstop hi with rfl | hq
      · rw [hj]
        exact nofun
      · exact hq
    have hs := (probe_full hi).1
    cases hsl : set.slots i with
    | free => exact hnf hsl
    | occupied q => simp [hsl, Slot.record?] at hg
    | deleted => simp [hsl, stops] at hs
  · intro hall
    cases hg : hashSetGet h set k with
    | none => rfl
    | some r =>
      obtain ⟨hr, hk⟩ := hashSetGet_mem hg
      exact absurd hk (hall r hr)

/-- Making a tombstone of the record that the lookup finds. -/
theorem erase_spec (hw : set.WF h) {r : R} (hg : hashSetGet h set k = some r) :
    ∃ i, ∃ c, set.find h k = some i ∧ set.slots i = .occupied r ∧
      set.erase h k = .ok { set with slots := Function.update set.slots i .deleted, count := c } ∧
      HashSet.WF h { set with slots := Function.update set.slots i .deleted, count := c } ∧
      set.entries = r ::ₘ tableEntries (Function.update set.slots i .deleted) := by
  obtain ⟨i, hi, hs, _⟩ := hashSetGet_eq_some hg
  have hent := tableEntries_erase hs
  have hcount : set.count = (tableEntries (Function.update set.slots i .deleted)).card + 1 := by
    rw [hw.count_eq, HashSet.entries, hent, Multiset.card_cons]
  refine ⟨i, set.count - 1, hi, hs, ?_, ⟨?_, hw.chained.erase i⟩, hent⟩
  · rw [HashSet.erase, hi]
    simp only
    rw [if_neg (by omega)]
  · change set.count - 1 = (tableEntries (Function.update set.slots i .deleted)).card
    omega

omit [DecidableEq K] in
theorem shrink_spec (hw : set.WF h) (alloc : Bool) :
    ∃ set', shrink h alloc set = .ok set' ∧ set'.WF h ∧ set'.entries = set.entries ∧
      set'.iterating = set.iterating := by
  by_cases hs : set.count < set.capacity / 4
  · cases alloc with
    | false => exact ⟨set, by simp [shrink, hs, reallocSet], hw, rfl, rfl⟩
    | true =>
      obtain ⟨set', hr, hrw, hre, _, _, hri⟩ := resize_spec
        (half_pos_of_sparse hs) hw (by omega)
      exact ⟨set', by simpa [shrink, hs, reallocSet] using hr, hrw, hre, hri⟩
  · exact ⟨set, by simp [shrink, hs], hw, rfl, rfl⟩

/-- A removal takes out the record that the lookup finds. -/
theorem hashSetRemove_spec (hw : set.WF h) (alloc : Bool) {r : R}
    (hg : hashSetGet h set k = some r) :
    ∃ set', hashSetRemove h alloc set k = .ok set' ∧ set'.WF h ∧
      set.entries = r ::ₘ set'.entries ∧ set'.iterating = set.iterating := by
  obtain ⟨i, c, _, _, he, hew, hent⟩ := erase_spec hw hg
  by_cases hit : set.iterating
  · exact ⟨_, by rw [hashSetRemove, he]; simp only; rw [if_pos hit], hew, hent, rfl⟩
  · obtain ⟨set', hs, hsw, hse, hsi⟩ := shrink_spec hew alloc
    refine ⟨set', ?_, hsw, hent.trans (congrArg _ hse.symm), hsi⟩
    rw [hashSetRemove, he]
    simp only
    rw [if_neg hit, hs]

/-! ### Records of calls that return -/

omit [DecidableEq K] in
/-- Rehashing that returns puts all records into the new table. -/
theorem rehash_entries {n : ℕ} {hn : 0 < n} {l : List (Slot R)} {table table' : Fin n → Slot R}
    (hrehash : rehash h hn l table = .ok table') :
    tableEntries table' = listEntries l + tableEntries table := by
  induction l generalizing table with
  | nil =>
    cases hrehash
    simp [listEntries]
  | cons s l ih =>
    cases s with
    | occupied r =>
      rw [rehash, reinsert] at hrehash
      split at hrehash
      · cases hrehash
      · rename_i t ht
        split at ht
        · cases ht
        · rename_i i hi
          cases ht
          have hfree : (table i).isOccupied = false := by
            have := (probe_full hi).1
            cases hs : table i <;> simp_all [Slot.isFree, Slot.isOccupied]
          rw [ih hrehash, tableEntries_fill hfree]
          simp [listEntries, ← Multiset.cons_coe]
    | free => exact ih hrehash
    | deleted => exact ih hrehash

omit [DecidableEq K] in
theorem resize_entries {n : ℕ} {hn : 0 < n} {set' : HashSet R}
    (hresize : set.resize h n hn = .ok set') : set'.entries = set.entries := by
  rw [HashSet.resize] at hresize
  split at hresize
  · cases hresize
  · rename_i table htable
    cases hresize
    have hentries := rehash_entries htable
    rwa [listEntries_slotList, tableEntries_empty, add_zero] at hentries

omit [DecidableEq K] in
theorem place_entries {set' : HashSet R} {r : R} (hplace : set.place h r = .ok set') :
    set'.entries = r ::ₘ set.entries := by
  rw [HashSet.place] at hplace
  split at hplace
  · cases hplace
  · rename_i i hi
    cases hplace
    exact tableEntries_fill (by simpa using (probe_full hi).1) r

omit [DecidableEq K] in
/-- An insertion that returns adds no other record. -/
theorem hashSetInsert_subset {alloc ok : Bool} {set' : HashSet R} {r : R}
    (hinsert : hashSetInsert h alloc set r = .ok (ok, set')) : set'.entries ⊆ r ::ₘ set.entries := by
  rw [hashSetInsert] at hinsert
  split at hinsert
  · split at hinsert
    · obtain ⟨grown, hgrown, hinsert⟩ := Exec.bind_eq_ok.1 hinsert
      obtain ⟨placed, hplaced, hinsert⟩ := Exec.bind_eq_ok.1 hinsert
      cases hinsert
      rw [place_entries hplaced, resize_entries hgrown]
      exact fun _ hq => hq
    · cases hinsert
      exact Multiset.subset_cons ..
  · obtain ⟨placed, hplaced, hinsert⟩ := Exec.bind_eq_ok.1 hinsert
    cases hinsert
    rw [place_entries hplaced]
    exact fun _ hq => hq

/-- A removal that returns adds no record. -/
theorem hashSetRemove_subset {alloc : Bool} {set' : HashSet R}
    (hremove : hashSetRemove h alloc set k = .ok set') : set'.entries ⊆ set.entries := by
  rw [hashSetRemove] at hremove
  split at hremove
  · cases hremove
  · rename_i erased herase
    have herased : erased.entries ⊆ set.entries := by
      rw [HashSet.erase] at herase
      split at herase
      · cases herase
      · rename_i i hi
        cases herase
        intro r hr
        obtain ⟨j, hj⟩ := mem_tableEntries.1 hr
        refine mem_tableEntries.2 ⟨j, ?_⟩
        change Function.update set.slots i .deleted j = .occupied r at hj
        by_cases hji : j = i
        · rw [hji, Function.update_self] at hj
          cases hj
        · rwa [Function.update_of_ne hji] at hj
    split at hremove
    · cases hremove
      exact herased
    · rw [shrink] at hremove
      split at hremove
      · rw [reallocSet] at hremove
        split at hremove
        · rw [resize_entries hremove]
          exact herased
        · cases hremove
          exact herased
      · cases hremove
        exact herased

/-- A removal that returns counts one record less, whatever it has found. -/
theorem count_of_hashSetRemove {set' : HashSet R} {alloc : Bool}
    (hrem : hashSetRemove h alloc set k = .ok set') :
    set'.count = if set.count = 0 then 2 ^ 64 - 1 else set.count - 1 := by
  have hresize {s s' : HashSet R} {n : ℕ} {hn : 0 < n} (hs : s.resize h n hn = .ok s') :
      s'.count = s.count := by
    rw [HashSet.resize] at hs
    split at hs
    · cases hs
    · cases hs
      rfl
  rw [hashSetRemove] at hrem
  split at hrem
  · cases hrem
  · rename_i erased herase
    have herased : erased.count = if set.count = 0 then 2 ^ 64 - 1 else set.count - 1 := by
      rw [HashSet.erase] at herase
      split at herase
      · cases herase
      · cases herase
        rfl
    rw [← herased]
    split at hrem
    · cases hrem
      rfl
    · rw [shrink] at hrem
      split at hrem
      · rw [reallocSet] at hrem
        split at hrem
        · exact hresize hrem
        · cases hrem
          rfl
      · cases hrem
        rfl

/-- A write through the pointer of a lookup exchanges the record it finds. -/
theorem hashSetWrite_spec (hw : set.WF h) {r r' : R} (hg : hashSetGet h set k = some r)
    (hk : h.key r' = h.key r) :
    (hashSetWrite h set k r').WF h ∧ ∃ rest, set.entries = r ::ₘ rest ∧
      (hashSetWrite h set k r').entries = r' ::ₘ rest := by
  obtain ⟨i, hi, hs, _⟩ := hashSetGet_eq_some hg
  have he : hashSetWrite h set k r' =
      { set with slots := Function.update set.slots i (.occupied r') } := by
    rw [hashSetWrite, hi]
  have hdel : Function.update (Function.update set.slots i .deleted) i (.occupied r') =
      Function.update set.slots i (.occupied r') := Function.update_idem ..
  have hent : tableEntries (Function.update set.slots i (.occupied r')) =
      r' ::ₘ tableEntries (Function.update set.slots i .deleted) := by
    rw [← hdel]
    exact tableEntries_fill (by rw [Function.update_self]; rfl) r'
  rw [he]
  refine ⟨⟨?_, hw.chained.write hs hk⟩, _, tableEntries_erase hs, hent⟩
  change set.count = (tableEntries _).card
  rw [hent, Multiset.card_cons, hw.count_eq, HashSet.entries, tableEntries_erase hs,
    Multiset.card_cons]

end Operations

end Syrup
