import Syrup.HashMap.FiniteMap
import Syrup.Lib.FreeIds
import Syrup.Lib.Run
import Syrup.Map.ObjectList

/-!
# Object ids are unique

An object list represents a map from object ids to objects (`Tracks`). What keeps it so is that the ids
on the stack and those of the objects are together the first ids, each once: then the id of a new
object is that of no other, and the stack never holds more ids than there have been objects at a time,
for which there is room in its block.
-/

namespace Syrup

open FreeIds HashSet Probe

/-! ## Object ids -/

/-- The number of an object id, as `object_list_free` puts it onto the stack. -/
def oidNumber (oid : UInt32) : ℕ := (oid &&& 0xFFFF).toNat

/-- The object id with a number. -/
def oidOf (n : ℕ) : UInt32 := UInt32.ofNat n ||| 0xFFFF0000

theorem toNat_oidOf {n : ℕ} (hn : n < 65536) : (oidOf n).toNat = 4294901760 + n := by
  have hor : 2 ^ 16 * 65535 + n = 2 ^ 16 * 65535 ||| n := Nat.two_pow_add_eq_or_of_lt hn 65535
  rw [oidOf, UInt32.toNat_or, UInt32.toNat_ofNat', Nat.mod_eq_of_lt (by omega), Nat.or_comm]
  exact hor.symm

theorem oidNumber_eq (oid : UInt32) : oidNumber oid = oid.toNat % 65536 := by
  rw [oidNumber, UInt32.toNat_and]
  exact Nat.and_two_pow_sub_one_eq_mod oid.toNat 16

theorem oidNumber_oidOf {n : ℕ} (hn : n < 65536) : oidNumber (oidOf n) = n := by
  rw [oidNumber_eq, toNat_oidOf hn]
  omega

/-- An object id is one that is handed out: it is not `-1`. -/
def ValidOid (oid : UInt32) : Prop := 0xFFFF0000 ≤ oid ∧ oid ≤ 0xFFFFFFFE

theorem ValidOid.ne {oid : UInt32} (h : ValidOid oid) : oid ≠ 0xFFFFFFFF := by
  rintro rfl
  exact absurd h.2 (by decide)

theorem validOid_oidOf {n : ℕ} (hn : n < 65535) : ValidOid (oidOf n) := by
  refine ⟨UInt32.le_iff_toNat_le.2 ?_, UInt32.le_iff_toNat_le.2 ?_⟩
  · rw [toNat_oidOf (by omega)]
    exact Nat.le_add_right ..
  · rw [toNat_oidOf (by omega)]
    change 4294901760 + n ≤ 4294967294
    omega

/-! ## The invariant -/

/-- The numbers of the ids of the objects. -/
def ObjectList.used (list : ObjectList) : Multiset ℕ :=
  list.objects.entries.map fun o => oidNumber o.oid

/-- The numbers on the stack. -/
def ObjectList.free (list : ObjectList) : List ℕ := list.freeStack.map UInt32.toNat

/-- A list keeps the objects of a map. -/
structure Tracks (env : Env) (list : ObjectList) (m : UInt32 → Option MapObject) : Prop where
  objects : Represents env.mapObjects list.objects m
  balanced : Balanced list.free list.used
  few : list.freeStack.length + list.objects.count ≤ 65535
  room : list.freeStack.length + list.objects.count ≤ list.freeStackSize
  size : list.freeStackSize = list.freeStackCapacity
  powers : ∃ i j, list.objects.capacity = 2 ^ i ∧ list.freeStackCapacity = 2 ^ (i + j)
  valid : ∀ oid, m oid ≠ none → ValidOid oid

namespace Tracks

variable {env : Env} {list list' : ObjectList} {m : UInt32 → Option MapObject}

theorem init : Tracks env objectListInit fun _ => none where
  objects := .of_entries_zero hashSetInit_wf hashSetInit_entries
  balanced := by
    rw [ObjectList.used, objectListInit, hashSetInit_entries]
    exact balanced_nil
  few := Nat.zero_le _
  room := Nat.zero_le _
  size := rfl
  powers := ⟨0, 0, rfl, rfl⟩
  valid _ h := absurd rfl h

theorem count_eq (h : Tracks env list m) : list.objects.count = list.used.card := by
  rw [ObjectList.used, Multiset.card_map]
  exact h.objects.wf.count_eq

theorem get_eq (h : Tracks env list m) (oid : UInt32) : objectListGet env list oid = m oid := by
  rw [objectListGet, h.objects.get_eq]
  split
  · rename_i hzero
    cases hm : m oid with
    | none => rfl
    | some o =>
      have hmem := ((h.objects.lookup oid o).1 hm).1
      rw [Multiset.card_eq_zero.1 (h.objects.wf.count_eq.symm.trans hzero)] at hmem
      exact absurd hmem (Multiset.notMem_zero o)
  · rfl

theorem oid_eq (h : Tracks env list m) {oid : UInt32} {o : MapObject} (hm : m oid = some o) :
    o.oid = oid := ((h.objects.lookup oid o).1 hm).2

/-- A list that is made larger keeps the same objects. -/
theorem grow (h : Tracks env list m) (allocTable allocStack : Bool) :
    ∃ o, list.grow env allocTable allocStack = .ok o ∧
      (o = none → list.objects.count = list.objects.capacity ∧
        (allocTable = false ∨ allocStack = false)) ∧
      ∀ list', o = some list' → Tracks env list' m ∧ list'.freeStack = list.freeStack ∧
        list'.objects.count = list.objects.count ∧ list'.objects.count < list'.objects.capacity := by
  have hle : list.objects.count ≤ list.objects.capacity := by
    rw [h.objects.wf.count_eq, HashSet.entries, card_tableEntries]
    exact (Finset.card_le_univ _).trans_eq (Fintype.card_fin _)
  rw [ObjectList.grow]
  split
  · rename_i hfull
    split
    · rename_i halloc
      exact ⟨none, rfl, fun _ => ⟨hfull, .inl (by simpa using halloc)⟩, (by simp)⟩
    · split
      · rename_i halloc
        exact ⟨none, rfl, fun _ => ⟨hfull, .inr (by simpa using halloc.2)⟩, (by simp)⟩
      · have hpos := list.objects.capacity_pos
        obtain ⟨objects, hr, hwf, hentries, hcap, hcount, -⟩ := resize_spec
          (Nat.mul_pos hpos Nat.two_pos) h.objects.wf (by omega)
        have hobjects := h.objects.of_entries hwf hentries
        have hused : objects.entries.map (fun o => oidNumber o.oid) = list.used := by
          rw [hentries, ObjectList.used]
        rw [hr]
        obtain ⟨i, j, hi, hj⟩ := h.powers
        have hroom := h.room
        rw [← hcount] at hroom
        split
        · -- The capacity of the stack is that of the table.
          rename_i hlt
          have hj0 : j = 0 := by
            rw [hi, hj, ← Nat.pow_succ] at hlt
            have := (Nat.pow_lt_pow_iff_right (by omega : 1 < 2)).1 hlt
            omega
          subst hj0
          rw [add_zero] at hj
          have hsize := h.size
          refine ⟨_, rfl, (by simp), fun list' he => ?_⟩
          cases Option.some.inj he
          refine ⟨⟨hobjects, ?_, hcount ▸ h.few, ?_, ?_, ⟨i + 1, 0, ?_, ?_⟩, h.valid⟩, rfl,
            hcount, ?_⟩
          · rw [ObjectList.used, hused]
            exact h.balanced
          · refine hroom.trans ?_
            change list.freeStackSize ≤ list.objects.capacity * 2
            rw [hsize, hi, hj]
            omega
          · exact (congrArg (· * 2) (hi.trans hj.symm))
          · rw [hcap, hi, Nat.pow_succ]
          · rw [hj, add_zero, Nat.pow_succ]
          · change objects.count < objects.capacity
            omega
        · rename_i hge
          refine ⟨_, rfl, (by simp), fun list' he => ?_⟩
          cases Option.some.inj he
          refine ⟨⟨hobjects, ?_, hcount ▸ h.few, hroom, h.size, ⟨i + 1, j - 1, ?_, ?_⟩,
            h.valid⟩, rfl, hcount, ?_⟩
          · rw [ObjectList.used, hused]
            exact h.balanced
          · rw [hcap, hi, Nat.pow_succ]
          · have hj0 : 0 < j := by
              by_contra hj0
              rw [Nat.eq_zero_of_not_pos hj0, add_zero] at hj
              exact hge (by rw [hi, hj]; have := Nat.two_pow_pos i; omega)
            rw [hj]
            congr 1
            omega
          · change objects.count < objects.capacity
            omega
  · rename_i hroom
    exact ⟨some list, rfl, (by simp), fun list' he => by
      cases Option.some.inj he
      exact ⟨h, rfl, rfl, lt_of_le_of_ne hle hroom⟩⟩

/-- The id of a new object. -/
theorem nextOid_eq (h : Tracks env list m) (hfew : list.objects.count < 65535) :
    ∃ n < 65535, list.nextOid = oidOf n ∧ n = next list.free list.used.card ∧
      n < max (list.freeStack.length + list.objects.count) (list.objects.count + 1) := by
  have hlt := h.balanced.next_lt
  rw [← h.count_eq, ObjectList.free, List.length_map] at hlt
  refine ⟨_, ?_, ?_, rfl, ?_⟩
  · rw [← h.count_eq, ObjectList.free]
    have := h.few
    omega
  · rw [ObjectList.nextOid, oidOf, ← h.count_eq, ObjectList.free]
    cases list.freeStack with
    | nil => rfl
    | cons a stack => exact congrArg (· ||| 0xFFFF0000) (UInt32.ofNat_toNat).symm
  · rwa [← h.count_eq]

/-- An object that is allocated has an id that no other one has. -/
theorem allocate (h : Tracks env list m) (allocTable allocStack : Bool) (type : MapObjectType)
    (index index2 : ℕ) :
    ∃ o list', objectListAllocate env allocTable allocStack list type index index2 = .ok (o, list') ∧
      (o = none → list' = list ∧ (list.objects.count = 65535 ∨
        list.objects.count = list.objects.capacity ∧ (allocTable = false ∨ allocStack = false))) ∧
      ∀ oid, o = some oid → m oid = none ∧ ValidOid oid ∧
        Tracks env list' (Function.update m oid (some ⟨type, oid, index, index2⟩)) := by
  rw [objectListAllocate]
  split
  · rename_i hmany
    exact ⟨none, list, rfl, fun _ => ⟨rfl, .inl hmany⟩, (by simp)⟩
  · rename_i hfew
    obtain ⟨o, hgrow, hnone, hsome⟩ := h.grow allocTable allocStack
    rw [hgrow]
    rcases o with - | grown
    · exact ⟨none, list, rfl, fun _ => ⟨rfl, .inr (hnone rfl)⟩, (by simp)⟩
    obtain ⟨hg, hstack, hcount, hlt⟩ := hsome grown rfl
    obtain ⟨n, hn, hoid, hnext, hmax⟩ := hg.nextOid_eq (by have := h.few; omega)
    have hvalid := validOid_oidOf hn
    -- No object has the number, and so none has the id.
    have hnew : m (oidOf n) = none := by
      by_contra hm
      obtain ⟨q, hq⟩ := Option.ne_none_iff_exists'.1 hm
      refine hg.balanced.next_not_mem (Multiset.mem_map.2 ⟨q, ((hg.objects.lookup _ q).1 hq).1, ?_⟩)
      rw [hg.oid_eq hq, oidNumber_oidOf (by omega)]
      exact hnext
    obtain ⟨objects, hplace, hwf, hentries, -⟩ := place_spec hg.objects.wf hlt
      ⟨type, oidOf n, index, index2⟩
    have hplaced : objects.count = grown.objects.count + 1 ∧
        objects.capacity = grown.objects.capacity := by
      rw [place] at hplace
      split at hplace
      · cases hplace
      · cases hplace
        exact ⟨rfl, rfl⟩
    refine ⟨some (oidOf n), { grown with objects := objects, freeStack := grown.freeStack.tail }, ?_,
      (by simp), ?_⟩
    · rw [← hoid] at hplace ⊢
      exact Exec.bind_eq_ok.2 ⟨some grown, rfl, Exec.bind_eq_ok.2 ⟨objects, hplace, rfl⟩⟩
    · rintro _ ⟨⟩
      have htail := grown.freeStack.length_tail
      have hle := le_max_left (grown.freeStack.length + grown.objects.count) (grown.objects.count + 1)
      have hroom := hg.room
      have hfew' := hg.few
      have hsize := hg.size
      obtain ⟨i, j, hi, hj⟩ := hg.powers
      have hcap : grown.objects.capacity ≤ grown.freeStackSize := by
        rw [hsize, hi, hj]
        exact Nat.pow_le_pow_right Nat.two_pos (Nat.le_add_right ..)
      have hsum : grown.freeStack.tail.length + objects.count ≤
          max (grown.freeStack.length + grown.objects.count) (grown.objects.count + 1) := by
        rw [htail, hplaced.1]
        omega
      have hstackroom : grown.objects.count + 1 ≤ grown.freeStackSize := by omega
      refine ⟨hnew, hvalid, ⟨?_, ?_, hsum.trans (max_le hfew' (by omega)),
        hsum.trans (max_le hroom hstackroom), hsize, ⟨i, j, hplaced.2.trans hi, hj⟩, ?_⟩⟩
      · exact hg.objects.insert (r := ⟨type, oidOf n, index, index2⟩) hnew hwf hentries
      · have htake := hg.balanced.take
        rw [← hnext] at htake
        rw [ObjectList.free, ObjectList.used, hentries, Multiset.map_cons, oidNumber_oidOf (by omega),
          List.map_tail]
        exact htake
      · intro oid hm
        by_cases he : oid = oidOf n
        · exact he ▸ hvalid
        · rw [Function.update_of_ne he] at hm
          exact h.valid oid hm

/-- An object is freed. -/
theorem free (h : Tracks env list m) (alloc : Bool) {oid : UInt32} (hm : m oid ≠ none) :
    ∃ list', objectListFree env alloc list oid = .ok list' ∧
      Tracks env list' (Function.update m oid none) := by
  obtain ⟨o, ho⟩ := Option.ne_none_iff_exists'.1 hm
  obtain ⟨i, c, hfind, hslot, herase, hwf, hentries⟩ :=
    erase_spec h.objects.wf ((h.objects.get_eq oid).trans ho)
  set erased : HashSet MapObject :=
    { list.objects with slots := Function.update list.objects.slots i .deleted, count := c }
    with herased
  obtain ⟨objects, hshrink, hwf', hentries', -⟩ := shrink_spec hwf alloc
  have hobjects : Represents env.mapObjects objects (Function.update m oid none) :=
    h.objects.remove ho hwf' (hentries.trans (congrArg _ hentries'.symm))
  have hcount : list.objects.count = objects.count + 1 := by
    rw [h.objects.wf.count_eq, hwf'.count_eq, hentries']
    exact (congrArg Multiset.card hentries).trans (Multiset.card_cons ..)
  -- The table is as large as it was, or half as large.
  have hcap : objects.capacity = list.objects.capacity ∨
      objects.capacity = list.objects.capacity / 2 ∧ 4 ≤ list.objects.capacity := by
    rw [shrink] at hshrink
    split at hshrink
    · rename_i hs
      rw [reallocSet] at hshrink
      split at hshrink
      · rw [resize] at hshrink
        split at hshrink
        · cases hshrink
        · cases hshrink
          have hs' : c < list.objects.capacity / 4 := hs
          exact .inr ⟨rfl, by omega⟩
      · cases hshrink
        exact .inl rfl
    · cases hshrink
      exact .inl rfl
  have hroom := h.room
  have hfew := h.few
  have hvalid := h.valid oid hm
  refine ⟨{ list with objects := objects, freeStack := (oid &&& 0xFFFF) :: list.freeStack }, ?_, ?_⟩
  · rw [objectListFree, hfind]
    simp only
    rw [if_pos (by rw [hslot]; rfl), if_pos (by omega)]
    exact Exec.bind_eq_ok.2 ⟨erased, herase, Exec.bind_eq_ok.2 ⟨objects, hshrink, rfl⟩⟩
  · refine ⟨hobjects, ?_, ?_, ?_, h.size, ?_, fun oid' hm' => ?_⟩
    · have hused : list.used = oidNumber oid ::ₘ objects.entries.map fun o => oidNumber o.oid := by
        rw [ObjectList.used, hentries', hentries, Multiset.map_cons, h.oid_eq ho]
        rfl
      have hbal := h.balanced
      rw [hused] at hbal
      exact hbal.give
    · rw [List.length_cons]
      change list.freeStack.length + 1 + objects.count ≤ 65535
      omega
    · rw [List.length_cons]
      change list.freeStack.length + 1 + objects.count ≤ list.freeStackSize
      omega
    · obtain ⟨i, j, hi, hj⟩ := h.powers
      rcases hcap with he | ⟨he, h4⟩
      · exact ⟨i, j, he.trans hi, hj⟩
      · rcases i with - | i
        · rw [hi] at h4
          omega
        · refine ⟨i, j + 1, he.trans ?_, hj.trans ?_⟩
          · rw [hi, Nat.pow_succ]
            omega
          · congr 1
            omega
    · by_cases he : oid' = oid
      · rw [he, Function.update_self] at hm'
        exact absurd rfl hm'
      · rw [Function.update_of_ne he] at hm'
        exact h.valid oid' hm'

/-- An object is written to, but for its id. -/
theorem write (h : Tracks env list m) {oid : UInt32} {o : MapObject} (hm : m oid ≠ none)
    (ho : o.oid = oid) :
    Tracks env (objectListWrite env list oid o) (Function.update m oid (some o)) := by
  obtain ⟨q, hq⟩ := Option.ne_none_iff_exists'.1 hm
  have hkey : env.mapObjects.key o = env.mapObjects.key q := ho.trans (h.oid_eq hq).symm
  obtain ⟨-, rest, hentries, hentries'⟩ :=
    hashSetWrite_spec h.objects.wf ((h.objects.get_eq oid).trans hq) hkey
  have hsame : (objectListWrite env list oid o).used = list.used ∧
      (objectListWrite env list oid o).objects.count = list.objects.count ∧
      (objectListWrite env list oid o).objects.capacity = list.objects.capacity := by
    refine ⟨?_, ?_, ?_⟩
    · change (hashSetWrite env.mapObjects list.objects oid o).entries.map _ = list.used
      rw [ObjectList.used, hentries, hentries', Multiset.map_cons, Multiset.map_cons, ho, h.oid_eq hq]
    · rw [objectListWrite, hashSetWrite]
      split <;> rfl
    · rw [objectListWrite, hashSetWrite]
      split <;> rfl
  obtain ⟨i, j, hi, hj⟩ := h.powers
  refine ⟨h.objects.write hq hkey, ?_, ?_, ?_, h.size, ⟨i, j, hsame.2.2.trans hi, hj⟩,
    fun oid' hm' => ?_⟩
  · rw [hsame.1]
    exact h.balanced
  · rw [hsame.2.1]
    exact h.few
  · rw [hsame.2.1]
    exact h.room
  · by_cases he : oid' = oid
    · exact he ▸ h.valid oid hm
    · rw [Function.update_of_ne he] at hm'
      exact h.valid oid' hm'

end Tracks

/-! ## Runs -/

/-- A list, and the objects that have been allocated and not freed. -/
structure LiveObjects where
  list : ObjectList
  live : List MapObject

/-- What is done with a list: an object is allocated, and its caller writes to it; or an object is
    freed. The outcomes of the allocations of memory are told. -/
inductive ObjectCall
  | allocate (allocTable allocStack : Bool) (type : MapObjectType) (index index2 : ℕ)
  | free (alloc : Bool) (oid : UInt32)

/-- The list after it. -/
def ObjectCall.step (env : Env) : ObjectCall → LiveObjects → Exec LiveObjects
  | allocate allocTable allocStack type index index2, s => do
    let (o, list) ← objectListAllocate env allocTable allocStack s.list type index index2
    match o with
    | none => return { s with list := list }
    | some oid => return ⟨list, ⟨type, oid, index, index2⟩ :: s.live⟩
  | free alloc oid, s => do
    let list ← objectListFree env alloc s.list oid
    return ⟨list, s.live.filter fun o => o.oid ≠ oid⟩

/-- Only objects that are live are freed. -/
def FreesLive : ObjectCall → LiveObjects → Prop
  | .allocate .., _ => True
  | .free _ oid, s => ∃ o ∈ s.live, o.oid = oid

/-- The live objects of a list are told apart by their ids, and found by them. -/
structure Resolvable (env : Env) (s : LiveObjects) : Prop where
  distinct : (s.live.map MapObject.oid).Nodup
  valid : ∀ o ∈ s.live, ValidOid o.oid
  found : ∀ o ∈ s.live, objectListGet env s.list o.oid = some o
  notFound : ∀ oid, (∀ o ∈ s.live, o.oid ≠ oid) → objectListGet env s.list oid = none
  stack : s.list.freeStack.length ≤ s.list.freeStackSize

section Run

variable {env : Env} {s s' : LiveObjects}

/-- The map of the objects in a list. -/
def liveMap (live : List MapObject) (oid : UInt32) : Option MapObject :=
  live.find? fun o => o.oid == oid

/-- The live objects are those of the list. -/
structure LiveKept (env : Env) (s : LiveObjects) : Prop where
  tracks : Tracks env s.list (liveMap s.live)
  distinct : (s.live.map MapObject.oid).Nodup

theorem liveMap_eq_none {live : List MapObject} {oid : UInt32} :
    liveMap live oid = none ↔ ∀ o ∈ live, o.oid ≠ oid := by
  rw [liveMap, List.find?_eq_none]
  simp only [beq_iff_eq]

theorem liveMap_cons (o : MapObject) (live : List MapObject) :
    liveMap (o :: live) = Function.update (liveMap live) o.oid (some o) := by
  funext oid
  rw [liveMap, List.find?_cons]
  by_cases he : oid = o.oid
  · rw [he, Function.update_self, beq_self_eq_true]
  · rw [Function.update_of_ne he, beq_eq_false_iff_ne.2 (Ne.symm he)]
    rfl

theorem liveMap_filter (live : List MapObject) (oid : UInt32) :
    liveMap (live.filter fun o => o.oid ≠ oid) = Function.update (liveMap live) oid none := by
  funext oid'
  rw [liveMap, List.find?_filter]
  by_cases he : oid' = oid
  · rw [he, Function.update_self, List.find?_eq_none]
    intro o _ ho
    simp at ho
  · rw [Function.update_of_ne he, liveMap]
    congr 1
    funext o
    by_cases ho : o.oid = oid'
    · simp [ho, he]
    · simp [ho]

/-- In a list of objects with distinct ids, each is found by its id. -/
theorem liveMap_mem {live : List MapObject} (hlive : (live.map MapObject.oid).Nodup) {o : MapObject}
    (ho : o ∈ live) : liveMap live o.oid = some o := by
  induction live with
  | nil => exact absurd ho List.not_mem_nil
  | cons q live ih =>
    rw [List.map_cons, List.nodup_cons] at hlive
    rw [liveMap_cons]
    rcases List.mem_cons.1 ho with rfl | ho
    · rw [Function.update_self]
    · have hne : o.oid ≠ q.oid := fun he => hlive.1 (he ▸ List.mem_map_of_mem ho)
      rw [Function.update_of_ne hne]
      exact ih hlive.2 ho

theorem LiveKept.resolvable (h : LiveKept env s) : Resolvable env s where
  distinct := h.distinct
  valid o ho := h.tracks.valid o.oid (by rw [liveMap_mem h.distinct ho]; exact nofun)
  found o ho := (h.tracks.get_eq o.oid).trans (liveMap_mem h.distinct ho)
  notFound oid hnone := (h.tracks.get_eq oid).trans (liveMap_eq_none.2 hnone)
  stack := (Nat.le_add_right ..).trans h.tracks.room

/-- A call returns, and keeps the live objects. -/
theorem LiveKept.step (h : LiveKept env s) {a : ObjectCall} (ha : FreesLive a s) :
    ∃ s', a.step env s = .ok s' ∧ LiveKept env s' := by
  rcases a with ⟨allocTable, allocStack, type, index, index2⟩ | ⟨alloc, oid⟩
  · obtain ⟨o, list, hcall, hnone, hsome⟩ := h.tracks.allocate allocTable allocStack type index index2
    rcases o with - | oid
    · refine ⟨{ s with list := list }, Exec.bind_eq_ok.2 ⟨_, hcall, rfl⟩, ?_⟩
      rw [(hnone rfl).1]
      exact h
    · obtain ⟨hnew, -, htracks⟩ := hsome oid rfl
      refine ⟨⟨list, ⟨type, oid, index, index2⟩ :: s.live⟩, Exec.bind_eq_ok.2 ⟨_, hcall, rfl⟩, ?_, ?_⟩
      · rw [liveMap_cons]
        exact htracks
      · refine List.nodup_cons.2 ⟨fun hmem => ?_, h.distinct⟩
        obtain ⟨q, hq, hoid⟩ := List.mem_map.1 hmem
        exact liveMap_eq_none.1 hnew q hq hoid
  · obtain ⟨o, ho, hoid⟩ := ha
    have hlive : liveMap s.live oid ≠ none := by
      rw [← hoid, liveMap_mem h.distinct ho]
      exact nofun
    obtain ⟨list, hcall, htracks⟩ := h.tracks.free alloc hlive
    refine ⟨_, Exec.bind_eq_ok.2 ⟨list, hcall, rfl⟩, ?_, ?_⟩
    · rw [liveMap_filter]
      exact htracks
    · exact h.distinct.sublist (List.filter_sublist.map _)

/-- From an empty list, the live objects are told apart by their ids and found by them, and every
    call returns. -/
theorem objects_run (hrun : Machine.Run (ObjectCall.step env) FreesLive ⟨objectListInit, []⟩ s) :
    Resolvable env s ∧ ∀ a, FreesLive a s → ∃ s', a.step env s = .ok s' := by
  have hkept : LiveKept env s := by
    refine hrun.invariant ⟨Tracks.init, List.nodup_nil⟩ fun a s s' h ha hstep => ?_
    obtain ⟨s₁, hs₁, h₁⟩ := h.step ha
    rw [hstep] at hs₁
    cases hs₁
    exact h₁
  refine ⟨hkept.resolvable, fun a ha => ?_⟩
  obtain ⟨s', hs', -⟩ := hkept.step ha
  exact ⟨s', hs'⟩

end Run

/-- Two objects are allocated, and the first is freed. -/
theorem objects_run_two : ∃ s, Resolvable (Env.ofLists [] [] [] []) s ∧
    s.live.map MapObject.oid = [0xFFFF0001] ∧ s.list.freeStack = [0] := by
  let two : List ObjectCall := [.allocate true true .npc 0 0, .allocate true true .npc 1 0]
  have htwo : (two.foldlM (fun s a => ObjectCall.step (Env.ofLists [] [] [] []) a s)
      ⟨objectListInit, []⟩).Returns fun s => s.live.map MapObject.oid = [0xFFFF0001, 0xFFFF0000] ∧
        ((ObjectCall.free true 0xFFFF0000).step (Env.ofLists [] [] [] []) s).Returns fun s =>
          s.live.map MapObject.oid = [0xFFFF0001] ∧ s.list.freeStack = [0] := by
    decide +kernel
  obtain ⟨s, hrun, hlive, hfree⟩ := Exec.returns_iff.1 htwo
  obtain ⟨s', hstep, hlast⟩ := Exec.returns_iff.1 hfree
  have hfirst : Machine.Run (ObjectCall.step (Env.ofLists [] [] [] [])) FreesLive
      ⟨objectListInit, []⟩ s := by
    refine .of_foldlM (fun a ha _ => ?_) hrun
    rcases List.mem_pair.1 ha with rfl | rfl <;> trivial
  have hmem : (0xFFFF0000 : UInt32) ∈ s.live.map MapObject.oid := by
    rw [hlive]
    exact List.mem_cons_of_mem _ (List.mem_singleton_self _)
  have hrun' := hfirst.step (ObjectCall.free true 0xFFFF0000) (List.mem_map.1 hmem) hstep
  exact ⟨s', (objects_run hrun').1, hlast⟩

end Syrup
