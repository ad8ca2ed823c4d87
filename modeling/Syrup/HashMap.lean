import Syrup.Exec
import Syrup.Lib.Probe
import Syrup.Lib.Slots
import Syrup.Lib.Sweep

/-!
# Hash sets

The hash sets of `hash-map.c`: open addressing in a table of `capacity` slots
with linear probing, where a removal leaves a tombstone (`Slot.deleted`). The
table doubles when an insertion finds it full, and is halved by a removal that
leaves less than a quarter of it in use, or by the end of a `foreach` that did.

A record carries its key (`Hashing.key`); its hash is whatever the hash function
(`Hashing.hash`, in the program `XXH3_64bits` of the bytes of the key) makes of
the key. The outcome of the allocations is an argument (`alloc`): a call with
`alloc = false` is one in which `malloc` returns `NULL` if it is called.

The payload of a slot that is not occupied is never read, so that it is left
out. A probing loop that would go round the table for ever is a
`Fault.divergence`.
-/

namespace Syrup

open Probe

/-- A slot of the table: `states[i]` together with `data[i]`. -/
inductive Slot (R : Type*)
  | free
  | occupied (record : R)
  | deleted
  deriving DecidableEq, Repr

namespace Slot

variable {R : Type*}

/-- The record of an occupied slot. -/
def record? : Slot R → Option R
  | .occupied r => some r
  | _ => none

@[simp] theorem record?_free : (.free : Slot R).record? = none := rfl

@[simp] theorem record?_deleted : (.deleted : Slot R).record? = none := rfl

@[simp] theorem record?_occupied (r : R) : (Slot.occupied r).record? = some r := rfl

@[simp] theorem record?_eq_some {s : Slot R} {r : R} : s.record? = some r ↔ s = .occupied r := by
  cases s <;> simp [record?]

/-- `states[i] == 0`. -/
def isFree : Slot R → Bool
  | .free => true
  | _ => false

/-- `states[i] == 1`. -/
def isOccupied : Slot R → Bool
  | .occupied _ => true
  | _ => false

end Slot

/-- How the records of a set are told apart: the key in a record, and the hash
    of a key. -/
structure Hashing (R K : Type*) where
  key : R → K
  hash : K → UInt64

/-- `struct HashSet`. -/
structure HashSet (R : Type*) where
  capacity : ℕ
  capacity_pos : 0 < capacity
  count : ℕ
  slots : Fin capacity → Slot R
  iterating : Bool

variable {R K σ : Type*}

/-- `hash_set_init`. -/
def hashSetInit : HashSet R where
  capacity := 1
  capacity_pos := Nat.one_pos
  count := 0
  slots _ := .free
  iterating := false

instance : Inhabited (HashSet R) := ⟨hashSetInit⟩

/-- The index at which the probing for a key starts: its hash modulo the
    capacity. -/
def Hashing.home (h : Hashing R K) {n : ℕ} (hn : 0 < n) (k : K) : Fin n :=
  ⟨(h.hash k).toNat % n, Nat.mod_lt _ hn⟩

/-- One step of the rehashing loops: the record goes into the first free slot
    of the new table from its home on. -/
def reinsert (h : Hashing R K) {n : ℕ} (hn : 0 < n) (table : Fin n → Slot R) (r : R) :
    Exec (Fin n → Slot R) :=
  match probe (fun i => (table i).isFree) n (h.home hn (h.key r)) with
  | none => .error .divergence
  | some i => .ok (Function.update table i (.occupied r))

/-- The rehashing loop: the records, in the order of the old table, are put into
    the new one. (When the table is grown, it is full, and the source does not
    look at the states.) -/
def rehash (h : Hashing R K) {n : ℕ} (hn : 0 < n) : List (Slot R) → (Fin n → Slot R) →
    Exec (Fin n → Slot R)
  | [], table => .ok table
  | .occupied r :: l, table =>
    match reinsert h hn table r with
    | .error e => .error e
    | .ok table' => rehash h hn l table'
  | _ :: l, table => rehash h hn l table

namespace HashSet

/-- The slots of the table, in the order of their indices. -/
def slotList (set : HashSet R) : List (Slot R) := List.ofFn set.slots

/-- The table rehashed into one of capacity `n`. -/
def resize (h : Hashing R K) (set : HashSet R) (n : ℕ) (hn : 0 < n) : Exec (HashSet R) :=
  match rehash h hn set.slotList (fun _ => .free) with
  | .error e => .error e
  | .ok table =>
    .ok { capacity := n, capacity_pos := hn, count := set.count, slots := table,
          iterating := set.iterating }

/-- The last lines of `hash_set_insert`: the record goes into the first slot
    from its home on that is not occupied. -/
def place (h : Hashing R K) (set : HashSet R) (r : R) : Exec (HashSet R) :=
  match probe (fun i => !(set.slots i).isOccupied) set.capacity
      (h.home set.capacity_pos (h.key r)) with
  | none => .error .divergence
  | some i =>
    .ok { set with slots := Function.update set.slots i (.occupied r), count := set.count + 1 }

/-- Whether the probing for a key ends at a slot: it is free, or it holds a
    record with the key. -/
def stops [DecidableEq K] (h : Hashing R K) (k : K) : Slot R → Bool
  | .free => true
  | .occupied r => decide (h.key r = k)
  | .deleted => false

/-- The slot at which the probing for a key ends, if it does before having gone
    round the table. -/
def find [DecidableEq K] (h : Hashing R K) (set : HashSet R) (k : K) :
    Option (Fin set.capacity) :=
  probe (fun i => stops h k (set.slots i)) set.capacity (h.home set.capacity_pos k)

end HashSet

open HashSet

/-- `hash_set_insert`: whether the record has been inserted (`0`, and not `-1`). -/
def hashSetInsert (h : Hashing R K) (alloc : Bool) (set : HashSet R) (r : R) :
    Exec (Bool × HashSet R) :=
  if set.count = set.capacity then
    if alloc then do
      let grown ← set.resize h (set.capacity * 2) (Nat.mul_pos set.capacity_pos Nat.two_pos)
      let set' ← grown.place h r
      return (true, set')
    else return (false, set)
  else do
    let set' ← set.place h r
    return (true, set')

/-- `hash_set_get`: the record pointed to, or `none` for `NULL`. -/
def hashSetGet [DecidableEq K] (h : Hashing R K) (set : HashSet R) (k : K) : Option R :=
  (set.find h k).bind fun i => (set.slots i).record?

/-- A write through the pointer that `hash_set_get` returns. -/
def hashSetWrite [DecidableEq K] (h : Hashing R K) (set : HashSet R) (k : K) (r : R) :
    HashSet R :=
  match set.find h k with
  | none => set
  | some i => { set with slots := Function.update set.slots i (.occupied r) }

/-- `realloc_set`: halves the table, if the allocations succeed. -/
def reallocSet (h : Hashing R K) (alloc : Bool) (set : HashSet R) (hn : 0 < set.capacity / 2) :
    Exec (HashSet R) :=
  if alloc then set.resize h (set.capacity / 2) hn else .ok set

theorem half_pos_of_sparse {set : HashSet R} (hs : set.count < set.capacity / 4) :
    0 < set.capacity / 2 := by omega

/-- The halving of a table of which less than a quarter is in use. -/
def shrink (h : Hashing R K) (alloc : Bool) (set : HashSet R) : Exec (HashSet R) :=
  if hs : set.count < set.capacity / 4 then reallocSet h alloc set (half_pos_of_sparse hs)
  else .ok set

/-- The part of `hash_set_remove` that removes: the slot at which the probing for
    the key ends becomes a tombstone. (`count` is a `size_t`.) -/
def HashSet.erase [DecidableEq K] (h : Hashing R K) (set : HashSet R) (k : K) :
    Exec (HashSet R) :=
  match set.find h k with
  | none => .error .divergence
  | some i =>
    .ok { set with
      slots := Function.update set.slots i .deleted
      count := if set.count = 0 then 2 ^ 64 - 1 else set.count - 1 }

/-- `hash_set_remove`. -/
def hashSetRemove [DecidableEq K] (h : Hashing R K) (alloc : Bool) (set : HashSet R) (k : K) :
    Exec (HashSet R) :=
  match set.erase h k with
  | .error e => .error e
  | .ok set' => if set'.iterating then .ok set' else shrink h alloc set'

/-- `hash_set_u32_size`, `hash_set_u16_size`. -/
def hashSetSize (set : HashSet R) : ℕ := set.count

/-- `hash_set_clear`. -/
def hashSetClear (set : HashSet R) : HashSet R where
  capacity := 1
  capacity_pos := Nat.one_pos
  count := 0
  slots _ := .free
  iterating := set.iterating

/-- The removals a callback makes in one call. -/
def removeAll [DecidableEq K] (h : Hashing R K) (alloc : Bool) :
    List K → HashSet R → Exec (HashSet R)
  | [], set => .ok set
  | k :: ks, set =>
    match hashSetRemove h alloc set k with
    | .error e => .error e
    | .ok set' => removeAll h alloc ks set'

/-- The loop of `hash_set_u32_foreach`, from the given indices on. The callback
    gets a record and its context, and says which keys it removes. -/
def foreachLoop [DecidableEq K] (h : Hashing R K) (alloc : Bool) (f : R → σ → List K × σ) :
    List ℕ → HashSet R → σ → Exec (HashSet R × σ)
  | [], set, ctx => .ok (set, ctx)
  | i :: l, set, ctx =>
    if hi : i < set.capacity then
      match set.slots ⟨i, hi⟩ with
      | .occupied r =>
        match removeAll h alloc (f r ctx).1 set with
        | .error e => .error e
        | .ok set' => foreachLoop h alloc f l set' (f r ctx).2
      | _ => foreachLoop h alloc f l set ctx
    else .ok (set, ctx)

/-- `hash_set_u32_foreach`, for a callback that may remove. -/
def hashSetU32Foreach [DecidableEq K] (h : Hashing R K) (alloc : Bool) (f : R → σ → List K × σ)
    (set : HashSet R) (ctx : σ) : Exec (HashSet R × σ) :=
  match foreachLoop h alloc f (List.range set.capacity) { set with iterating := true } ctx with
  | .error e => .error e
  | .ok (set', ctx') =>
    match shrink h alloc { set' with iterating := false } with
    | .error e => .error e
    | .ok set'' => .ok (set'', ctx')

/-- `hash_set_u16_foreach`, for a callback that may write to the record it gets,
    but for its key. -/
def hashSetU16Foreach (f : R → σ → Exec (R × σ)) (set : HashSet R) (ctx : σ) :
    Exec (HashSet R × σ) :=
  let body (_ : Fin set.capacity) (s : Slot R) (c : σ) : Exec (Sweep.Out (Slot R) σ) :=
    match s with
    | .occupied r =>
      match f r c with
      | .error e => .error e
      | .ok (r', c') => .ok { cell := .occupied r', state := c', stop := false }
    | s => .ok { cell := s, state := c, stop := false }
  match Sweep.sweep body (List.finRange set.capacity) set.slots ctx with
  | .error e => .error e
  | .ok (slots, ctx') => .ok ({ set with slots := slots }, ctx')

end Syrup
