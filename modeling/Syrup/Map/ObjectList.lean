import Syrup.HashMap
import Syrup.Wz

/-!
# Map objects

The object list of `map.c`: a table of the objects of a map, under their object ids. It is a table as
those of `hash-map.c` are, with the same probing, tombstones, growing and shrinking, written out once
more for objects.

The ids are handed out by the list: an id that has been freed is on a stack, from whose top the next
object takes its id; if there is none, the number of objects is the id. The block in which the stack is
has the size `freeStackSize`, and the list believes it to be `freeStackCapacity`.

An object of the type `MAP_OBJECT_NONE` or `MAP_OBJECT_DELETED` is a slot of the table that is free, or
a tombstone. `object_list_allocate` returns an object that is still of the type `MAP_OBJECT_NONE`,
which its callers then write to; here they tell beforehand what they write.
-/

namespace Syrup

/-- `enum MapObjectType`, without the types of empty slots. -/
inductive MapObjectType
  | monster
  | npc
  | reactor
  | drop
  | dropping
  | boss
  deriving DecidableEq, Repr

/-- `struct MapObject`. -/
structure MapObject where
  type : MapObjectType
  oid : UInt32
  index : ℕ
  index2 : ℕ
  deriving DecidableEq, Repr

/-- `struct ObjectList`; the first of `freeStack` is the top of the stack. -/
structure ObjectList where
  objects : HashSet MapObject
  freeStack : List UInt32
  freeStackCapacity : ℕ
  freeStackSize : ℕ

/-- The keys of the objects. -/
def Env.mapObjects (env : Env) : Hashing MapObject UInt32 := ⟨MapObject.oid, env.hash32⟩

/-- `object_list_init`. -/
def objectListInit : ObjectList where
  objects := hashSetInit
  freeStack := []
  freeStackCapacity := 1
  freeStackSize := 1

variable (env : Env)

namespace ObjectList

/-- The table and the stack are made larger, if the table is full and the allocations succeed. -/
def grow (allocTable allocStack : Bool) (list : ObjectList) : Exec (Option ObjectList) :=
  if list.objects.count = list.objects.capacity then
    if ¬allocTable then return none
    else if list.freeStackCapacity < list.objects.capacity * 2 ∧ ¬allocStack then return none
    else do
      let objects ← list.objects.resize env.mapObjects (list.objects.capacity * 2)
        (Nat.mul_pos list.objects.capacity_pos Nat.two_pos)
      if list.freeStackCapacity < list.objects.capacity * 2 then
        return some { list with
          objects := objects
          freeStackCapacity := list.freeStackCapacity * 2
          freeStackSize := list.objects.capacity * 2 }
      else return some { list with objects := objects }
  else return some list

/-- The id of the next object. -/
def nextOid (list : ObjectList) : UInt32 :=
  list.freeStack.head?.getD (UInt32.ofNat list.objects.count) ||| 0xFFFF0000

end ObjectList

/-- `object_list_allocate`, and what the caller writes to the object. The result is the id of the
    object, or `none` for `NULL`. -/
def objectListAllocate (allocTable allocStack : Bool) (list : ObjectList) (type : MapObjectType)
    (index index2 : ℕ) : Exec (Option UInt32 × ObjectList) :=
  if list.objects.count = 65535 then return (none, list)
  else do
    match ← list.grow env allocTable allocStack with
    | none => return (none, list)
    | some grown =>
      let oid := grown.nextOid
      let objects ← grown.objects.place env.mapObjects ⟨type, oid, index, index2⟩
      return (some oid, { grown with objects := objects, freeStack := grown.freeStack.tail })

/-- `object_list_free`. -/
def objectListFree (alloc : Bool) (list : ObjectList) (oid : UInt32) : Exec ObjectList :=
  match list.objects.find env.mapObjects oid with
  | none => .error .divergence
  | some i =>
    if (list.objects.slots i).isOccupied then
      if list.freeStack.length < list.freeStackSize then do
        let objects ← list.objects.erase env.mapObjects oid
        let objects ← shrink env.mapObjects alloc objects
        return { list with objects := objects, freeStack := (oid &&& 0xFFFF) :: list.freeStack }
      else .error .outOfBounds
    else .error .assertion

/-- `object_list_get`. -/
def objectListGet (list : ObjectList) (oid : UInt32) : Option MapObject :=
  if list.objects.count = 0 then none else hashSetGet env.mapObjects list.objects oid

/-- A write through the pointer that `object_list_get` returns. -/
def objectListWrite (list : ObjectList) (oid : UInt32) (object : MapObject) : ObjectList :=
  { list with objects := hashSetWrite env.mapObjects list.objects oid object }

end Syrup
