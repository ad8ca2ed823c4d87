import Syrup.Item
import Syrup.Map.ControllerHeap
import Syrup.Map.ObjectList

/-!
# Maps

The state of a map, from `map.c`. It has players and monsters, which are in arrays that may be moved
and whose elements point at each other; drops, which are in batches, of which some are still dropping;
and objects, by which a client knows what is on the map.

A pointer into an array is the number of the block the array is in, and an index; when the array is
moved it gets another number, so that pointers into the old block are dangling. The arrays of a player
are kept in his entry. A batch is known by a number, its address, and so is a timer; what has been
freed is `none`. To read through a pointer that is `NULL` or dangling is a fault.

Where things are is left out, and so is what is said to the clients. What the program does not
determine is an argument (`Outcomes`): whether allocations succeed, the random numbers, and whether a
client picks up a drop by itself.
-/

namespace Syrup

/-- A pointer to a `struct MapMonster`. -/
structure MonsterRef where
  block : ℕ
  index : ℕ
  deriving DecidableEq, Repr, Inhabited

/-- `struct MapMonster`; the spawner is `none` for `-1`. -/
structure MapMonster where
  oid : UInt32
  id : UInt32
  hp : Int32
  spawnerIndex : Option ℕ
  controller : Option PlayerRef
  indexInController : ℕ
  deriving Inhabited

/-- `struct MapPlayer`; `container` is the client whose handle it is, and `charId` the id of his
    character. The sizes are those of the blocks, which the capacities are meant to be. -/
structure MapPlayer where
  container : ℕ
  charId : UInt32
  node : Option ℕ
  monsterCount : ℕ
  monsterSize : ℕ
  monsters : ℕ → MonsterRef
  dropCapacity : ℕ
  dropSize : ℕ
  dropCount : ℕ
  drops : ℕ → ℕ
  droppingCapacity : ℕ
  droppingSize : ℕ
  droppingCount : ℕ
  droppings : ℕ → ℕ
  deriving Inhabited

/-- What is in a `struct Drop`. -/
inductive DropItem
  | meso (amount : Int32)
  | item (qid : UInt16) (item : InventoryItem)
  | equip (equip : Equipment)

/-- `struct Drop`. -/
structure Drop where
  oid : UInt32
  item : DropItem

/-- `struct DroppingBatch`; the count is the length of `drops`. -/
structure DroppingBatch where
  index : ℕ
  current : ℕ
  timer : Option ℕ
  owner : Option PlayerRef
  indexInPlayer : ℕ
  ownerId : UInt32
  dropperOid : UInt32
  drops : List Drop

/-- `struct DropBatch`; the count is the length of `drops`. -/
structure DropBatch where
  timer : Option ℕ
  owner : Option PlayerRef
  indexInPlayer : ℕ
  ownerId : UInt32
  exclusive : Bool
  drops : List Drop

/-- What a timer of the room of a map does. -/
inductive MapTimer
  | nextDrop (batch : ℕ)
  | exclusiveDropTimeExpired
  | dropTimeExpired
  deriving DecidableEq

/-- `struct Reactor`. -/
structure Reactor where
  oid : UInt32
  id : UInt32

/-- `struct DropInfo`. -/
structure DropInfo where
  itemId : UInt32
  min : ℤ
  max : ℤ
  isQuest : Bool
  questId : UInt16
  chance : ℤ

/-- What a map looks up. -/
structure MapEnv extends Env where
  /-- `wz_get_monster_stats(id)->hp`. -/
  monsterHp : UInt32 → Option Int32
  /-- `drop_info_find`. -/
  dropInfo : UInt32 → Option (List DropInfo)
  /-- `reactor_drop_info_find`. -/
  reactorDropInfo : UInt32 → Option (List DropInfo)
  /-- How many monsters there are to be with so many players, and so many spawners. -/
  maxSpawnCount : ℕ → ℕ → ℕ
  maxSpawnCount_le : ∀ players spawners, maxSpawnCount players spawners ≤ spawners

/-- What the program does not determine. -/
structure Outcomes where
  /-- The outcomes of the allocations of a call. -/
  alloc : ℕ → Bool
  /-- Whether an array that is made larger is moved. -/
  moves : Bool
  /-- `rand()`. -/
  rand : ℕ → ℕ
  /-- Whether the owner of a drop picks it up at once: auto pickup is enabled, and he has room. -/
  picksUp : Bool

/-- Outcomes of allocations, where nothing else matters. -/
def Outcomes.ofAlloc (alloc : ℕ → Bool) : Outcomes where
  alloc := alloc
  moves := false
  rand _ := 0
  picksUp := false

/-- `struct Map`. -/
structure Map where
  playersBlock : ℕ
  playerCapacity : ℕ
  playerCount : ℕ
  players : ℕ → MapPlayer
  /-- `struct MapHandleContainer`, of each client. -/
  container : ℕ → Option PlayerRef
  objectList : ObjectList
  npcs : List UInt32
  spawners : List UInt32
  monstersBlock : ℕ
  monsterCapacity : ℕ
  monsterCount : ℕ
  monsters : ℕ → MapMonster
  dead : List ℕ
  heap : ControllerHeap
  reactors : List Reactor
  droppingBatchCapacity : ℕ
  droppingBatchCount : ℕ
  droppingBatches : ℕ → ℕ
  dropping : ℕ → Option DroppingBatch
  dropBatchCapacity : ℕ
  dropBatchStart : ℕ
  dropBatchEnd : ℕ
  dropBatches : ℕ → Option ℕ
  batch : ℕ → Option DropBatch
  nextBatch : ℕ
  boss : MapMonster
  timers : ℕ → Option MapTimer
  nextTimer : ℕ

namespace MapPlayer

variable (p : MapPlayer)

/-- `player->monsters[j]`. -/
def readMonster (j : ℕ) : Exec MonsterRef := do
  Exec.within p.monsterSize j
  return p.monsters j

/-- `player->monsters[j] = ref`. -/
def writeMonster (j : ℕ) (ref : MonsterRef) : Exec MapPlayer := do
  Exec.within p.monsterSize j
  return { p with monsters := Function.update p.monsters j ref }

/-- `player->monsters[player->monsterCount] = ref; player->monsterCount++`. -/
def pushMonster (ref : MonsterRef) : Exec MapPlayer := do
  let p ← p.writeMonster p.monsterCount ref
  return { p with monsterCount := p.monsterCount + 1 }

/-- `player->drops[j]`. -/
def readDrop (j : ℕ) : Exec ℕ := do
  Exec.within p.dropSize j
  return p.drops j

/-- `player->drops[j] = batch`. -/
def writeDrop (j batch : ℕ) : Exec MapPlayer := do
  Exec.within p.dropSize j
  return { p with drops := Function.update p.drops j batch }

/-- `player->drops[player->dropCount] = batch; player->dropCount++`. -/
def pushDrop (batch : ℕ) : Exec MapPlayer := do
  let p ← p.writeDrop p.dropCount batch
  return { p with dropCount := p.dropCount + 1 }

/-- `player->droppings[j]`. -/
def readDropping (j : ℕ) : Exec ℕ := do
  Exec.within p.droppingSize j
  return p.droppings j

/-- `player->droppings[j] = batch`. -/
def writeDropping (j batch : ℕ) : Exec MapPlayer := do
  Exec.within p.droppingSize j
  return { p with droppings := Function.update p.droppings j batch }

/-- `player->droppings[player->droppingCount] = batch; player->droppingCount++`. -/
def pushDropping (batch : ℕ) : Exec MapPlayer := do
  let p ← p.writeDropping p.droppingCount batch
  return { p with droppingCount := p.droppingCount + 1 }

end MapPlayer

namespace Map

variable (m : Map)

/-- `&map->players[i]`. -/
def playerRef (i : ℕ) : PlayerRef := ⟨m.playersBlock, i⟩

/-- A player, dereferenced. -/
def getPlayer (r : PlayerRef) : Exec MapPlayer :=
  if r.block = m.playersBlock ∧ r.index < m.playerCapacity then .ok (m.players r.index)
  else .error .outOfBounds

/-- A write through a pointer to a player. -/
def setPlayer (r : PlayerRef) (p : MapPlayer) : Map :=
  { m with players := Function.update m.players r.index p }

/-- `&map->monsters[i]`. -/
def monsterRef (i : ℕ) : MonsterRef := ⟨m.monstersBlock, i⟩

/-- A monster, dereferenced. -/
def getMonster (r : MonsterRef) : Exec MapMonster :=
  if r.block = m.monstersBlock ∧ r.index < m.monsterCapacity then .ok (m.monsters r.index)
  else .error .outOfBounds

/-- A write through a pointer to a monster. -/
def setMonster (r : MonsterRef) (monster : MapMonster) : Map :=
  { m with monsters := Function.update m.monsters r.index monster }

/-- `monster->controller = controller`. -/
def setController (r : MonsterRef) (controller : Option PlayerRef) : Exec Map := do
  let monster ← m.getMonster r
  return m.setMonster r { monster with controller := controller }

/-- `monster->indexInController = index`. -/
def setIndexInController (r : MonsterRef) (index : ℕ) : Exec Map := do
  let monster ← m.getMonster r
  return m.setMonster r { monster with indexInController := index }

/-- A write through a pointer to a batch. -/
def setBatch (id : ℕ) (b : Option DropBatch) : Map := { m with batch := Function.update m.batch id b }

/-- A write through a pointer to a dropping batch. -/
def setDropping (id : ℕ) (b : Option DroppingBatch) : Map :=
  { m with dropping := Function.update m.dropping id b }

/-- `node->controller = controller`. -/
def setNodeController (node : Option ℕ) (controller : PlayerRef) : Exec Map := do
  let id ← Exec.deref node
  let n ← Exec.deref (m.heap.node id)
  return { m with heap := { m.heap with
    node := Function.update m.heap.node id (some { n with controller := controller }) } }

/-- `room_add_timer`: the timer, or `none` for `NULL`. -/
def addTimer (ok : Bool) (timer : MapTimer) : Option ℕ × Map :=
  if ok then
    (some m.nextTimer, { m with
      timers := Function.update m.timers m.nextTimer (some timer), nextTimer := m.nextTimer + 1 })
  else (none, m)

/-- `room_stop_timer`. -/
def stopTimer (timer : Option ℕ) : Exec Map := do
  let t ← Exec.deref timer
  let _ ← Exec.deref (m.timers t)
  return { m with timers := Function.update m.timers t none }

/-- `object_list_allocate`, dereferenced and written to. -/
def allocateObject (env : Env) (allocTable allocStack : Bool) (type : MapObjectType)
    (index index2 : ℕ) : Exec (UInt32 × Map) := do
  let (o, list) ← objectListAllocate env allocTable allocStack m.objectList type index index2
  let oid ← Exec.deref o
  return (oid, { m with objectList := list })

/-- `object_list_get`, dereferenced. -/
def getObject (env : Env) (oid : UInt32) : Exec MapObject :=
  Exec.deref (objectListGet env m.objectList oid)

/-- A write to the object that `object_list_get` finds. -/
def setObject (env : Env) (oid : UInt32) (object : MapObject) : Map :=
  { m with objectList := objectListWrite env m.objectList oid object }

/-- `object_list_free`. -/
def freeObject (env : Env) (alloc : Bool) (oid : UInt32) : Exec Map := do
  let list ← objectListFree env alloc m.objectList oid
  return { m with objectList := list }

end Map

end Syrup
