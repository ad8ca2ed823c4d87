import Syrup.Map.Monsters

/-!
# Drops

The functions of `map.c` that put drops onto a map, or take them away. A monster or a reactor drops
what `rollDrops` makes of its drop table: a single drop is put into a batch of its own; of several ones
the first is dropped at once, and the others follow one after the other (`on_next_drop`), upon which
they become a batch. Batches are in an array of which a window is in use, from `dropBatchStart` to
`dropBatchEnd`; a batch that has gone leaves a hole, and the window is moved to the front of the array
when little of it is in use.
-/

namespace Syrup

/-! ## Rolling -/

/-- `rand() % (max - min + 1) + min`. -/
def DropInfo.amount (d : DropInfo) (rand : ℕ) : Exec ℤ :=
  if d.max - d.min + 1 = 0 then .error .divisionByZero
  else .ok (Int.tmod rand (d.max - d.min + 1) + d.min)

/-- One drop of the kind that an entry of a drop table tells. -/
def DropInfo.make (env : MapEnv) (d : DropInfo) (rand : ℕ) : Exec DropItem :=
  if d.itemId = 0 then do
    let amount ← d.amount rand
    return .meso (Int32.ofInt amount)
  else if d.itemId / 1000000 = 1 then do
    let info ← Exec.deref (env.equipInfo d.itemId)
    return .equip (equipmentFromInfo info)
  else do
    let amount ← d.amount rand
    return .item (if d.isQuest then d.questId else 0)
      { item := { (default : Item) with itemId := d.itemId, expiration := -1 }
        quantity := Int16.ofInt amount }

/-- How many drops there are for certain, and the chance of another one. -/
def DropInfo.certain (d : DropInfo) : ℕ × ℤ :=
  let chance := d.chance * 16
  if chance > 1000000 then
    if d.itemId = 0 then (1, chance) else ((chance / 1000000).toNat, chance % 1000000)
  else (0, chance)

/-- How many random numbers it takes to make a drop: there are none in a piece of equipment. -/
def DropInfo.draws (d : DropInfo) : ℕ := if d.itemId ≠ 0 ∧ d.itemId / 1000000 = 1 then 0 else 1

/-- The drops of an entry of a drop table; `n` numbers of `rand` have been used so far. -/
def DropInfo.roll (env : MapEnv) (rand : ℕ → ℕ) (n : ℕ) (d : DropInfo) : Exec (List DropItem × ℕ) := do
  let (count, chance) := d.certain
  let sure ← (List.range count).mapM fun j => d.make env (rand (n + j * d.draws))
  let n := n + count * d.draws
  if (rand n % 1000000 : ℕ) < chance then
    let more ← d.make env (rand (n + 1))
    return (sure ++ [more], n + 1 + d.draws)
  else return (sure, n + 1)

/-- The drops of a drop table. -/
def rollDrops (env : MapEnv) (rand : ℕ → ℕ) : ℕ → List DropInfo → Exec (List DropItem)
  | _, [] => return []
  | n, d :: info => do
    let (drops, n) ← d.roll env rand n
    let rest ← rollDrops env rand n info
    return drops ++ rest

/-! ## Taking away -/

namespace Map

/-- The objects of drops are written to. -/
def rewriteObjects (env : Env) (f : MapObject → Exec MapObject) (drops : List Drop) (m : Map) :
    Exec Map :=
  drops.foldlM (fun m drop => do
    let object ← m.getObject env drop.oid
    let object ← f object
    return m.setObject env drop.oid object) m

/-- `assert(object->type == MAP_OBJECT_DROP); object->index = index`. -/
def atIndex (index : ℕ) (object : MapObject) : Exec MapObject :=
  if object.type = .drop then .ok { object with index := index } else .error .assertion

/-- A batch is moved to the front of the array by `start` places. -/
def moveBatch (env : Env) (start : ℕ) (m : Map) (i : ℕ) : Exec Map := do
  let m := { m with dropBatches := Function.update m.dropBatches (i - start) (m.dropBatches i) }
  match m.dropBatches (i - start) with
  | none => return m
  | some id => do
    let batch ← Exec.deref (m.batch id)
    m.rewriteObjects env (atIndex (i - start)) batch.drops

/-- The window is moved to the front of the array, which is made smaller. -/
def compact (env : Env) (alloc : Bool) (m : Map) : Exec Map := do
  let m ← if m.dropBatchStart ≠ 0 then do
      let start := m.dropBatchStart
      let m ← (List.range' start (m.dropBatchEnd - start)).foldlM (fun m i => m.moveBatch env start i) m
      pure { m with dropBatchEnd := m.dropBatchEnd - start, dropBatchStart := 0 }
    else pure m
  return if alloc then { m with dropBatchCapacity := m.dropBatchCapacity / 2 } else m

/-- The loop `while (dropBatchStart < dropBatchEnd && dropBatches[dropBatchStart] == NULL)`, for so many
    rounds at most. -/
def skipHoles (env : Env) (alloc : ℕ → Bool) : ℕ → Map → Exec Map
  | 0, m => return m
  | n + 1, m =>
    if m.dropBatchStart < m.dropBatchEnd ∧ m.dropBatches m.dropBatchStart = none then do
      let m := { m with dropBatchStart := m.dropBatchStart + 1 }
      let m ← if m.dropBatchEnd - m.dropBatchStart < m.dropBatchCapacity / 4 then
          m.compact env (alloc n)
        else pure m
      skipHoles env alloc n m
    else return m

/-- A batch is taken out of the list of its owner. If the list is to be made smaller and cannot, it is
    kept, or (as `map_remove_drop` has it) it is lost. -/
def unlistBatch (keeps alloc : Bool) (m : Map) (batch : DropBatch) : Exec Map :=
  match batch.owner with
  | none => return m
  | some r => do
    let p ← m.getPlayer r
    let last ← Exec.last p.dropCount
    let id ← p.readDrop last
    let p ← p.writeDrop batch.indexInPlayer id
    let moved ← Exec.deref (m.batch id)
    let m := m.setBatch id (some { moved with indexInPlayer := batch.indexInPlayer })
    let p := { p with dropCount := last }
    let p := if p.dropCount < p.dropCapacity / 4 then
        if alloc then { p with dropCapacity := p.dropCapacity / 2, dropSize := p.dropSize / 2 }
        else if keeps then p
        else { p with dropCapacity := p.dropCapacity / 2, dropSize := 0 }
      else p
    return m.setPlayer r p

/-- The drop at an index is exchanged for the last one of a list, the object of which is told. -/
def replaceDrop (env : Env) (type : MapObjectType) (drops : List Drop) (i last : ℕ) (m : Map) :
    Exec (List Drop × Map) := do
  Exec.within drops.length i
  let drop ← Exec.deref drops[last]?
  let drops := drops.set i drop
  if i ≠ last then do
    let object ← m.getObject env drop.oid
    if object.type = type then
      return (drops, m.setObject env drop.oid { object with index2 := i })
    else .error .assertion
  else return (drops, m)

/-- The part of `map_remove_drop` for a drop in a batch. -/
def removeDropped (env : Env) (alloc : ℕ → Bool) (m : Map) (object : MapObject) : Exec Map := do
  Exec.within m.dropBatchCapacity object.index
  let id ← Exec.deref (m.dropBatches object.index)
  let batch ← Exec.deref (m.batch id)
  let m ← m.freeObject env (alloc 0) object.oid
  let last ← Exec.last batch.drops.length
  let (drops, m) ← m.replaceDrop env .drop batch.drops object.index2 last
  let batch := { batch with drops := drops.dropLast }
  let m := m.setBatch id (some batch)
  let m ← if batch.drops = [] then do
      let m ← m.unlistBatch false (alloc 1) batch
      let m ← m.stopTimer batch.timer
      let m := m.setBatch id none
      pure { m with dropBatches := Function.update m.dropBatches object.index none }
    else pure m
  m.skipHoles env (fun n => alloc (n + 2)) (m.dropBatchEnd - m.dropBatchStart)

/-- The part of `map_remove_drop` for a drop in a batch that is still dropping. -/
def removeDropping (env : Env) (alloc : ℕ → Bool) (m : Map) (object : MapObject) : Exec Map := do
  Exec.within m.droppingBatchCapacity object.index
  let id := m.droppingBatches object.index
  let batch ← Exec.deref (m.dropping id)
  let m ← m.freeObject env (alloc 0) object.oid
  let last ← Exec.last batch.current
  let (drops, m) ← m.replaceDrop env .dropping batch.drops object.index2 last
  let drop ← Exec.deref drops.getLast?
  let drops := (drops.set last drop).dropLast
  return m.setDropping id (some { batch with drops := drops, current := last })

end Map

/-- `map_remove_drop`. -/
def mapRemoveDrop (env : Env) (alloc : ℕ → Bool) (m : Map) (oid : UInt32) : Exec Map := do
  let object ← m.getObject env oid
  if object.type = .drop then m.removeDropped env alloc object
  else m.removeDropping env alloc object

/-! ## Dropping -/

namespace Map

/-- `if (map->dropBatchEnd == map->dropBatchCapacity)`: there is to be room for a batch. -/
def growBatches (alloc : Bool) (m : Map) : Option Map :=
  if m.dropBatchEnd = m.dropBatchCapacity then
    if alloc then some { m with dropBatchCapacity := m.dropBatchCapacity * 2 } else none
  else some m

/-- `if (player->dropCount == player->dropCapacity)`: there is to be room in the list of a player. -/
def growDrops (alloc : Bool) (m : Map) (r : PlayerRef) : Exec (Option Map) := do
  let p ← m.getPlayer r
  if p.dropCount = p.dropCapacity then
    if alloc then
      return some (m.setPlayer r
        { p with dropCapacity := p.dropCapacity * 2, dropSize := p.dropCapacity * 2 })
    else return none
  else return some m

/-- A batch is put at the end of the array. -/
def appendBatch (id : ℕ) (m : Map) : Exec Map := do
  Exec.within m.dropBatchCapacity m.dropBatchEnd
  return { m with
    dropBatches := Function.update m.dropBatches m.dropBatchEnd (some id)
    dropBatchEnd := m.dropBatchEnd + 1
    nextBatch := m.nextBatch + 1 }

/-- The end of `map_add_player_drop`, and of the part of `map_drop_batch_from_map_object` for a single
    drop: there is room for a batch, which is made of the drop. The result is the id of its object. -/
def addBatch (env : Env) (alloc : ℕ → Bool) (m : Map) (r : PlayerRef) (timer : MapTimer)
    (exclusive : Bool) (item : DropItem) : Exec (UInt32 × Map) := do
  -- The pointer is dereferenced whether or not there has been memory.
  if ¬alloc 0 then Except.error Fault.nullPointer
  let id := m.nextBatch
  let m ← m.appendBatch id
  let (timer, m) := m.addTimer (alloc 1) timer
  let (oid, m) ← m.allocateObject env (alloc 2) (alloc 3) .drop (m.dropBatchEnd - 1) 0
  let p ← m.getPlayer r
  let batch : DropBatch :=
    { timer := timer, owner := some r, indexInPlayer := p.dropCount, ownerId := p.charId
      exclusive := exclusive, drops := [⟨oid, item⟩] }
  let m := m.setBatch id (some batch)
  let p ← p.pushDrop id
  return (oid, m.setPlayer r p)

/-- The part of `map_drop_batch_from_map_object` for several drops. -/
def dropMany (env : Env) (o : Outcomes) (m : Map) (r : PlayerRef) (dropperOid : UInt32)
    (first : DropItem) (rest : List DropItem) : Exec (Bool × Map) := do
  if m.droppingBatchCount = m.droppingBatchCapacity ∧ ¬o.alloc 0 then return (false, m)
  let m := if m.droppingBatchCount = m.droppingBatchCapacity then
      { m with droppingBatchCapacity := m.droppingBatchCapacity * 2 } else m
  let p ← m.getPlayer r
  if p.droppingCount = p.droppingCapacity ∧ ¬o.alloc 1 then return (false, m)
  let p := if p.droppingCount = p.droppingCapacity then
      { p with droppingCapacity := p.droppingCapacity * 2, droppingSize := p.droppingCapacity * 2 }
    else p
  let m := m.setPlayer r p
  if ¬o.alloc 2 then return (false, m)
  let id := m.nextBatch
  let (timer, m) := m.addTimer (o.alloc 3) (.nextDrop id)
  let (oid, m) ← m.allocateObject env (o.alloc 4) (o.alloc 5) .dropping m.droppingBatchCount 0
  Exec.within m.droppingBatchCapacity m.droppingBatchCount
  let batch : DroppingBatch :=
    { index := m.droppingBatchCount, current := 1, timer := timer, owner := some r
      indexInPlayer := p.droppingCount, ownerId := p.charId, dropperOid := dropperOid
      drops := ⟨oid, first⟩ :: rest.map (Drop.mk 0) }
  let m := { m.setDropping id (some batch) with
    droppingBatches := Function.update m.droppingBatches m.droppingBatchCount id
    nextBatch := id + 1 }
  let p ← p.pushDropping id
  let m := { m.setPlayer r p with droppingBatchCount := m.droppingBatchCount + 1 }
  if o.picksUp then
    let m ← mapRemoveDrop env (fun n => o.alloc (n + 6)) m oid
    return (true, m)
  else return (true, m)

/-- The part of `map_drop_batch_from_map_object` for a single drop. -/
def dropOne (env : Env) (o : Outcomes) (m : Map) (r : PlayerRef) (item : DropItem) :
    Exec (Bool × Map) :=
  match m.growBatches (o.alloc 0) with
  | none => return (false, m)
  | some m => do
    match ← m.growDrops (o.alloc 1) r with
    | none => return (false, m)
    | some m => do
      let (oid, m) ←
        m.addBatch env (fun n => o.alloc (n + 2)) r .exclusiveDropTimeExpired true item
      if o.picksUp then
        let m ← mapRemoveDrop env (fun n => o.alloc (n + 6)) m oid
        return (true, m)
      else return (true, m)

end Map

/-- `map_drop_batch_from_map_object`: whether it has succeeded (`0`, and not `-1`). -/
def mapDropBatchFromMapObject (env : Env) (o : Outcomes) (m : Map) (r : PlayerRef)
    (dropperOid : UInt32) : List DropItem → Exec (Bool × Map)
  | [] => return (true, m)
  | [item] => m.dropOne env o r item
  | first :: rest => m.dropMany env o r dropperOid first rest

/-- `map_drop_batch_from_reactor`. -/
def mapDropBatchFromReactor (env : MapEnv) (o : Outcomes) (m : Map) (r : PlayerRef) (oid : UInt32) :
    Exec (Bool × Map) :=
  match objectListGet env.toEnv m.objectList oid with
  | none => return (false, m)
  | some object =>
    if object.type ≠ .reactor then return (false, m)
    else do
      let reactor ← Exec.deref m.reactors[object.index]?
      let info ← Exec.deref (env.reactorDropInfo reactor.id)
      let drops ← rollDrops env o.rand 0 info
      mapDropBatchFromMapObject env.toEnv o m r object.oid drops

/-- `map_add_player_drop`. -/
def mapAddPlayerDrop (env : Env) (o : Outcomes) (m : Map) (r : PlayerRef) (item : DropItem) :
    Exec Map :=
  match m.growBatches (o.alloc 0) with
  | none => return m
  | some m => do
    match ← m.growDrops (o.alloc 1) r with
    | none => return m
    | some m => do
      let (_, m) ← m.addBatch env (fun n => o.alloc (n + 2)) r .dropTimeExpired false item
      return m

end Syrup
