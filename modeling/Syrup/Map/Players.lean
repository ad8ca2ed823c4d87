import Syrup.Map.State

/-!
# Players who come and go

`map_join` and `map_leave`, from `map.c`. The first player on a map controls all monsters; one who
leaves hands his to the player who has the fewest, according to the heap. The last player of the array
takes the place of one who leaves. (The maps from which one is warped at once, because a ship is
sailing, are left out.)
-/

namespace Syrup

namespace Map

/-! ## Joining -/

/-- The monsters in the list of a player are told who controls them. -/
def repoint (controller : Option PlayerRef) (p : MapPlayer) (m : Map) : Exec Map :=
  (List.range p.monsterCount).foldlM (fun m j => do
    let ref ← p.readMonster j
    m.setController ref controller) m

/-- What points at a player is told his address. -/
def repointPlayer (m : Map) (i : ℕ) : Exec Map := do
  let p := m.players i
  let r := m.playerRef i
  let m := { m with container := Function.update m.container p.container (some r) }
  let m ← m.setNodeController p.node r
  m.repoint (some r) p

/-- The array of players is made larger. -/
def growPlayers (o : Outcomes) (m : Map) : Exec (Option Map) :=
  if ¬o.alloc 0 then return none
  else do
    let m := if o.moves then { m with playersBlock := m.playersBlock + 1 } else m
    let m ← (List.range m.playerCount).foldlM (fun m i => m.repointPlayer i) m
    return some { m with playerCapacity := m.playerCapacity * 2 }

/-- The monsters that have hit points are put under the control of the first player. -/
def controlAll (r : PlayerRef) (m : Map) (p : MapPlayer) : Exec (MapPlayer × Map) :=
  (List.range m.monsterCount).foldlM (fun (p, m) i => do
    let monster ← m.getMonster (m.monsterRef i)
    if monster.hp > 0 then
      let q ← p.pushMonster (m.monsterRef i)
      return (q, m.setMonster (m.monsterRef i)
        { monster with controller := some r, indexInController := p.monsterCount })
    else return (p, m)) (p, m)

/-- The places of the window of batches. -/
def window (m : Map) : List ℕ := List.range' m.dropBatchStart (m.dropBatchEnd - m.dropBatchStart)

/-- The batches of a character are told his address. The result is how many there are. -/
def ownBatches (charId : UInt32) (r : PlayerRef) (m : Map) : Exec (ℕ × Map) :=
  m.window.foldlM (fun (count, m) i =>
    match m.dropBatches i with
    | none => return (count, m)
    | some id => do
      let batch ← Exec.deref (m.batch id)
      if batch.ownerId = charId then
        return (count + 1, m.setBatch id (some { batch with owner := some r }))
      else return (count, m)) (0, m)

/-- The batches of a character are listed. -/
def listBatches (charId : UInt32) (m : Map) (p : MapPlayer) : Exec (MapPlayer × Map) :=
  m.window.foldlM (fun (p, m) i =>
    match m.dropBatches i with
    | none => return (p, m)
    | some id => do
      let batch ← Exec.deref (m.batch id)
      if batch.ownerId = charId then
        let q ← p.pushDrop id
        return (q, m.setBatch id (some { batch with indexInPlayer := p.dropCount }))
      else return (p, m)) (p, m)

/-- The dropping batches of a character are told his address. The result is how many there are. -/
def ownDroppings (charId : UInt32) (r : PlayerRef) (m : Map) : Exec (ℕ × Map) :=
  (List.range m.droppingBatchCount).foldlM (fun (count, m) i => do
    let id := m.droppingBatches i
    let batch ← Exec.deref (m.dropping id)
    if batch.ownerId = charId then
      return (count + 1, m.setDropping id (some { batch with owner := some r }))
    else return (count, m)) (0, m)

/-- The dropping batches that have an address as their owner are listed. -/
def listDroppings (r : PlayerRef) (m : Map) (p : MapPlayer) : Exec (MapPlayer × Map) :=
  (List.range m.droppingBatchCount).foldlM (fun (p, m) i => do
    let id := m.droppingBatches i
    let batch ← Exec.deref (m.dropping id)
    if batch.owner = some r then
      let q ← p.pushDropping id
      return (q, m.setDropping id (some { batch with indexInPlayer := p.droppingCount }))
    else return (p, m)) (p, m)

/-- The part of `map_join` about drops: a character who comes back gets his batches again. -/
def joinDrops (o : Outcomes) (charId : UInt32) (r : PlayerRef) (m : Map) (p : MapPlayer) :
    Exec (MapPlayer × Map) := do
  let (count, m) ← m.ownBatches charId r
  let capacity := if count = 0 then 1 else count
  let (p, m) ← m.listBatches charId { p with
    dropCapacity := capacity
    dropSize := if o.alloc 4 then capacity else 0
    dropCount := 0 }
  let (count, m) ← m.ownDroppings charId r
  let capacity := if count = 0 then 1 else count
  m.listDroppings r { p with
    droppingCapacity := capacity
    droppingSize := if o.alloc 5 then capacity else 0
    droppingCount := 0 }

/-- The last part of `map_join`: there is a place for the player. -/
def joinAt (o : Outcomes) (m : Map) (client : ℕ) (charId : UInt32) : Exec Map := do
  let r := m.playerRef m.playerCount
  let m := { m with container := Function.update m.container client (some r) }
  Exec.within m.playerCapacity m.playerCount
  let p := { m.players m.playerCount with
    monsterCount := 0, monsterSize := m.monsterCapacity, monsters := default }
  if ¬o.alloc 1 then
    return m.setPlayer r { m.players m.playerCount with monsterSize := 0 }
  let (p, m) ← if m.heap.count = 0 then m.controlAll r p else pure (p, m)
  let (node, heap) ← heapPush (o.alloc 2) (o.alloc 3) m.heap p.monsterCount r
  let m := { m with heap := heap }
  let p := { p with node := node }
  if node = none then
    return m.setPlayer r { p with monsterSize := 0 }
  let (p, m) ← m.joinDrops o charId r { p with charId := charId }
  let m := if m.boss.oid ≠ 0xFFFFFFFF ∧ m.boss.controller = none then
      { m with boss := { m.boss with controller := some r } }
    else m
  let m := m.setPlayer r { p with container := client }
  return { m with playerCount := m.playerCount + 1 }

end Map

/-- `map_join`, for a client with a character. -/
def mapJoin (o : Outcomes) (m : Map) (client : ℕ) (charId : UInt32) : Exec Map := do
  if m.playerCount = m.playerCapacity then
    match ← m.growPlayers o with
    | none => return m
    | some m => m.joinAt o client charId
  else m.joinAt o client charId

namespace Map

/-! ## Leaving -/

/-- The monsters of a player are handed to another one. -/
def handOver (p : MapPlayer) (next : PlayerRef) (m : Map) : Exec Map :=
  (List.range p.monsterCount).foldlM (fun m j => do
    let ref ← p.readMonster j
    let q ← m.getPlayer next
    let monster ← m.getMonster ref
    let m := m.setMonster ref
      { monster with controller := some next, indexInController := q.monsterCount }
    let q ← q.pushMonster ref
    return m.setPlayer next q) m

/-- The batches of a player have no owner any more. -/
def disown (p : MapPlayer) (m : Map) : Exec Map := do
  let m ← (List.range p.dropCount).foldlM (fun m j => do
    let id ← p.readDrop j
    let batch ← Exec.deref (m.batch id)
    return m.setBatch id (some { batch with owner := none })) m
  (List.range p.droppingCount).foldlM (fun m j => do
    let id ← p.readDropping j
    let batch ← Exec.deref (m.dropping id)
    return m.setDropping id (some { batch with owner := none })) m

/-- The last player takes the place of one who has left. -/
def fillPlace (m : Map) (r : PlayerRef) : Exec Map := do
  let last ← Exec.last m.playerCount
  if r.index ≠ last then
    let m := m.setPlayer r (m.players last)
    m.repointPlayer r.index
  else return m

end Map

/-- `map_leave`. -/
def mapLeave (m : Map) (r : PlayerRef) : Exec Map := do
  let p ← m.getPlayer r
  let heap ← heapRemove m.heap p.node
  let m := { m with heap := heap }
  match heapTop heap with
  | some node => do
    let n ← Exec.deref (heap.node node)
    let next := n.controller
    let m ← m.handOver p next
    let m := if m.boss.oid ≠ 0xFFFFFFFF ∧ m.boss.controller = some r then
        { m with boss := { m.boss with controller := some next } }
      else m
    let m ← m.disown p
    let m ← m.fillPlace r
    return { m with playerCount := m.playerCount - 1 }
  | none => do
    let m ← m.repoint none p
    let m := { m with boss := { m.boss with controller := none } }
    let m ← m.disown p
    return { m with playerCount := m.playerCount - 1 }

end Syrup
