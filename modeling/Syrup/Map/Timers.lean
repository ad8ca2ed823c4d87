import Syrup.Map.Drops

/-!
# Timers of a map

What the timers of a map do: the next drop of a batch is dropped (`on_next_drop`), a batch is no longer
for its owner only (`on_exclusive_drop_time_expired`), and a batch disappears
(`on_drop_time_expired`). The last two are not told which batch it is: they take the first one.
-/

namespace Syrup

namespace Map

/-! ## The next drop -/

/-- A dropping batch is taken out of the list of its owner. -/
def unlistDropping (alloc : Bool) (m : Map) (batch : DroppingBatch) : Exec Map :=
  match batch.owner with
  | none => return m
  | some r => do
    let p ← m.getPlayer r
    let last ← Exec.last p.droppingCount
    let id ← p.readDropping last
    let p ← p.writeDropping batch.indexInPlayer id
    let moved ← Exec.deref (m.dropping id)
    let m := m.setDropping id (some { moved with indexInPlayer := batch.indexInPlayer })
    let p := { p with droppingCount := last }
    let p := if p.droppingCount < p.droppingCapacity / 4 ∧ alloc then
        { p with droppingCapacity := p.droppingCapacity / 2, droppingSize := p.droppingSize / 2 }
      else p
    return m.setPlayer r p

/-- A dropping batch is taken out of the array: the last one takes its place. -/
def removeDroppingBatch (env : Env) (alloc : Bool) (m : Map) (index : ℕ) : Exec Map := do
  let last ← Exec.last m.droppingBatchCount
  Exec.within m.droppingBatchCapacity index
  let id := m.droppingBatches last
  let m := { m with droppingBatches := Function.update m.droppingBatches index id }
  let moved ← Exec.deref (m.dropping id)
  let m := m.setDropping id (some { moved with index := index })
  let m ← m.rewriteObjects env (fun object => .ok { object with index := index })
    (moved.drops.take moved.current)
  let m := { m with droppingBatchCount := last }
  return if m.droppingBatchCount < m.droppingBatchCapacity / 4 ∧ alloc then
      { m with droppingBatchCapacity := m.droppingBatchCapacity / 2 }
    else m

/-- A batch of which everything has been dropped becomes a batch of drops. -/
def promote (env : Env) (alloc : ℕ → Bool) (m : Map) (batch : DroppingBatch) : Exec Map := do
  if ¬alloc 0 then Except.error Fault.nullPointer
  let id := m.nextBatch
  let m ← m.appendBatch id
  let (timer, m) := m.addTimer (alloc 1) .exclusiveDropTimeExpired
  let m ← m.unlistDropping (alloc 2) batch
  let m ← m.removeDroppingBatch env (alloc 3) batch.index
  let m ← m.rewriteObjects env
    (fun object => .ok { object with type := .drop, index := m.dropBatchEnd - 1 }) batch.drops
  let new : DropBatch :=
    { timer := timer, owner := batch.owner, indexInPlayer := 0, ownerId := batch.ownerId
      exclusive := true, drops := batch.drops }
  match batch.owner with
  | none => return m.setBatch id (some new)
  | some r => do
    let p ← m.getPlayer r
    let m := m.setBatch id (some { new with indexInPlayer := p.dropCount })
    let p ← p.pushDrop id
    return m.setPlayer r p

/-- The monster or reactor that has dropped everything goes. (A reactor comes back by a timer, of which
    nothing here depends.) -/
def removeDropper (env : Env) (alloc : Bool) (m : Map) (oid : UInt32) : Exec Map := do
  let object ← m.getObject env oid
  if object.type = .reactor then return m else mapKillMonster env alloc m oid

/-- `do_client_auto_pickup` of the owner of a batch, if there is one. -/
def pickUpOwned (env : Env) (picksUp : Bool) (alloc : ℕ → Bool) (m : Map) (owner : Option PlayerRef)
    (oid : UInt32) : Exec Map :=
  match owner with
  | none => return m
  | some r => do
    let _ ← m.getPlayer r
    if picksUp then mapRemoveDrop env alloc m oid else return m

/-- The last part of `on_next_drop`: everything has been dropped. -/
def finishDropping (env : Env) (o : Outcomes) (m : Map) (id : ℕ) (batch : DroppingBatch)
    (oid : UInt32) : Exec Map :=
  match m.growBatches (o.alloc 2) with
  | none => return m
  | some m => do
    let grown ← match batch.owner with
      | none => pure (some m)
      | some r => m.growDrops (o.alloc 3) r
    match grown with
    | none => return m
    | some m => do
      let m ← m.promote env (fun n => o.alloc (n + 4)) batch
      let m ← m.removeDropper env (o.alloc 8) batch.dropperOid
      let m ← m.pickUpOwned env o.picksUp (fun n => o.alloc (n + 9)) batch.owner oid
      return m.setDropping id none

end Map

/-- `on_next_drop`, for the batch that the timer knows. -/
def onNextDrop (env : Env) (o : Outcomes) (m : Map) (id : ℕ) : Exec Map := do
  let batch ← Exec.deref (m.dropping id)
  let drop ← Exec.deref batch.drops[batch.current]?
  let (oid, m) ← m.allocateObject env (o.alloc 0) (o.alloc 1) .dropping batch.index batch.current
  let batch := { batch with
    drops := batch.drops.set batch.current { drop with oid := oid }
    current := batch.current + 1 }
  let m := m.setDropping id (some batch)
  if batch.current < batch.drops.length then do
    let m ← m.pickUpOwned env o.picksUp (fun n => o.alloc (n + 3)) batch.owner oid
    let (timer, m) := m.addTimer (o.alloc 2) (.nextDrop id)
    let batch ← Exec.deref (m.dropping id)
    return m.setDropping id (some { batch with timer := timer })
  else m.finishDropping env o id batch oid

/-! ## Batches that expire -/

namespace Map

/-- The first exclusive batch of those at some places. -/
def firstExclusive (m : Map) : List ℕ → Exec ℕ
  | [] => .error .outOfBounds
  | i :: l =>
    match m.dropBatches i with
    | none => m.firstExclusive l
    | some id => do
      let batch ← Exec.deref (m.batch id)
      if batch.exclusive then return id else m.firstExclusive l

end Map

/-- `on_exclusive_drop_time_expired`. -/
def onExclusiveDropTimeExpired (alloc : Bool) (m : Map) : Exec Map := do
  let id ← m.firstExclusive (List.range' m.dropBatchStart (m.dropBatchEnd - m.dropBatchStart))
  let (timer, m) := m.addTimer alloc .dropTimeExpired
  let batch ← Exec.deref (m.batch id)
  return m.setBatch id (some { batch with exclusive := false, timer := timer })

/-- `on_drop_time_expired`. -/
def onDropTimeExpired (env : Env) (alloc : ℕ → Bool) (m : Map) : Exec Map := do
  Exec.within m.dropBatchCapacity m.dropBatchStart
  let id ← Exec.deref (m.dropBatches m.dropBatchStart)
  let batch ← Exec.deref (m.batch id)
  let m ← (List.range batch.drops.length).foldlM (fun m i => do
    let drop ← Exec.deref batch.drops[i]?
    let object ← m.getObject env drop.oid
    if object.type = .drop then m.freeObject env (alloc i) drop.oid else .error .assertion) m
  let n := batch.drops.length
  let batch := { batch with drops := [] }
  let m := m.setBatch id (some batch)
  let m ← m.unlistBatch true (alloc n) batch
  let m := m.setBatch id none
  let m := { m with dropBatches := Function.update m.dropBatches m.dropBatchStart none }
  m.skipHoles env (fun i => alloc (n + 1 + i)) (m.dropBatchEnd - m.dropBatchStart)

end Syrup
