import Syrup.Map.State

/-!
# Monsters that come and go

The functions of `map.c` that put monsters onto a map, or take them away: `map_spawn`, `on_respawn`
and `respawn_boss`, and `map_kill_monster`.
-/

namespace Syrup

namespace Map

/-! ## Killing -/

/-- `map->dead[map->deadCount] = monster->spawnerIndex; map->deadCount++`, but for monsters without a
    spawner. -/
def pushDead (m : Map) (spawnerIndex : Option ℕ) : Exec Map :=
  match spawnerIndex with
  | none => return m
  | some i => do
    Exec.within m.spawners.length m.dead.length
    return { m with dead := m.dead ++ [i] }

/-- A monster that has been moved is looked up by its controller at its new address. -/
def relist (m : Map) (monster : MapMonster) (ref : MonsterRef) : Exec Map :=
  match monster.controller with
  | none => return m
  | some r => do
    let p ← m.getPlayer r
    let p ← p.writeMonster monster.indexInController ref
    return m.setPlayer r p

end Map

/-- `map_kill_monster`. -/
def mapKillMonster (env : Env) (alloc : Bool) (m : Map) (oid : UInt32) : Exec Map := do
  let object ← m.getObject env oid
  if object.type = .monster then
    let monster ← m.getMonster (m.monsterRef object.index)
    let m ← m.pushDead monster.spawnerIndex
    let last ← Exec.last m.monsterCount
    let moved ← m.getMonster (m.monsterRef last)
    let m := m.setMonster (m.monsterRef object.index) moved
    let m ← m.relist moved (m.monsterRef object.index)
    let movedObject ← m.getObject env moved.oid
    let m := m.setObject env moved.oid { movedObject with index := object.index }
    let m := { m with monsterCount := m.monsterCount - 1 }
    m.freeObject env alloc oid
  else
    let m ← m.freeObject env alloc m.boss.oid
    return { m with boss := { m.boss with oid := 0xFFFFFFFF } }

namespace Map

/-! ## Spawning -/

/-- The arrays of monsters of the players are made as large as that of the map is to be, until there
    is no more memory. -/
def growControlled (alloc : ℕ → Bool) (m : Map) : ℕ → Bool × Map
  | 0 => (true, m)
  | n + 1 =>
    let (ok, m) := growControlled alloc m n
    if ok ∧ alloc (n + 1) then
      let p := m.players n
      (true, m.setPlayer (m.playerRef n) { p with monsterSize := m.monsterCapacity * 2 })
    else (false, m)

/-- The array of monsters is made larger: the result is whether there has been memory. The controllers
    of all monsters are told the address of the first one that is not there yet. -/
def growMonsters (o : Outcomes) (m : Map) : Exec (Bool × Map) :=
  if ¬o.alloc 0 then return (false, m)
  else
    let m := if o.moves then { m with monstersBlock := m.monstersBlock + 1 } else m
    match growControlled o.alloc m m.playerCount with
    | (false, m) => return (false, m)
    | (true, m) => do
      let m ← (List.range m.monsterCount).foldlM (fun m i => do
        let monster ← m.getMonster (m.monsterRef i)
        let r ← Exec.deref monster.controller
        let p ← m.getPlayer r
        let p ← p.writeMonster monster.indexInController (m.monsterRef m.monsterCount)
        return m.setPlayer r p) m
      return (true, { m with monsterCapacity := m.monsterCapacity * 2 })

/-- A new monster is put at the end of the array, with the object that is allocated for it. -/
def addMonster (env : MapEnv) (o : Outcomes) (m : Map) (id : UInt32) (spawnerIndex : Option ℕ)
    (controller : Option PlayerRef) : Exec Map := do
  let (oid, m) ← m.allocateObject env.toEnv (o.alloc 0) (o.alloc 1) .monster m.monsterCount 0
  let hp ← Exec.deref (env.monsterHp id)
  Exec.within m.monsterCapacity m.monsterCount
  let ref := m.monsterRef m.monsterCount
  let monster : MapMonster := ⟨oid, id, hp, spawnerIndex, none, 0⟩
  let m ← match controller with
    | none => pure (m.setMonster ref monster)
    | some r => do
      let p ← m.getPlayer r
      let m := m.setMonster ref
        { monster with controller := some r, indexInController := p.monsterCount }
      let p ← p.pushMonster ref
      pure (m.setPlayer r p)
  return { m with monsterCount := m.monsterCount + 1 }

/-- The controller of a node of the heap. -/
def nodeController (m : Map) (node : ℕ) : Exec PlayerRef := do
  let n ← Exec.deref (m.heap.node node)
  return n.controller

end Map

/-- `map_spawn`; `grow` tells the outcomes of making the array larger. -/
def mapSpawn (env : MapEnv) (grow o : Outcomes) (m : Map) (id : UInt32) : Exec Map :=
  if env.monsterHp id = none then return m
  else do
    let (ok, m) ←
      if m.monsterCount = m.monsterCapacity then m.growMonsters grow else pure (true, m)
    if ¬ok then return m
    else
      let node ← Exec.deref (heapTop m.heap)
      let controller ← m.nodeController node
      m.addMonster env o id none (some controller)

/-! ## Respawning -/

namespace Map

/-- A round of the loop of `on_respawn`, if there is room in the array: a spawner is chosen and taken
    from the dead ones. -/
def respawnOne (env : MapEnv) (o : Outcomes) (m : Map) (next : Option ℕ) : Exec Map := do
  if m.dead.length = 0 then Except.error Fault.divisionByZero
  let i := o.rand 0 % m.dead.length
  let spawner ← Exec.deref m.dead[i]?
  let last ← Exec.deref m.dead.getLast?
  let id ← Exec.deref m.spawners[spawner]?
  let controller ← match next with
    | none => pure none
    | some node => some <$> m.nodeController node
  let m ← m.addMonster env o id (some spawner) controller
  return { m with dead := (m.dead.set i last).dropLast }

/-- The loop of `on_respawn`, for so many rounds at most. The result is how many monsters there have
    come, and whether it has not been broken off for want of memory. -/
def respawnLoop (env : MapEnv) (grow o : ℕ → Outcomes) (next : Option ℕ) (maxSpawnCount : ℕ) :
    ℕ → ℕ → Map → Exec (Bool × ℕ × Map)
  | 0, count, m => return (true, count, m)
  | n + 1, count, m =>
    if m.monsterCount < maxSpawnCount then do
      let (ok, m) ←
        if m.monsterCount = m.monsterCapacity then m.growMonsters (grow count) else pure (true, m)
      if ¬ok then return (false, count, m)
      else
        let m ← m.respawnOne env (o count) next
        respawnLoop env grow o next maxSpawnCount n (count + 1) m
    else return (true, count, m)

end Map

/-- `on_respawn`. -/
def onRespawn (env : MapEnv) (grow o : ℕ → Outcomes) (m : Map) : Exec Map := do
  let maxSpawnCount := env.maxSpawnCount m.playerCount m.spawners.length
  let next := heapTop m.heap
  let (ok, count, m) ←
    m.respawnLoop env grow o next maxSpawnCount (maxSpawnCount - m.monsterCount) 0
  if ok ∧ next.isSome then
    let heap ← heapInc m.heap count
    return { m with heap := heap }
  else return m

/-- `respawn_boss`. -/
def respawnBoss (env : MapEnv) (o : Outcomes) (m : Map) : Exec Map :=
  if m.boss.oid = 0xFFFFFFFF then do
    let (oid, m) ← m.allocateObject env.toEnv (o.alloc 0) (o.alloc 1) .boss 0 0
    let controller ← match heapTop m.heap with
      | none => pure none
      | some node => some <$> m.nodeController node
    let hp ← Exec.deref (env.monsterHp m.boss.id)
    return { m with boss := { m.boss with oid := oid, hp := hp, controller := controller } }
  else return m

end Syrup
