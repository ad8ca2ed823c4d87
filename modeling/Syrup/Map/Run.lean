import Syrup.Lib.Run
import Syrup.Map.Damage
import Syrup.Map.Players
import Syrup.Map.Timers

/-!
# Runs of a map

A map is made by `map_create`, and then changed by what its clients do, by its timers, and by the
events of the server: `MapAction` is what can happen, one thing after the other.

A client acts with the handle he has got from `map_join`. A timer that expires is gone before its
function is called.
-/

namespace Syrup

/-! ## Making a map -/

namespace Map

/-- The objects of the NPCs are allocated. -/
def createNpcs (env : Env) (alloc : ℕ → Bool) (n : ℕ) (m : Map) : Exec Map :=
  (List.range n).foldlM (fun m i => do
    let (oid, m) ← m.allocateObject env (alloc (2 * i)) (alloc (2 * i + 1)) .npc i 0
    return { m with npcs := m.npcs ++ [oid] }) m

/-- The monsters of the spawners are put onto the map. -/
def createMonsters (env : MapEnv) (alloc : ℕ → Bool) (m : Map) : Exec Map :=
  m.spawners.zipIdx.foldlM (fun m (id, i) =>
    m.addMonster env (.ofAlloc fun j => alloc (2 * i + j)) id (some i) none) m

/-- The objects of the reactors are allocated. -/
def createReactors (env : Env) (alloc : ℕ → Bool) (ids : List UInt32) (m : Map) : Exec Map :=
  ids.zipIdx.foldlM (fun m (id, i) => do
    let (oid, m) ← m.allocateObject env (alloc (2 * i)) (alloc (2 * i + 1)) .reactor i 0
    return { m with reactors := m.reactors ++ [⟨oid, id⟩] }) m

/-- The boss is put onto the map, if it has one that is not on another channel. -/
def createBoss (env : MapEnv) (alloc : ℕ → Bool) (boss : Option UInt32) (m : Map) : Exec Map :=
  match boss with
  | none => return m
  | some id => do
    let (oid, m) ← m.allocateObject env.toEnv (alloc 0) (alloc 1) .boss 0 0
    let hp ← Exec.deref (env.monsterHp id)
    return { m with boss := { m.boss with oid := oid, id := id, hp := hp, controller := none } }

/-- A map before anything has been put onto it, with the ids of the monsters of its spawners. -/
def empty (spawners : List UInt32) : Map where
  playersBlock := 0
  playerCapacity := 1
  playerCount := 0
  players := default
  container _ := none
  objectList := objectListInit
  npcs := []
  spawners := spawners
  monstersBlock := 0
  monsterCapacity := max spawners.length 1
  monsterCount := 0
  monsters := default
  dead := []
  heap := heapInit
  reactors := []
  droppingBatchCapacity := 1
  droppingBatchCount := 0
  droppingBatches _ := 0
  dropping _ := none
  dropBatchCapacity := 1
  dropBatchStart := 0
  dropBatchEnd := 0
  dropBatches _ := none
  batch _ := none
  nextBatch := 0
  boss := { (default : MapMonster) with oid := 0xFFFFFFFF }
  timers _ := none
  nextTimer := 0

end Map

/-- `map_create`, for a map with so many NPCs, spawners of monsters with these ids, reactors with these
    ids, and maybe a boss. -/
def mapCreate (env : MapEnv) (alloc : ℕ → ℕ → Bool) (npcs : ℕ) (spawners reactors : List UInt32)
    (boss : Option UInt32) : Exec Map := do
  let m ← (Map.empty spawners).createNpcs env.toEnv (alloc 0) npcs
  let m ← m.createMonsters env (alloc 1)
  let m ← m.createReactors env.toEnv (alloc 2) reactors
  m.createBoss env (alloc 3) boss

/-! ## What happens on a map -/

/-- What can happen on a map; where there is a loop, every round of it has its outcomes. -/
inductive MapAction
  | join (o : Outcomes) (client : ℕ) (charId : UInt32)
  | leave (client : ℕ)
  | spawn (grow o : Outcomes) (id : UInt32)
  | damage (o : Outcomes) (client : ℕ) (oid : UInt32) (hits : List Int32)
  | killAll (alloc : Bool) (o : ℕ → Outcomes) (client : ℕ)
  | dropFromReactor (o : Outcomes) (client : ℕ) (oid : UInt32)
  | addPlayerDrop (o : Outcomes) (client : ℕ) (item : DropItem)
  | removeDrop (alloc : ℕ → Bool) (oid : UInt32)
  | timer (o : Outcomes) (t : ℕ)
  | respawn (grow o : ℕ → Outcomes)
  | respawnBoss (o : Outcomes)

/-- `map_get_drop`, which is called before a drop is removed: whether there is one. -/
def mapHasDrop (env : Env) (m : Map) (oid : UInt32) : Bool :=
  match objectListGet env m.objectList oid with
  | none => false
  | some object => object.type = .drop ∨ object.type = .dropping

/-- The function of a timer. -/
def MapTimer.run (env : Env) (o : Outcomes) (m : Map) : MapTimer → Exec Map
  | nextDrop id => onNextDrop env o m id
  | exclusiveDropTimeExpired => onExclusiveDropTimeExpired (o.alloc 0) m
  | dropTimeExpired => onDropTimeExpired env o.alloc m

/-- The map after something has happened. -/
def MapAction.step (env : MapEnv) : MapAction → Map → Exec Map
  | join o client charId, m => mapJoin o m client charId
  | leave client, m =>
    match m.container client with
    | none => return m
    | some r => do
      let m ← mapLeave m r
      return { m with container := Function.update m.container client none }
  | spawn grow o id, m => mapSpawn env grow o m id
  | damage o client oid hits, m => do
    let player ← Exec.deref (m.container client)
    let (_, m) ← mapDamageMonsterBy env o m player oid hits
    return m
  | killAll alloc o client, m => do
    let player ← Exec.deref (m.container client)
    let (_, m) ← mapKillAllBy env alloc o m player
    return m
  | dropFromReactor o client oid, m => do
    let player ← Exec.deref (m.container client)
    let (_, m) ← mapDropBatchFromReactor env o m player oid
    return m
  | addPlayerDrop o client item, m => do
    let player ← Exec.deref (m.container client)
    mapAddPlayerDrop env.toEnv o m player item
  | removeDrop alloc oid, m =>
    if mapHasDrop env.toEnv m oid then mapRemoveDrop env.toEnv alloc m oid else return m
  | timer o t, m =>
    match m.timers t with
    | none => return m
    | some task =>
      task.run env.toEnv o { m with timers := Function.update m.timers t none }
  | respawn grow o, m => onRespawn env grow o m
  | respawnBoss o, m => Syrup.respawnBoss env o m

end Syrup
