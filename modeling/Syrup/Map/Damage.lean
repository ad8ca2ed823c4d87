import Syrup.Map.Drops

/-!
# Monsters that are hit

`map_damage_monster_by` and `map_kill_all_by`, from `map.c`. A monster that is hit goes to the control
of who has hit it; one that has no hit points left is no longer controlled, and drops what its drop
table makes of it. It stays on the map until it has dropped everything.
-/

namespace Syrup

namespace Map

/-- Where a monster is that is an object of a map: in the array, or at the boss. -/
inductive MonsterPlace
  | regular (index : ℕ)
  | boss
  deriving DecidableEq

/-- `object->type == MAP_OBJECT_MONSTER ? &map->monsters[object->index] : &map->boss`. -/
def monsterPlace (object : MapObject) : MonsterPlace :=
  if object.type = .monster then .regular object.index else .boss

/-- A monster, dereferenced. -/
def readPlace (m : Map) : MonsterPlace → Exec MapMonster
  | .regular i => m.getMonster (m.monsterRef i)
  | .boss => return m.boss

/-- A write to the hit points of a monster. -/
def writeHp (m : Map) (place : MonsterPlace) (hp : Int32) : Exec Map := do
  let monster ← m.readPlace place
  match place with
  | .regular i => return m.setMonster (m.monsterRef i) { monster with hp := hp }
  | .boss => return { m with boss := { monster with hp := hp } }

/-- A monster is taken out of the list of its controller: the last one takes its place. -/
def uncontrol (m : Map) (r : PlayerRef) (index : ℕ) : Exec Map := do
  let p ← m.getPlayer r
  let last ← Exec.last p.monsterCount
  let ref ← p.readMonster last
  let p ← p.writeMonster index ref
  let m ← m.setIndexInController ref index
  return m.setPlayer r { p with monsterCount := last }

/-- The control of a monster is switched to a player. -/
def switchControl (m : Map) (place : MonsterPlace) (player : PlayerRef) : Exec Map := do
  let monster ← m.readPlace place
  let old ← Exec.deref monster.controller
  match place with
  | .regular i => do
    let m ← m.uncontrol old monster.indexInController
    let p ← m.getPlayer player
    let monster ← m.getMonster (m.monsterRef i)
    let m := m.setMonster (m.monsterRef i)
      { monster with controller := some player, indexInController := p.monsterCount }
    let p ← p.pushMonster (m.monsterRef i)
    return m.setPlayer player p
  | .boss => do
    -- Both players are told.
    let _ ← m.getPlayer old
    let _ ← m.getPlayer player
    return { m with boss := { m.boss with controller := some player } }

/-- A monster that has no hit points left is no longer controlled. -/
def releaseControl (m : Map) (place : MonsterPlace) : Exec Map := do
  let monster ← m.readPlace place
  match monster.controller with
  | none => return m
  | some r =>
    match place with
    | .regular i => do
      let m ← m.uncontrol r monster.indexInController
      m.setController (m.monsterRef i) none
    | .boss => return { m with boss := { m.boss with controller := none } }

/-- The loop over the hits, and `if (monster->monster.hp < 0) monster->monster.hp = 0`. -/
def hit (hp : Int32) (damage : List Int32) : Int32 :=
  let hp := damage.foldl (fun hp d => if hp > 0 then hp - d else hp) hp
  if hp < 0 then 0 else hp

/-- A monster that has no hit points left drops what its table makes of it. It goes at once if there is
    no table, or a single drop. -/
def die (env : MapEnv) (o : Outcomes) (m : Map) (player : PlayerRef) (place : MonsterPlace) :
    Exec Map := do
  let monster ← m.readPlace place
  let m ← m.releaseControl place
  match env.dropInfo monster.id with
  | none => mapKillMonster env.toEnv (o.alloc 0) m monster.oid
  | some info => do
    let drops ← rollDrops env o.rand 0 info
    let (_, m) ← mapDropBatchFromMapObject env.toEnv { o with alloc := fun n => o.alloc (n + 1) } m
      player monster.oid drops
    if drops.length = 1 then mapKillMonster env.toEnv (o.alloc 0) m monster.oid else return m

end Map

open Map

/-- `map_damage_monster_by`. The result is the id of the monster if it has been killed, or `none` for
    `-1`. -/
def mapDamageMonsterBy (env : MapEnv) (o : Outcomes) (m : Map) (player : PlayerRef) (oid : UInt32)
    (damage : List Int32) : Exec (Option UInt32 × Map) :=
  match objectListGet env.toEnv m.objectList oid with
  | none => return (none, m)
  | some object =>
    if object.type ≠ .monster ∧ object.type ≠ .boss then return (none, m)
    else do
      let place := monsterPlace object
      let monster ← m.readPlace place
      if monster.hp > 0 then
        let m ← if monster.controller ≠ some player then m.switchControl place player else pure m
        let hp := hit monster.hp damage
        let m ← m.writeHp place hp
        let stats ← Exec.deref (env.monsterHp monster.id)
        -- The player is told what is left, in percent.
        if stats = 0 then Except.error Fault.divisionByZero
        let _ ← m.getPlayer player
        if hp = 0 then
          let m ← m.die env o player place
          -- The id is read where the monster has been.
          let killed ← m.readPlace place
          return (some killed.id, m)
        else return (none, m)
      else return (none, m)

/-- The loop of `map_kill_all_by`, for so many rounds at most. -/
def Map.killAllLoop (env : MapEnv) (o : ℕ → Outcomes) (player : PlayerRef) :
    ℕ → ℕ → List UInt32 → Map → Exec (List UInt32 × Map)
  | 0, _, ids, m => return (ids, m)
  | n + 1, i, ids, m =>
    if i < m.monsterCount then do
      let monster ← m.getMonster (m.monsterRef i)
      if monster.hp > 0 then
        let (id, m) ← mapDamageMonsterBy env (o n) m player monster.oid [monster.hp]
        -- If the monster has gone, another one is in its place.
        let i := if objectListGet env.toEnv m.objectList monster.oid = none then i else i + 1
        killAllLoop env o player n i (ids ++ [id.getD 0xFFFFFFFF]) m
      else killAllLoop env o player n (i + 1) ids m
    else return (ids, m)

/-- `map_kill_all_by`: the ids of the monsters that have been killed, or `none` for `NULL`. -/
def mapKillAllBy (env : MapEnv) (alloc : Bool) (o : ℕ → Outcomes) (m : Map) (player : PlayerRef) :
    Exec (Option (List UInt32) × Map) :=
  if ¬alloc then return (none, m)
  else do
    let (ids, m) ← m.killAllLoop env o player m.monsterCount 0 []
    return (some ids, m)

end Syrup
