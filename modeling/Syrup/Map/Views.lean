import Syrup.Map.State

/-!
# Views of a map

What a function leaves alone is told by views of a map, each of which forgets a part of it: what is on
the map (`things`), who controls the monsters (`control`), and which drops are a player's
(`MapPlayer.ownership`). What depends on a view only is kept by whatever keeps the view.
-/

namespace Syrup

/-- A monster, but for who controls it. -/
def MapMonster.bare (monster : MapMonster) : MapMonster :=
  { monster with controller := none, indexInController := 0 }

/-- A batch, but for whose it is and when it will expire. -/
def DropBatch.bare (b : DropBatch) : DropBatch :=
  { b with timer := none, owner := none, indexInPlayer := 0, exclusive := false }

/-- A dropping batch, but for whose it is and when its next drop will be dropped. -/
def DroppingBatch.bare (b : DroppingBatch) : DroppingBatch :=
  { b with timer := none, owner := none, indexInPlayer := 0 }

/-- What a dropping batch drops from, its timer, and where it is. -/
def DroppingBatch.dropper (b : DroppingBatch) : UInt32 × Option ℕ × ℕ :=
  (b.dropperOid, b.timer, b.index)

/-- A player, but for his drops. -/
def MapPlayer.control (p : MapPlayer) : MapPlayer :=
  { p with
    dropCapacity := 0
    dropSize := 0
    dropCount := 0
    drops := default
    droppingCapacity := 0
    droppingSize := 0
    droppingCount := 0
    droppings := default }

/-- A player, but for his monsters. -/
def MapPlayer.ownership (p : MapPlayer) : MapPlayer :=
  { p with container := 0, node := none, monsterCount := 0, monsterSize := 0, monsters := default }

namespace Map

/-- What is on a map, but for the players, their relations to it, the timers, and where arrays are. -/
def things (m : Map) : Map :=
  { m with
    playersBlock := 0
    playerCapacity := 0
    playerCount := 0
    players := default
    container := fun _ => none
    monstersBlock := 0
    monsterCapacity := 0
    monsters := fun i => (m.monsters i).bare
    heap := heapInit
    droppingBatchCapacity := 0
    dropping := fun id => (m.dropping id).map DroppingBatch.bare
    dropBatchCapacity := 0
    batch := fun id => (m.batch id).map DropBatch.bare
    boss := m.boss.bare
    timers := fun _ => none
    nextTimer := 0 }

/-- A map, but for its objects and its drops. -/
def control (m : Map) : Map :=
  { m with
    players := fun i => (m.players i).control
    objectList := objectListInit
    droppingBatchCapacity := 0
    droppingBatchCount := 0
    droppingBatches := fun _ => 0
    dropping := fun _ => none
    dropBatchCapacity := 0
    dropBatchStart := 0
    dropBatchEnd := 0
    dropBatches := fun _ => none
    batch := fun _ => none
    nextBatch := 0
    timers := fun _ => none
    nextTimer := 0 }

/-- Where the dropping batches are, what they drop from, and their timers. -/
def droppers (m : Map) : (ℕ → Option (UInt32 × Option ℕ × ℕ)) × ℕ × (ℕ → ℕ) :=
  (fun id => (m.dropping id).map DroppingBatch.dropper, m.droppingBatchCount, m.droppingBatches)

variable {m : Map}

@[simp] theorem setPlayer_players (r : PlayerRef) (p : MapPlayer) :
    (m.setPlayer r p).players = Function.update m.players r.index p := rfl

@[simp] theorem setMonster_monsters (r : MonsterRef) (monster : MapMonster) :
    (m.setMonster r monster).monsters = Function.update m.monsters r.index monster := rfl

@[simp] theorem setBatch_batch (id : ℕ) (b : Option DropBatch) :
    (m.setBatch id b).batch = Function.update m.batch id b := rfl

@[simp] theorem setDropping_dropping (id : ℕ) (b : Option DroppingBatch) :
    (m.setDropping id b).dropping = Function.update m.dropping id b := rfl

/-! ## What a view tells -/

section Things

variable {m' : Map} (h : m'.things = m.things)
include h

theorem batch_of_things {id : ℕ} {b : DropBatch} (hb : m.batch id = some b) :
    ∃ b', m'.batch id = some b' ∧ b'.bare = b.bare := by
  have hbatch : (m'.batch id).map DropBatch.bare = (m.batch id).map DropBatch.bare :=
    congrArg (fun m => m.batch id) h
  rwa [hb, Option.map_some, Option.map_eq_some_iff] at hbatch

theorem dropping_of_things {id : ℕ} {b : DroppingBatch} (hb : m.dropping id = some b) :
    ∃ b', m'.dropping id = some b' ∧ b'.bare = b.bare := by
  have hbatch : (m'.dropping id).map DroppingBatch.bare = (m.dropping id).map DroppingBatch.bare :=
    congrArg (fun m => m.dropping id) h
  rwa [hb, Option.map_some, Option.map_eq_some_iff] at hbatch

end Things

/-! ## What keeps a view -/

/-- A write that a view does not see. -/
theorem view_update {α β : Type*} (view : α → β) {f : ℕ → α} {i : ℕ} {a : α}
    (h : view a = view (f i)) : (fun j => view (Function.update f i a j)) = fun j => view (f j) := by
  funext j
  by_cases hj : j = i
  · rw [hj, Function.update_self, h]
  · rw [Function.update_of_ne hj]

theorem things_setPlayer (r : PlayerRef) (p : MapPlayer) : (m.setPlayer r p).things = m.things := rfl

theorem control_setPlayer {r : PlayerRef} {p : MapPlayer}
    (h : p.control = (m.players r.index).control) : (m.setPlayer r p).control = m.control := by
  rw [control, control, setPlayer_players, view_update MapPlayer.control h]
  rfl

theorem things_setMonster {r : MonsterRef} {monster : MapMonster}
    (h : monster.bare = (m.monsters r.index).bare) : (m.setMonster r monster).things = m.things := by
  rw [things, things, setMonster_monsters, view_update MapMonster.bare h]
  rfl

theorem things_setBatch {id : ℕ} {b b' : DropBatch} (hb : m.batch id = some b)
    (h : b'.bare = b.bare) : (m.setBatch id (some b')).things = m.things := by
  rw [things, things, setBatch_batch,
    view_update (Option.map DropBatch.bare) (by rw [hb, Option.map_some, h, Option.map_some])]
  rfl

theorem control_setBatch (id : ℕ) (b : Option DropBatch) :
    (m.setBatch id b).control = m.control := rfl

theorem things_setDropping {id : ℕ} {b b' : DroppingBatch} (hb : m.dropping id = some b)
    (h : b'.bare = b.bare) : (m.setDropping id (some b')).things = m.things := by
  rw [things, things, setDropping_dropping,
    view_update (Option.map DroppingBatch.bare) (by rw [hb, Option.map_some, h, Option.map_some])]
  rfl

theorem control_setDropping (id : ℕ) (b : Option DroppingBatch) :
    (m.setDropping id b).control = m.control := rfl

theorem droppers_setDropping {id : ℕ} {b b' : DroppingBatch} (hb : m.dropping id = some b)
    (h : b'.dropper = b.dropper) : (m.setDropping id (some b')).droppers = m.droppers := by
  rw [droppers, setDropping_dropping, view_update (Option.map DroppingBatch.dropper)
    (by rw [hb, Option.map_some, h, Option.map_some])]
  rfl

end Map

end Syrup
