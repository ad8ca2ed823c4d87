import Syrup.Lib.BackLinks
import Syrup.Map.ObjectList.Spec
import Syrup.Map.Views

/-!
# The places of objects

Every object of a map is somewhere: a monster in the array of monsters, a drop in a batch, and so on
(`Map.slot`), and the object tells where that is (`Map.placeOf`). The two are linked as long as whatever
moves is written to its object (`Placed`).

Who controls a monster and who owns a drop does not matter for that: whether a map is `Placed` depends on
the things that are on it (`Map.things`).
-/

namespace Syrup

open BackLinks

/-- Where an object of a map is. -/
structure MapPlace where
  type : MapObjectType
  index : ℕ
  index2 : ℕ
  deriving DecidableEq

/-- The place an object tells. -/
def MapObject.place (o : MapObject) : MapPlace := ⟨o.type, o.index, o.index2⟩

/-- The id of a drop of a batch. -/
def DropBatch.oidAt (b : DropBatch) (j : ℕ) : Option UInt32 := b.drops[j]?.map Drop.oid

/-- The id of a drop of a dropping batch that has been dropped. -/
def DroppingBatch.oidAt (b : DroppingBatch) (j : ℕ) : Option UInt32 :=
  if j < b.current then b.drops[j]?.map Drop.oid else none

/-- A drop that has been dropped is in its batch. -/
theorem DroppingBatch.oidAt_eq_some {b : DroppingBatch} {j : ℕ} {oid : UInt32} :
    b.oidAt j = some oid ↔ j < b.current ∧ ∃ d, b.drops[j]? = some d ∧ d.oid = oid := by
  rw [DroppingBatch.oidAt]
  split
  · rename_i hj
    rw [Option.map_eq_some_iff, and_iff_right hj]
  · rename_i hj
    exact iff_of_false nofun fun h => hj h.1

namespace Map

variable (m : Map)

/-! ## Places -/

/-- The place that the object with an id tells. -/
def placeOf (env : Env) (oid : UInt32) : Option MapPlace :=
  (objectListGet env m.objectList oid).map MapObject.place

/-- The batch in a place of the window. -/
def cell (i : ℕ) : Option ℕ :=
  if m.dropBatchStart ≤ i ∧ i < m.dropBatchEnd then m.dropBatches i else none

/-- The batch in a place of the window, dereferenced. -/
def batchAt (i : ℕ) : Option DropBatch := (m.cell i).bind m.batch

/-- The dropping batch in a place. -/
def droppingCell : ℕ → Option ℕ := firsts m.droppingBatchCount m.droppingBatches

/-- The dropping batch in a place, dereferenced. -/
def droppingAt (i : ℕ) : Option DroppingBatch := (m.droppingCell i).bind m.dropping

/-- The id of the monster in a place. -/
def monsterAt : ℕ → Option UInt32 := firsts m.monsterCount fun i => (m.monsters i).oid

/-- The id of the boss, if it is on the map. -/
def bossOid : Option UInt32 := if m.boss.oid = 0xFFFFFFFF then none else some m.boss.oid

/-- The id of what is in a place. -/
def slot : MapPlace → Option UInt32
  | ⟨.monster, i, j⟩ => if j = 0 then m.monsterAt i else none
  | ⟨.npc, i, j⟩ => if j = 0 then m.npcs[i]? else none
  | ⟨.reactor, i, j⟩ => if j = 0 then m.reactors[i]?.map Reactor.oid else none
  | ⟨.boss, i, j⟩ => if i = 0 ∧ j = 0 then m.bossOid else none
  | ⟨.drop, i, j⟩ => BackLinks.held m.batchAt DropBatch.oidAt (i, j)
  | ⟨.dropping, i, j⟩ => BackLinks.held m.droppingAt DroppingBatch.oidAt (i, j)

/-- The objects of a map are found by their ids, and tell where they are; the batches are in the window,
    each once, and the array of dropping batches has batches that know where they are. -/
structure Placed (env : Env) (m : Map) : Prop where
  tracks : Tracks env m.objectList (objectListGet env m.objectList)
  linked : Linked (m.placeOf env) m.slot
  window : m.dropBatchStart ≤ m.dropBatchEnd
  cells : ∃ pos, Linked pos m.cell ∧ ∀ id, m.batch id = none ↔ pos id = none
  droppings : ∀ i id, m.droppingCell i = some id → ∃ b, m.dropping id = some b ∧ b.index = i
  fresh : ∀ id, m.nextBatch ≤ id → m.batch id = none ∧ m.dropping id = none

/-! ## Things -/

variable {env : Env} {m m' : Map}

theorem batchAt_things (i : ℕ) : m.things.batchAt i = (m.batchAt i).map DropBatch.bare := by
  change (m.cell i).bind (fun id => (m.batch id).map DropBatch.bare) = _
  rw [batchAt, Option.map_bind]
  rfl

theorem droppingAt_things (i : ℕ) :
    m.things.droppingAt i = (m.droppingAt i).map DroppingBatch.bare := by
  change (m.droppingCell i).bind (fun id => (m.dropping id).map DroppingBatch.bare) = _
  rw [droppingAt, Option.map_bind]
  rfl

theorem slot_things : m.things.slot = m.slot := by
  funext ⟨t, i, j⟩
  rcases t
  case drop =>
    change (m.things.batchAt i).bind _ = (m.batchAt i).bind _
    rw [batchAt_things, Option.bind_map]
    rfl
  case dropping =>
    change (m.things.droppingAt i).bind _ = (m.droppingAt i).bind _
    rw [droppingAt_things, Option.bind_map]
    rfl
  all_goals rfl

theorem placed_things : Placed env m.things ↔ Placed env m := by
  refine ⟨fun h => ⟨h.tracks, ?_, h.window, ?_, ?_, fun id hid => ?_⟩,
    fun h => ⟨h.tracks, ?_, h.window, ?_, ?_, fun id hid => ?_⟩⟩
  · exact slot_things (m := m) ▸ h.linked
  · obtain ⟨pos, hpos, hnone⟩ := h.cells
    exact ⟨pos, hpos, fun id => Option.map_eq_none_iff.symm.trans (hnone id)⟩
  · intro i id hi
    obtain ⟨b, hb, hindex⟩ := h.droppings i id hi
    obtain ⟨b', hb', rfl⟩ := Option.map_eq_some_iff.1 hb
    exact ⟨b', hb', hindex⟩
  · obtain ⟨hb, hd⟩ := h.fresh id hid
    exact ⟨Option.map_eq_none_iff.1 hb, Option.map_eq_none_iff.1 hd⟩
  · exact slot_things (m := m) ▸ h.linked
  · obtain ⟨pos, hpos, hnone⟩ := h.cells
    exact ⟨pos, hpos, fun id => Option.map_eq_none_iff.trans (hnone id)⟩
  · intro i id hi
    obtain ⟨b, hb, hindex⟩ := h.droppings i id hi
    exact ⟨b.bare, Option.map_eq_some_iff.2 ⟨b, hb, rfl⟩, hindex⟩
  · obtain ⟨hb, hd⟩ := h.fresh id hid
    exact ⟨Option.map_eq_none_iff.2 hb, Option.map_eq_none_iff.2 hd⟩

/-- Whether a map is `Placed` depends on the things on it. -/
theorem Placed.of_things (h : Placed env m) (ht : m'.things = m.things) : Placed env m' :=
  placed_things.1 (ht ▸ placed_things.2 h)

/-- A dropping batch is in one place of the array. -/
theorem Placed.dropping_ext (h : Placed env m) {i j id : ℕ} (hi : m.droppingCell i = some id)
    (hj : m.droppingCell j = some id) : i = j := by
  obtain ⟨b, hb, rfl⟩ := h.droppings i id hi
  obtain ⟨b', hb', rfl⟩ := h.droppings j id hj
  rw [Option.some.inj (hb.symm.trans hb')]

/-- The dropping batches, but for one, are where they tell that they are. -/
def Listed (except : Option ℕ) (m : Map) : Prop :=
  ∀ id b, m.dropping id = some b → some id ≠ except → m.droppingCell b.index = some id

/-- That depends only on where the dropping batches are. -/
theorem Listed.of_droppers {except : Option ℕ} (h : Listed except m) (hd : m'.droppers = m.droppers) :
    Listed except m' := by
  intro id b hb hne
  have hdropper : (m.dropping id).map DroppingBatch.dropper = some b.dropper := by
    rw [← Option.map_some, ← hb]
    exact congrFun (congrArg Prod.fst hd).symm id
  obtain ⟨b', hb', he⟩ := Option.map_eq_some_iff.1 hdropper
  have hindex : b'.index = b.index := congrArg (fun d => d.2.2) he
  have hcell : m'.droppingCell = m.droppingCell :=
    congrArg (fun d : _ × ℕ × (ℕ → ℕ) => firsts d.2.1 d.2.2) hd
  rw [hcell, ← hindex]
  exact h id b' hb' hne

theorem batchAt_eq_some {i : ℕ} {b : DropBatch} :
    m.batchAt i = some b ↔ ∃ id, m.cell i = some id ∧ m.batch id = some b :=
  Option.bind_eq_some_iff

theorem droppingAt_eq_some {i : ℕ} {b : DroppingBatch} :
    m.droppingAt i = some b ↔ ∃ id, m.droppingCell i = some id ∧ m.dropping id = some b :=
  Option.bind_eq_some_iff

theorem slot_drop_eq_some {i j : ℕ} {oid : UInt32} : m.slot ⟨.drop, i, j⟩ = some oid ↔
    ∃ b, m.batchAt i = some b ∧ b.oidAt j = some oid := held_eq_some

theorem slot_dropping_eq_some {i j : ℕ} {oid : UInt32} : m.slot ⟨.dropping, i, j⟩ = some oid ↔
    ∃ b, m.droppingAt i = some b ∧ b.oidAt j = some oid := held_eq_some

/-! ## Objects that come, move and go -/

/-- The object list of a map finds what it keeps. -/
def Tracked (env : Env) (m : Map) : Prop :=
  Tracks env m.objectList (objectListGet env m.objectList)

/-- The objects that a list keeps after one of them has been changed. -/
theorem tracked_update {list : ObjectList} {oid : UInt32} {o : Option MapObject}
    (h : Tracks env list (Function.update (objectListGet env m.objectList) oid o)) :
    Tracked env { m with objectList := list } ∧ placeOf { m with objectList := list } env =
      Function.update (m.placeOf env) oid (o.map MapObject.place) := by
  have hget : objectListGet env list = Function.update (objectListGet env m.objectList) oid o :=
    funext h.get_eq
  refine ⟨?_, ?_⟩
  · rw [Tracked, hget]
    exact h
  · funext q
    rw [placeOf, hget, ← Function.comp_apply (f := Option.map MapObject.place),
      Function.comp_update]
    rfl

/-- An object that is found tells its id. -/
theorem Tracked.oid_eq (h : Tracked env m) {oid : UInt32} {o : MapObject}
    (ho : objectListGet env m.objectList oid = some o) : o.oid = oid :=
  Tracks.oid_eq h ho

theorem Tracked.placeOf_eq_some (h : Tracked env m) {oid : UInt32} {p : MapPlace} :
    m.placeOf env oid = some p ↔
      objectListGet env m.objectList oid = some ⟨p.type, oid, p.index, p.index2⟩ := by
  rw [placeOf, Option.map_eq_some_iff]
  constructor
  · rintro ⟨o, ho, rfl⟩
    rw [ho, ← h.oid_eq ho]
    rfl
  · intro ho
    exact ⟨_, ho, rfl⟩

theorem getObject_spec (h : Tracked env m) (oid : UInt32) :
    Exec.Ensures (m.getObject env oid) fun o => o.oid = oid ∧ m.placeOf env oid = some o.place :=
  .deref fun o ho => ⟨h.oid_eq ho, by rw [placeOf, ho, Option.map_some]⟩

theorem allocateObject_spec (h : Tracked env m) (allocTable allocStack : Bool)
    (type : MapObjectType) (i j : ℕ) :
    Exec.Ensures (m.allocateObject env allocTable allocStack type i j) fun r =>
      m.placeOf env r.1 = none ∧ ValidOid r.1 ∧ ∃ list, r.2 = { m with objectList := list } ∧
        Tracked env r.2 ∧ r.2.placeOf env = Function.update (m.placeOf env) r.1 (some ⟨type, i, j⟩) := by
  obtain ⟨o, list, hcall, -, hsome⟩ := Tracks.allocate h allocTable allocStack type i j
  rw [allocateObject, hcall, Exec.ok_bind]
  refine Exec.Ensures.bind (.deref fun oid hoid => hoid) fun oid hoid => .pure ?_
  obtain ⟨hnone, hvalid, htracks⟩ := hsome oid hoid
  obtain ⟨htracked, hplace⟩ := tracked_update htracks
  exact ⟨by rw [placeOf, hnone, Option.map_none], hvalid, list, rfl, htracked, hplace⟩

theorem freeObject_spec (h : Tracked env m) (alloc : Bool) {oid : UInt32} {p : MapPlace}
    (hp : m.placeOf env oid = some p) :
    Exec.Ensures (m.freeObject env alloc oid) fun m' => ∃ list, m' = { m with objectList := list } ∧
      Tracked env m' ∧ m'.placeOf env = Function.update (m.placeOf env) oid none := by
  have hne : objectListGet env m.objectList oid ≠ none := by
    rw [h.placeOf_eq_some.1 hp]
    exact nofun
  obtain ⟨list, hcall, htracks⟩ := Tracks.free h alloc hne
  rw [freeObject, hcall, Exec.ok_bind]
  obtain ⟨htracked, hplace⟩ := tracked_update htracks
  exact .pure ⟨list, rfl, htracked, hplace⟩

theorem setObject_spec (h : Tracked env m) {oid : UInt32} {p : MapPlace}
    (hp : m.placeOf env oid = some p) {o : MapObject} (ho : o.oid = oid) :
    Tracked env (m.setObject env oid o) ∧ (m.setObject env oid o).placeOf env =
      Function.update (m.placeOf env) oid (some o.place) := by
  have hne : objectListGet env m.objectList oid ≠ none := by
    rw [h.placeOf_eq_some.1 hp]
    exact nofun
  exact tracked_update (Tracks.write h hne ho)

end Map

end Syrup
