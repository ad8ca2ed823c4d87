import Syrup.Map.Damage
import Syrup.Map.Places.Batches

/-!
# The places of monsters

What the functions do that put monsters onto a map, hit them, or take them away: the last monster of
the array takes the place of one that is taken away. The map stays `Placed`.
-/

namespace Syrup

open BackLinks

namespace Map

variable {env : Env} {m : Map}

/-! ## Monsters in the array -/

/-- A place of the array of monsters is written to. -/
theorem slot_of_monsterAt {m' : Map} {i k : ℕ} {o o' : Option UInt32}
    (hat : m'.monsterAt = Function.update (Function.update m.monsterAt i o) k o')
    (hrest : ∀ t i j, t ≠ .monster → m'.slot ⟨t, i, j⟩ = m.slot ⟨t, i, j⟩) :
    m'.slot = Function.update (Function.update m.slot ⟨.monster, i, 0⟩ o) ⟨.monster, k, 0⟩ o' := by
  funext ⟨t, i', j⟩
  by_cases ht : t = .monster
  · subst ht
    rw [slot, hat]
    by_cases hj : j = 0
    · subst hj
      rw [if_pos rfl]
      simp only [Function.update_apply, MapPlace.mk.injEq, true_and, and_true]
      rfl
    · have hne (k : ℕ) : (⟨.monster, i', j⟩ : MapPlace) ≠ ⟨.monster, k, 0⟩ := by
        rintro ⟨⟩
        exact hj rfl
      rw [if_neg hj, Function.update_of_ne (hne k), Function.update_of_ne (hne i), slot, if_neg hj]
  · have hne (k : ℕ) : (⟨t, i', j⟩ : MapPlace) ≠ ⟨.monster, k, 0⟩ := by
      rintro ⟨⟩
      exact ht rfl
    rw [Function.update_of_ne (hne k), Function.update_of_ne (hne i)]
    exact hrest t i' j ht

theorem slot_monster_eq_some {i j : ℕ} {oid : UInt32} : m.slot ⟨.monster, i, j⟩ = some oid ↔
    j = 0 ∧ i < m.monsterCount ∧ (m.monsters i).oid = oid := by
  rw [slot]
  split
  · rename_i hj
    rw [and_iff_right hj]
    exact firsts_eq_some
  · rename_i hj
    exact iff_of_false (by simp) fun h => hj h.1

theorem slot_boss_eq_some {i j : ℕ} {oid : UInt32} : m.slot ⟨.boss, i, j⟩ = some oid ↔
    (i = 0 ∧ j = 0) ∧ m.boss.oid ≠ 0xFFFFFFFF ∧ m.boss.oid = oid := by
  rw [slot, bossOid]
  split
  · rename_i hij
    rw [and_iff_right hij]
    split
    · rename_i hb
      exact iff_of_false (by simp) fun h => h.1 hb
    · rename_i hb
      rw [and_iff_right hb]
      exact Option.some_inj
  · rename_i hij
    exact iff_of_false (by simp) fun h => hij h.1

/-- The ids of monsters, one of which has been written to. -/
theorem oid_update (monsters : ℕ → MapMonster) (i : ℕ) (monster : MapMonster) :
    (fun k => (Function.update monsters i monster k).oid) =
      Function.update (fun k => (monsters k).oid) i monster.oid := by
  funext k
  by_cases hk : k = i
  · rw [hk, Function.update_self, Function.update_self]
  · rw [Function.update_of_ne hk, Function.update_of_ne hk]

/-! ## Monsters that go -/

/-- The players after a monster has been written to the list of its controller. -/
def Relisted (m : Map) (monster : MapMonster) (ref : MonsterRef) (players : ℕ → MapPlayer) : Prop :=
  (monster.controller = none ∧ players = m.players) ∨
    ∃ r p, monster.controller = some r ∧ m.getPlayer r = .ok p ∧
      monster.indexInController < p.monsterSize ∧ players = Function.update m.players r.index
        { p with monsters := Function.update p.monsters monster.indexInController ref }

theorem relist_spec (monster : MapMonster) (ref : MonsterRef) :
    Exec.Ensures (m.relist monster ref) fun m' =>
      ∃ players, m.Relisted monster ref players ∧ m' = { m with players := players } := by
  rw [relist]
  split
  · rename_i hc
    exact .pure ⟨m.players, .inl ⟨hc, rfl⟩, rfl⟩
  · rename_i r hc
    refine .andThen fun p hp => MapPlayer.writeMonster_spec.bind fun p' hp' => .pure ?_
    obtain ⟨hlt, rfl⟩ := hp'
    exact ⟨_, .inr ⟨r, p, hc, hp, hlt, rfl⟩, rfl⟩

/-- The spawner of a monster is dead. -/
theorem pushDead_spec (spawnerIndex : Option ℕ) :
    Exec.Ensures (m.pushDead spawnerIndex) fun m' =>
      (∀ i ∈ spawnerIndex, m.dead.length < m.spawners.length) ∧
        m' = { m with dead := m.dead ++ spawnerIndex.toList } := by
  rcases spawnerIndex with - | i
  · refine .pure ⟨nofun, ?_⟩
    rw [Option.toList_none, List.append_nil]
  · exact Exec.within_spec.bind fun _ h => .pure ⟨fun _ _ => h, rfl⟩

/-- What is left when a monster has been taken out of the array. -/
def withoutMonster (m : Map) (i : ℕ) (players : ℕ → MapPlayer) : Map :=
  { m with
    players := players
    dead := m.dead ++ (m.monsters i).spawnerIndex.toList
    monsters := Function.update m.monsters i (m.monsters (m.monsterCount - 1))
    monsterCount := m.monsterCount - 1 }

/-- `map_kill_monster`, for a monster in the array. -/
theorem mapKillMonster_regular (h : Placed env m) (alloc : Bool) {oid : UInt32} {i : ℕ}
    (hi : m.placeOf env oid = some ⟨.monster, i, 0⟩) :
    Exec.Ensures (mapKillMonster env alloc m oid) fun m' => Placed env m' ∧
      (∀ s ∈ (m.monsters i).spawnerIndex, m.dead.length < m.spawners.length) ∧
      ∃ list players,
        m.Relisted (m.monsters (m.monsterCount - 1)) (m.monsterRef i) players ∧
        m' = { m.withoutMonster i players with objectList := list } := by
  obtain ⟨-, hlt, hoid⟩ := slot_monster_eq_some.1 ((h.linked ..).1 hi)
  refine (getObject_spec h.tracks oid).bind fun object hobject => ?_
  obtain ⟨-, hplace⟩ := hobject
  have hobject := Option.some.inj (hplace.symm.trans hi)
  have ht : object.type = .monster := congrArg MapPlace.type hobject
  have hindex : object.index = i := congrArg MapPlace.index hobject
  rw [if_pos ht, hindex]
  refine .andThen fun monster hmonster => ?_
  obtain rfl := (getMonster_eq_ok.1 hmonster).2
  refine (pushDead_spec _).bind fun m₁ hm₁ => ?_
  obtain ⟨hdead, rfl⟩ := hm₁
  refine Exec.last_spec.bind fun last hlast => ?_
  obtain ⟨-, rfl⟩ := hlast
  refine .andThen fun moved hmoved => ?_
  obtain rfl := (getMonster_eq_ok.1 hmoved).2
  refine (relist_spec _ _).bind ?_
  rintro m₂ ⟨players, hplayers, rfl⟩
  have hy : m.placeOf env (m.monsters (m.monsterCount - 1)).oid =
      some ⟨.monster, m.monsterCount - 1, 0⟩ :=
    (h.linked ..).2 (slot_monster_eq_some.2 ⟨rfl, by omega, rfl⟩)
  refine (getObject_spec (by exact h.tracks) (m.monsters (m.monsterCount - 1)).oid).bind
    fun movedObject hmovedObject => ?_
  obtain ⟨hmovedOid, hmovedPlace⟩ := hmovedObject
  have hmovedObject := Option.some.inj (hmovedPlace.symm.trans hy)
  obtain ⟨htracked₁, hplace₁⟩ := setObject_spec (o := { movedObject with index := i }) h.tracks hy
    hmovedOid
  have hmovedPlace : MapObject.place { movedObject with index := i } = ⟨.monster, i, 0⟩ := by
    have hty : movedObject.type = .monster := congrArg MapPlace.type hmovedObject
    have hindex2 : movedObject.index2 = 0 := congrArg MapPlace.index2 hmovedObject
    rw [MapObject.place, hty, hindex2]
  rw [hmovedPlace] at hplace₁
  have hi₁ : Function.update (m.placeOf env) (m.monsters (m.monsterCount - 1)).oid
      (some ⟨.monster, i, 0⟩) oid = some ⟨.monster, i, 0⟩ := by
    rw [Function.update_apply, hi, ite_self]
  refine Exec.Ensures.mono (freeObject_spec (p := ⟨.monster, i, 0⟩) ?_ alloc ?_) ?_
  · exact htracked₁
  · exact (congrFun hplace₁ oid).trans hi₁
  rintro m' ⟨list, rfl, htracked, hplace₂⟩
  refine ⟨?_, hdead, list, players, hplayers, rfl⟩
  refine ⟨htracked, ?_, h.window, h.cells, h.droppings, h.fresh⟩
  have hat : (m.withoutMonster i players).monsterAt = Function.update
      (Function.update m.monsterAt i (some (m.monsters (m.monsterCount - 1)).oid))
        (m.monsterCount - 1) none := by
    rw [monsterAt, withoutMonster, oid_update]
    exact firsts_fill hlt
  have hslot := slot_of_monsterAt (m := m) hat fun t i j ht => by
    rcases t
    case monster => exact absurd rfl ht
    all_goals rfl
  have hlinked := h.linked.fill hi hy
  rw [← hslot, ← hplace₁] at hlinked
  rw [hplace₂]
  exact hlinked

/-- `map_kill_monster`, for the boss. -/
theorem mapKillMonster_boss (h : Placed env m) (alloc : Bool) {oid : UInt32} {i j : ℕ}
    (hi : m.placeOf env oid = some ⟨.boss, i, j⟩) :
    Exec.Ensures (mapKillMonster env alloc m oid) fun m' => Placed env m' ∧
      ∃ list, m' = { m with objectList := list, boss := { m.boss with oid := 0xFFFFFFFF } } := by
  obtain ⟨hij, -, hoid⟩ := slot_boss_eq_some.1 ((h.linked ..).1 hi)
  refine (getObject_spec h.tracks oid).bind fun object hobject => ?_
  obtain ⟨-, hplace⟩ := hobject
  have ht : object.type = .boss := congrArg MapPlace.type (Option.some.inj (hplace.symm.trans hi))
  rw [if_neg (by rw [ht]; exact nofun), hoid]
  refine (freeObject_spec h.tracks alloc hi).bind ?_
  rintro m₁ ⟨list, rfl, htracked, hplace₁⟩
  refine .pure ⟨?_, list, rfl⟩
  have hslot : slot { m with objectList := list, boss := { m.boss with oid := 0xFFFFFFFF } } =
      Function.update m.slot ⟨.boss, i, j⟩ none := by
    funext ⟨t, k, l⟩
    by_cases ht : t = .boss
    · subst ht
      by_cases hk : k = 0 ∧ l = 0
      · rw [hk.1, hk.2, hij.1, hij.2, Function.update_self]
        rfl
      · rw [Function.update_of_ne, slot, if_neg hk, slot, if_neg hk]
        rintro ⟨⟩
        exact hk hij
    · rw [Function.update_of_ne]
      · rcases t
        case boss => exact absurd rfl ht
        all_goals rfl
      · rintro ⟨⟩
        exact ht rfl
  refine ⟨htracked, ?_, h.window, h.cells, h.droppings, h.fresh⟩
  rw [hslot]
  exact hplace₁ ▸ h.linked.take hi

/-! ## Monsters that come -/

/-- The players after a new monster has been put into the list of its controller, and its index there. -/
def Enlisted (m : Map) (controller : Option PlayerRef) (players : ℕ → MapPlayer) (index : ℕ) : Prop :=
  (controller = none ∧ players = m.players ∧ index = 0) ∨
    ∃ r p, controller = some r ∧ m.getPlayer r = .ok p ∧ p.monsterCount < p.monsterSize ∧
      index = p.monsterCount ∧ players = Function.update m.players r.index { p with
        monsters := Function.update p.monsters p.monsterCount (m.monsterRef m.monsterCount)
        monsterCount := p.monsterCount + 1 }

/-- What there is when a monster has been put at the end of the array. -/
def withMonster (m : Map) (monster : MapMonster) (players : ℕ → MapPlayer) : Map :=
  { m with
    players := players
    monsters := Function.update m.monsters m.monsterCount monster
    monsterCount := m.monsterCount + 1 }

/-- What `addMonster` does. -/
structure Added (env : MapEnv) (id : UInt32) (spawnerIndex : Option ℕ)
    (controller : Option PlayerRef) (m m' : Map) : Prop where
  placed : Placed env.toEnv m'
  room : m.monsterCount < m.monsterCapacity
  eq : ∃ list oid hp players index, m.placeOf env.toEnv oid = none ∧ env.monsterHp id = some hp ∧
    m.Enlisted controller players index ∧
    m' = { m.withMonster ⟨oid, id, hp, spawnerIndex, controller, index⟩ players with
      objectList := list }

/-- There are no monsters behind the others. -/
theorem slot_monster_end : m.slot ⟨.monster, m.monsterCount, 0⟩ = none := by
  rw [slot, if_pos rfl, monsterAt, firsts_eq_none]

theorem slot_withMonster (monster : MapMonster) (players : ℕ → MapPlayer) :
    (m.withMonster monster players).slot =
      Function.update m.slot ⟨.monster, m.monsterCount, 0⟩ (some monster.oid) := by
  have hat : (m.withMonster monster players).monsterAt = Function.update
      (Function.update m.monsterAt m.monsterCount (some monster.oid)) m.monsterCount
        (some monster.oid) := by
    rw [monsterAt, withMonster, oid_update, Function.update_idem]
    exact firsts_push
  rw [slot_of_monsterAt (m := m) hat, Function.update_idem]
  intro t i j ht
  rcases t
  case monster => exact absurd rfl ht
  all_goals rfl

theorem addMonster_spec {env : MapEnv} (h : Placed env.toEnv m) (o : Outcomes) (id : UInt32)
    (spawnerIndex : Option ℕ) (controller : Option PlayerRef) :
    Exec.Ensures (m.addMonster env o id spawnerIndex controller)
      (Added env id spawnerIndex controller m) := by
  refine (allocateObject_spec h.tracks (o.alloc 0) (o.alloc 1) .monster _ 0).bind ?_
  rintro ⟨oid, m₁⟩ ⟨hnone, -, list, rfl, htracked, hplace⟩
  refine .bind (.deref fun hp h => h) fun hp hhp => Exec.within_spec.bind fun _ hroom => ?_
  have hplaced (index : ℕ) (players : ℕ → MapPlayer) : Placed env.toEnv
      { m.withMonster ⟨oid, id, hp, spawnerIndex, controller, index⟩ players with
        objectList := list } := by
    refine ⟨htracked, ?_, h.window, h.cells, h.droppings, h.fresh⟩
    have hlinked := h.linked.put hnone slot_monster_end
    rw [← slot_withMonster ⟨oid, id, hp, spawnerIndex, controller, index⟩ players] at hlinked
    exact hplace ▸ hlinked
  rcases controller with - | r
  · exact .pure ⟨hplaced 0 m.players, hroom, list, oid, hp, m.players, 0, hnone, hhp,
      .inl ⟨rfl, rfl, rfl⟩, rfl⟩
  · refine .andThen fun p hp => MapPlayer.pushMonster_spec.bind fun p' hp' => ?_
    obtain ⟨hlt, rfl⟩ := hp'
    exact .pure ⟨hplaced p.monsterCount _, hroom, list, oid, _, _, p.monsterCount, hnone, hhp,
      .inr ⟨r, p, rfl, hp, hlt, rfl, rfl⟩, rfl⟩

theorem slot_withBoss {list : ObjectList} {boss : MapMonster} (hoid : boss.oid ≠ 0xFFFFFFFF) :
    slot { m with objectList := list, boss := boss } =
      Function.update m.slot ⟨.boss, 0, 0⟩ (some boss.oid) := by
  funext ⟨t, i, j⟩
  by_cases hp : (⟨t, i, j⟩ : MapPlace) = ⟨.boss, 0, 0⟩
  · rw [hp, Function.update_self]
    exact slot_boss_eq_some.2 ⟨⟨rfl, rfl⟩, hoid, rfl⟩
  · rw [Function.update_of_ne hp]
    rcases t
    case boss =>
      have hij : ¬(i = 0 ∧ j = 0) := by
        rintro ⟨rfl, rfl⟩
        exact hp rfl
      rw [slot, slot, if_neg hij, if_neg hij]
    all_goals rfl

/-! ## What is there from the first -/

/-- A list that has become longer by one. -/
theorem getElem?_concat_of_ne {α : Type*} {l : List α} {i : ℕ} (h : i ≠ l.length) (a : α) :
    (l ++ [a])[i]? = l[i]? := by
  rcases Nat.lt_or_gt_of_ne h with hlt | hgt
  · exact List.getElem?_append_left hlt
  · rw [List.getElem?_eq_none (Nat.le_of_lt hgt), List.getElem?_eq_none]
    rw [List.length_append, List.length_singleton]
    exact hgt

theorem slot_withNpc (list : ObjectList) (oid : UInt32) :
    slot { m with objectList := list, npcs := m.npcs ++ [oid] } =
      Function.update m.slot ⟨.npc, m.npcs.length, 0⟩ (some oid) := by
  funext ⟨t, i, j⟩
  by_cases hp : (⟨t, i, j⟩ : MapPlace) = ⟨.npc, m.npcs.length, 0⟩
  · rw [hp, Function.update_self, slot, if_pos rfl]
    exact List.getElem?_concat_length
  · rw [Function.update_of_ne hp]
    rcases t
    case npc =>
      rw [slot, slot]
      split
      · rename_i hj
        refine getElem?_concat_of_ne ?_ oid
        rintro rfl
        exact hp (by rw [hj])
      · rfl
    all_goals rfl

theorem slot_withReactor (list : ObjectList) (reactor : Reactor) :
    slot { m with objectList := list, reactors := m.reactors ++ [reactor] } =
      Function.update m.slot ⟨.reactor, m.reactors.length, 0⟩ (some reactor.oid) := by
  funext ⟨t, i, j⟩
  by_cases hp : (⟨t, i, j⟩ : MapPlace) = ⟨.reactor, m.reactors.length, 0⟩
  · rw [hp, Function.update_self, slot, if_pos rfl]
    exact congrArg (Option.map Reactor.oid) List.getElem?_concat_length
  · rw [Function.update_of_ne hp]
    rcases t
    case reactor =>
      rw [slot, slot]
      split
      · rename_i hj
        refine congrArg (Option.map Reactor.oid) (getElem?_concat_of_ne ?_ reactor)
        rintro rfl
        exact hp (by rw [hj])
      · rfl
    all_goals rfl

end Map

end Syrup
