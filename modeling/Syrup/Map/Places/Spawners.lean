import Syrup.Map.Places.Run

/-!
# Every spawner is accounted for

A spawner is dead, or the monster that it has spawned is on the map; a monster that a command has put there has
no spawner. When a spawner or a monster is taken out, the last one takes its place. In every run each spawner is
found once, among the dead ones or at a monster (`Accounted`). So where there are fewer monsters than spawners,
one of these is dead, and `on_respawn` finds one (`RespawnsWithin`).
-/

namespace Syrup

open BackLinks

namespace Map

variable {env : Env} {m m' : Map}

/-! ## What should hold -/

/-- Every spawner is dead, once, or has one monster, and there are no others. -/
structure Accounted (m : Map) : Prop where
  once : ∀ s < m.spawners.length,
    (m.dead.count s = 1 ∧ ∀ i < m.monsterCount, (m.monsters i).spawnerIndex ≠ some s) ∨
      m.dead.count s = 0 ∧ ∃! i, i < m.monsterCount ∧ (m.monsters i).spawnerIndex = some s
  dead : ∀ s ∈ m.dead, s < m.spawners.length
  monster : ∀ i < m.monsterCount, ∀ s ∈ (m.monsters i).spawnerIndex, s < m.spawners.length

/-- In every round of the loop of `on_respawn` there is a dead spawner to choose, the dead ones are in their
    block, and there is room for a monster in its array. -/
def RoundsWithin (env : MapEnv) (grow o : ℕ → Outcomes) (next : Option ℕ) (maxSpawnCount : ℕ) :
    ℕ → ℕ → Map → Prop
  | 0, _, _ => True
  | n + 1, count, m => m.monsterCount < maxSpawnCount → ∀ m₁,
      (if m.monsterCount = m.monsterCapacity then m.growMonsters (grow count) else pure (true, m)) =
        .ok (true, m₁) →
      (0 < m₁.dead.length ∧ m₁.dead.length ≤ m₁.spawners.length ∧
        m₁.monsterCount < m₁.monsterCapacity) ∧
      ∀ m₂, m₁.respawnOne env (o count) next = .ok m₂ →
        RoundsWithin env grow o next maxSpawnCount n (count + 1) m₂

/-- `on_respawn` neither divides by zero, nor does it write past the dead spawners or past the monsters. -/
def RespawnsWithin (env : MapEnv) (grow o : ℕ → Outcomes) (m : Map) : Prop :=
  m.RoundsWithin env grow o (heapTop m.heap) (env.maxSpawnCount m.playerCount m.spawners.length)
    (env.maxSpawnCount m.playerCount m.spawners.length - m.monsterCount) 0

/-! ## The spawners of the monsters -/

/-- The spawners of the monsters on a map. -/
def spawned (m : Map) : Multiset ℕ :=
  ∑ i ∈ Finset.range m.monsterCount, ((m.monsters i).spawnerIndex.toList : Multiset ℕ)

/-- The spawners, those that are dead, and those of the monsters. -/
def spawning (m : Map) : List UInt32 × List ℕ × ℕ × (ℕ → Option ℕ) :=
  (m.spawners, m.dead, m.monsterCount, fun i => (m.monsters i).spawnerIndex)

theorem spawned_of_spawning (h : m'.spawning = m.spawning) : m'.spawned = m.spawned :=
  congrArg (fun s : List UInt32 × List ℕ × ℕ × (ℕ → Option ℕ) =>
    ∑ i ∈ Finset.range s.2.2.1, ((s.2.2.2 i).toList : Multiset ℕ)) h

/-- A spawner has so many monsters. -/
theorem count_spawned (s : ℕ) : m.spawned.count s =
    (Finset.filter (fun i => (m.monsters i).spawnerIndex = some s) (Finset.range m.monsterCount)).card := by
  rw [spawned, Multiset.count_sum', Finset.card_filter]
  refine Finset.sum_congr rfl fun i _ => ?_
  rw [Multiset.coe_count]
  cases (m.monsters i).spawnerIndex with
  | none => rw [Option.toList_none, List.count_nil, if_neg (by simp)]
  | some k => simp [List.count_singleton]

theorem card_spawned_le : m.spawned.card ≤ m.monsterCount := by
  rw [spawned, Multiset.card_sum]
  refine (Finset.sum_le_card_nsmul _ _ 1 fun i _ => ?_).trans ?_
  · rw [Multiset.coe_card]
    exact Option.length_toList_le
  · rw [Finset.card_range, smul_eq_mul, mul_one]

/-- A monster is taken out of the array. -/
theorem spawned_withoutMonster {i : ℕ} (hi : i < m.monsterCount) (players : ℕ → MapPlayer) :
    (m.withoutMonster i players).spawned + ((m.monsters i).spawnerIndex.toList : Multiset ℕ) =
      m.spawned := by
  obtain ⟨n, hn⟩ : ∃ n, m.monsterCount = n + 1 := ⟨_, (Nat.succ_pred_eq_of_pos (Nat.zero_lt_of_lt hi)).symm⟩
  have hf : (fun k => ((Function.update m.monsters i (m.monsters n) k).spawnerIndex.toList : Multiset ℕ)) =
      Function.update (fun k => ((m.monsters k).spawnerIndex.toList : Multiset ℕ)) i
        ((m.monsters n).spawnerIndex.toList : Multiset ℕ) := by
    funext k
    rcases eq_or_ne k i with rfl | hk
    · rw [Function.update_self, Function.update_self]
    · rw [Function.update_of_ne hk, Function.update_of_ne hk]
  have hlast : Function.update m.monsters i (m.monsters n) n = m.monsters n := by
    rcases eq_or_ne n i with rfl | hk
    · rw [Function.update_self]
    · rw [Function.update_of_ne hk]
  have hsum := sum_update_add (hn ▸ hi) (fun k => ((m.monsters k).spawnerIndex.toList : Multiset ℕ))
    ((m.monsters n).spawnerIndex.toList : Multiset ℕ)
  rw [← hf, Finset.sum_range_succ, hlast, add_right_comm] at hsum
  rw [spawned, spawned, withoutMonster, hn]
  exact add_right_cancel hsum

/-- A monster is put at the end of the array. -/
theorem spawned_withMonster (monster : MapMonster) (players : ℕ → MapPlayer) :
    (m.withMonster monster players).spawned = m.spawned + (monster.spawnerIndex.toList : Multiset ℕ) := by
  change ∑ i ∈ Finset.range (m.monsterCount + 1), ((Function.update m.monsters m.monsterCount monster
    i).spawnerIndex.toList : Multiset ℕ) = _
  rw [Finset.sum_range_succ, Function.update_self, spawned]
  refine congrArg (· + _) (Finset.sum_congr rfl fun i hi => ?_)
  rw [Function.update_of_ne (Finset.mem_range.1 hi).ne]

/-! ## A map on which every spawner is dead or has its monster -/

/-- The spawners are those that are dead and those of the monsters, which the array has room for. -/
structure Populated (m : Map) : Prop where
  partition : (m.dead : Multiset ℕ) + m.spawned = Multiset.range m.spawners.length
  positive : 0 < m.monsterCapacity
  room : m.monsterCount ≤ m.monsterCapacity

theorem Populated.of_spawning (h : Populated m) (hm' : m'.spawning = m.spawning)
    (hroom : m.monsterCapacity ≤ m'.monsterCapacity) : Populated m' := by
  have hspawners : m'.spawners = m.spawners := congrArg Prod.fst hm'
  have hdead : m'.dead = m.dead := congrArg (fun s => s.2.1) hm'
  have hcount : m'.monsterCount = m.monsterCount := congrArg (fun s => s.2.2.1) hm'
  refine ⟨?_, h.positive.trans_le hroom, hcount.trans_le (h.room.trans hroom)⟩
  rw [hdead, spawned_of_spawning hm', hspawners, h.partition]

theorem Populated.of_steady (h : Populated m) (hm' : Steady m m') : Populated m' :=
  h.of_spawning (congrArg spawning hm'.things :) hm'.room

theorem Populated.of_control (h : Populated m) (hm' : m'.control = m.control) : Populated m' :=
  h.of_spawning (congrArg spawning hm' :) (congrArg (fun m => m.monsterCapacity) hm').ge

theorem Populated.each_once (h : Populated m) : m.Accounted := by
  have hcount (s : ℕ) := congrArg (Multiset.count s) h.partition
  refine ⟨fun s hs => ?_, fun s hs => ?_, fun i hi s hs => ?_⟩
  · have hone := hcount s
    rw [Multiset.count_add, Multiset.coe_count, count_spawned,
      Multiset.count_eq_one_of_mem (Multiset.nodup_range _) (Multiset.mem_range.2 hs)] at hone
    rcases Nat.eq_zero_or_pos (m.dead.count s) with hdead | hdead
    · rw [hdead, zero_add] at hone
      obtain ⟨i, hi⟩ := Finset.card_eq_one.1 hone
      have hmem (k : ℕ) : k < m.monsterCount ∧ (m.monsters k).spawnerIndex = some s ↔ k = i := by
        have hk := Finset.ext_iff.1 hi k
        rwa [Finset.mem_filter, Finset.mem_range, Finset.mem_singleton] at hk
      exact .inr ⟨hdead, i, (hmem i).2 rfl, fun k hk => (hmem k).1 hk⟩
    · obtain ⟨hdead, hnone⟩ := (Nat.add_eq_one_iff.1 hone).resolve_left fun h => hdead.ne' h.1
      rw [Finset.card_eq_zero, Finset.filter_eq_empty_iff] at hnone
      exact .inl ⟨hdead, fun k hk => hnone (Finset.mem_range.2 hk)⟩
  · refine Multiset.mem_range.1 ?_
    rw [← h.partition]
    exact Multiset.mem_add.2 (.inl (Multiset.mem_coe.2 hs))
  · refine Multiset.mem_range.1 ?_
    rw [← h.partition, Multiset.mem_add, spawned, Multiset.mem_sum]
    exact .inr ⟨i, Finset.mem_range.2 hi, Multiset.mem_coe.2 (Option.mem_toList.2 hs)⟩

/-- There are no more dead spawners than spawners, and where there are fewer monsters than spawners, there is
    one. -/
theorem Populated.dead_length (h : Populated m) : m.dead.length ≤ m.spawners.length ∧
    m.spawners.length ≤ m.dead.length + m.monsterCount := by
  have hcard := congrArg Multiset.card h.partition
  have hle := card_spawned_le (m := m)
  rw [Multiset.card_add, Multiset.coe_card, Multiset.card_range] at hcard
  omega

/-! ### Monsters that go -/

theorem Populated.withoutMonster (h : Populated m) {i : ℕ} (hi : i < m.monsterCount)
    (players : ℕ → MapPlayer) : Populated (m.withoutMonster i players) := by
  refine ⟨?_, h.positive, (Nat.sub_le ..).trans h.room⟩
  change ((m.dead ++ (m.monsters i).spawnerIndex.toList : List ℕ) : Multiset ℕ) + _ =
    Multiset.range m.spawners.length
  rw [← h.partition, ← spawned_withoutMonster hi players, ← Multiset.coe_add, add_assoc]
  exact congrArg (_ + ·) (add_comm ..)

theorem mapKillMonster_populated (h : Placed env m) (hp : Populated m) (alloc : Bool) (oid : UInt32) :
    Exec.Ensures (mapKillMonster env alloc m oid) Populated := by
  by_cases hmonster : ∃ i j, m.placeOf env oid = some ⟨.monster, i, j⟩
  · obtain ⟨i, j, hi⟩ := hmonster
    obtain ⟨rfl, hlt, -⟩ := slot_monster_eq_some.1 ((h.linked ..).1 hi)
    refine (mapKillMonster_regular h alloc hi).mono fun m' hm' => ?_
    obtain ⟨-, -, list, players, -, rfl⟩ := hm'
    exact (hp.withoutMonster hlt players).of_spawning rfl le_rfl
  · refine (getObject_spec h.tracks oid).bind fun object hobject => ?_
    split
    · rename_i ht
      refine absurd ⟨object.index, object.index2, hobject.2.trans ?_⟩ hmonster
      rw [MapObject.place, ht]
    · refine .andThen fun m₁ hm₁ => .pure ?_
      obtain ⟨list, -, hm₁⟩ := Exec.bind_eq_ok.1 hm₁
      cases hm₁
      exact hp.of_spawning rfl le_rfl

theorem removeDropper_populated (h : Placed env m) (hp : Populated m) (alloc : Bool) (oid : UInt32) :
    Exec.Ensures (m.removeDropper env alloc oid) Populated := by
  refine .andThen fun object _ => ?_
  split
  · exact .pure hp
  · exact mapKillMonster_populated h hp alloc oid

/-! ### What is hit -/

theorem die_populated {env : MapEnv} (h : Placed env.toEnv m) (hp : Populated m) (o : Outcomes)
    (player : PlayerRef) (place : MonsterPlace) :
    Exec.Ensures (m.die env o player place) Populated := by
  refine .andThen fun monster _ => (releaseControl_controlOnly place).bind fun m₁ hm₁ => ?_
  have h₁ := h.of_things hm₁.things
  have hp₁ := hp.of_steady hm₁.steady
  split
  · exact mapKillMonster_populated h₁ hp₁ _ _
  · refine .andThen fun drops _ => (mapDropBatchFromMapObject_spec h₁ _ player _ drops).bind fun x hx => ?_
    obtain ⟨ok, m₂⟩ := x
    have h₂ : Placed env.toEnv m₂ ∧ m₂.control = m₁.control := by
      rcases hx with hdrops | ⟨-, hstarted⟩
      · exact ⟨hdrops.placed, hdrops.control⟩
      · exact ⟨hstarted.placed, hstarted.control⟩
    have hp₂ := hp₁.of_control h₂.2
    dsimp only
    split
    · exact mapKillMonster_populated h₂.1 hp₂ _ _
    · exact .pure hp₂

/-- The hit points of a monster do not matter. -/
theorem Populated.writeHp (h : Populated m) (place : MonsterPlace) (hp : Int32) :
    Exec.Ensures (m.writeHp place hp) Populated := by
  refine (writeHp_spec place hp).mono fun m' hm' => ?_
  obtain ⟨monsters, boss, rfl, hother, hplace⟩ := hm'
  refine h.of_spawning ?_ le_rfl
  have hspawner (i : ℕ) : (monsters i).spawnerIndex = (m.monsters i).spawnerIndex := by
    by_cases hi : MonsterPlace.regular i = place
    · subst hi
      exact (congrArg MapMonster.spawnerIndex hplace :)
    · exact (congrArg MapMonster.spawnerIndex (hother _ hi) :)
  exact congrArg (fun f => (m.spawners, m.dead, m.monsterCount, f)) (funext hspawner)

theorem hurt_populated {env : MapEnv} (h : Settled env.toEnv m) (hpop : Populated m) (o : Outcomes)
    (player : PlayerRef) {place : MonsterPlace} (hon : m.OnMap place) (hhp : 0 < (m.monsterIn place).hp)
    (hp : Int32) (id : UInt32) : Exec.Ensures (do
      let m ← m.writeHp place hp
      let stats ← Exec.deref (env.monsterHp id)
      if stats = 0 then Except.error Fault.divisionByZero
      let _ ← m.getPlayer player
      if hp = 0 then
        let m ← m.die env o player place
        let killed ← m.readPlace place
        return (some killed.id, m)
      else return (none, m)) fun x => Populated x.2 := by
  refine ((h.writeHp hon hhp hp).and (hpop.writeHp place hp)).bind fun m₁ hm₁ => .andThen fun stats _ => ?_
  obtain ⟨⟨h₁, -⟩, hp₁⟩ := hm₁
  dsimp only
  by_cases hstats : stats = 0
  · rw [if_pos hstats]
    exact .bind .error fun _ (h : False) => h.elim
  · rw [if_neg hstats]
    refine .andThen fun _ _ => ?_
    split
    · exact (die_populated h₁.placed hp₁ o player place).bind fun m₂ hp₂ => .andThen fun killed _ => .pure hp₂
    · exact .pure hp₁

theorem mapDamageMonsterBy_populated {env : MapEnv} (h : Settled env.toEnv m) (hp : Populated m)
    (o : Outcomes) (player : PlayerRef) (oid : UInt32) (damage : List Int32) :
    Exec.Ensures (mapDamageMonsterBy env o m player oid damage) fun x => Populated x.2 := by
  rw [mapDamageMonsterBy]
  split
  · exact .pure hp
  · rename_i object hobject
    split
    · exact .pure hp
    · rename_i ht
      have ht' : object.type = .monster ∨ object.type = .boss := by
        by_contra hne
        exact ht (not_or.1 hne)
      obtain ⟨hon, hoid⟩ := h.placed.monsterPlace hobject ht'
      refine (readPlace_spec _).bind fun monster hmonster => ?_
      subst hmonster
      split
      · rename_i hhp
        have hrest (m₁ : Map) (hm₁ : ControlOnly m m₁) := by
          have hbare := monsterIn_of_things hm₁.things (Map.monsterPlace object)
          exact hurt_populated (h.of_controlOnly hm₁) (hp.of_steady hm₁.steady) o player
            (onMap_of_things hm₁.things hon) (hhp.trans_eq (congrArg MapMonster.hp hbare).symm)
            (hit (m.monsterIn (Map.monsterPlace object)).hp damage)
            (m.monsterIn (Map.monsterPlace object)).id
        split
        · exact (switchControl_controlOnly _ player).bind hrest
        · exact hrest m (.refl m)
      · exact .pure hp

theorem killAllLoop_populated {env : MapEnv} (o : ℕ → Outcomes) (player : PlayerRef) (n i : ℕ)
    (ids : List UInt32) (h : Settled env.toEnv m) (hp : Populated m) :
    Exec.Ensures (m.killAllLoop env o player n i ids) fun x => Populated x.2 := by
  induction n generalizing i ids m with
  | zero => exact .pure hp
  | succ n ih =>
    rw [killAllLoop]
    split
    · refine .andThen fun monster _ => ?_
      split
      · refine ((mapDamageMonsterBy_spec h _ player _ _).and
          (mapDamageMonsterBy_populated h hp _ player _ _)).bind fun x hx => ?_
        obtain ⟨id, m₁⟩ := x
        exact ih _ _ hx.1 hx.2
      · exact ih _ _ h hp
    · exact .pure hp

theorem mapKillAllBy_populated {env : MapEnv} (h : Settled env.toEnv m) (hp : Populated m) (alloc : Bool)
    (o : ℕ → Outcomes) (player : PlayerRef) :
    Exec.Ensures (mapKillAllBy env alloc o m player) fun x => Populated x.2 := by
  rw [mapKillAllBy]
  split
  · exact .pure hp
  · exact (killAllLoop_populated o player m.monsterCount 0 [] h hp).bind fun x hx => .pure hx

/-! ### Timers -/

theorem finishDropping_room_populated (h : Settled env m) (hp : Populated m) (o : Outcomes) {id : ℕ}
    {batch : DroppingBatch} (hid : m.dropping id = some batch)
    (hcurrent : batch.drops.length ≤ batch.current) {j : ℕ} {d : Drop} (hd : batch.drops[j]? = some d) :
    Exec.Ensures (do
      let m ← m.promote env (fun n => o.alloc (n + 4)) batch
      let m ← m.removeDropper env (o.alloc 8) batch.dropperOid
      let m ← m.pickUpOwned env o.picksUp (fun n => o.alloc (n + 9)) batch.owner d.oid
      return m.setDropping id none) Populated := by
  refine (promote_spec h.placed h.listed _ hid hcurrent).bind fun m₁ h₁ => ?_
  have hp₁ := hp.of_control h₁.control
  refine ((removeDropper_promoted h hid h₁ _).and
    (removeDropper_populated h₁.placed hp₁ _ _)).bind fun m₂ hm₂ => ?_
  obtain ⟨⟨h₂, hplace⟩, hp₂⟩ := hm₂
  refine (pickUpOwned_spec h₂.placed _ _ _ (hplace j d hd) (.inl rfl)).bind fun m₃ h₃ => .pure ?_
  exact (hp₂.of_control h₃.control).of_spawning rfl le_rfl

theorem finishDropping_populated (h : Settled env m) (hp : Populated m) (o : Outcomes) {id : ℕ}
    {batch : DroppingBatch} (hid : m.dropping id = some batch)
    (hcurrent : batch.drops.length ≤ batch.current) {j : ℕ} {d : Drop} (hd : batch.drops[j]? = some d) :
    Exec.Ensures (m.finishDropping env o id batch d.oid) Populated := by
  rw [finishDropping]
  split
  · exact .pure hp
  · rename_i m₁ hgrow
    obtain ⟨capacity, rfl⟩ := growBatches_eq hgrow
    have h₁ : Settled env { m with dropBatchCapacity := capacity } :=
      h.of_dropsOnly ⟨h.placed.setCapacity capacity, rfl, rfl⟩
    have hp₁ : Populated { m with dropBatchCapacity := capacity } := hp.of_control rfl
    split
    · exact finishDropping_room_populated h₁ hp₁ o hid hcurrent hd
    · rename_i r _
      refine ((growDrops_spec (o.alloc 3) r).and (growDrops_dropsOnly h₁.placed _ r)).bind
        fun grown hgrown => ?_
      rcases grown with - | m₂
      · exact .pure hp₁
      · have hdrops := hgrown.2 m₂ rfl
        obtain ⟨p, -, rfl⟩ := hgrown.1 m₂ rfl
        exact finishDropping_room_populated (h₁.of_dropsOnly hdrops) (hp₁.of_control hdrops.control) o hid
          hcurrent hd

theorem onNextDrop_populated (h : Settled env m) (hp : Populated m) (o : Outcomes) (id : ℕ) :
    Exec.Ensures (onNextDrop env o m id) Populated := by
  refine .bind (.deref fun batch h => h) fun batch hbatch => .bind (.deref fun drop h => h)
    fun drop hdrop => ?_
  refine (allocateObject_spec h.placed.tracks (o.alloc 0) (o.alloc 1) .dropping _ _).bind fun x hx => ?_
  obtain ⟨oid, m₁⟩ := x
  obtain ⟨hnone, -, list, rfl, htracked, hplace⟩ := hx
  have hlt := (List.getElem?_eq_some_iff.1 hdrop).1
  have hnext : (batch.drops.set batch.current { drop with oid := oid })[batch.current]? =
      some { drop with oid := oid } := List.getElem?_set_self hlt
  have hset := h.nextDropped hbatch hdrop hnone htracked hplace
  have hpset : Populated ({ m with objectList := list }.setDropping id (some { batch with
      drops := batch.drops.set batch.current { drop with oid := oid }
      current := batch.current + 1 })) := hp.of_control rfl
  have hoid : placeOf { m with objectList := list } env oid =
      some ⟨.dropping, batch.index, batch.current⟩ := by
    rw [hplace, Function.update_self]
  dsimp only
  split
  · refine (pickUpOwned_spec hset.placed _ _ _ hoid (.inr rfl)).bind fun m₂ h₂ => ?_
    rcases htimer : m₂.addTimer (o.alloc 2) (.nextDrop id) with ⟨t, m₃⟩
    obtain ⟨timers, next, rfl⟩ := addTimer_eq htimer
    exact .andThen fun b _ => .pure ((hpset.of_control h₂.control).of_spawning rfl le_rfl)
  · rename_i hlast
    exact finishDropping_populated (d := { drop with oid := oid }) hset hpset o (Function.update_self ..)
      (not_lt.1 hlast) hnext

theorem onExclusiveDropTimeExpired_populated (hp : Populated m) (alloc : Bool) :
    Exec.Ensures (onExclusiveDropTimeExpired alloc m) Populated := by
  refine .andThen fun id _ => ?_
  rcases htimer : m.addTimer alloc .dropTimeExpired with ⟨t, m₁⟩
  obtain ⟨timers, next, rfl⟩ := addTimer_eq htimer
  exact .andThen fun b _ => .pure (hp.of_spawning rfl le_rfl)

theorem timer_populated (h : Settled env m) (hp : Populated m) (o : Outcomes) (task : MapTimer) :
    Exec.Ensures (task.run env o m) Populated := by
  cases task with
  | nextDrop id => exact onNextDrop_populated h hp o id
  | exclusiveDropTimeExpired => exact onExclusiveDropTimeExpired_populated hp _
  | dropTimeExpired => exact (onDropTimeExpired_spec h _).mono fun _ hm' => hp.of_control hm'.2

/-! ### Monsters that come -/

section Monsters

variable {env : MapEnv}

/-- A monster has been put onto the map, by a spawner or not. -/
theorem Added.spawning_eq {id : UInt32} {spawnerIndex : Option ℕ} {controller : Option PlayerRef}
    (h : Added env id spawnerIndex controller m m') :
    m'.spawned = m.spawned + (spawnerIndex.toList : Multiset ℕ) ∧ m'.dead = m.dead ∧
      m'.spawners = m.spawners ∧ m'.monsterCapacity = m.monsterCapacity ∧
        m'.monsterCount ≤ m'.monsterCapacity := by
  have hroom := h.room
  obtain ⟨list, oid, hp, players, index, -, -, -, rfl⟩ := h.eq
  exact ⟨spawned_withMonster ⟨oid, id, hp, spawnerIndex, controller, index⟩ players, rfl, rfl, rfl, hroom⟩

theorem mapSpawn_populated (h : Whole env.toEnv m) (hp : Populated m) (grow o : Outcomes) (id : UInt32) :
    Exec.Ensures (mapSpawn env grow o m id) Populated := by
  rw [mapSpawn]
  split
  · exact .pure hp
  · have hrest (x : Bool × Map) (hx : Steady m x.2) : Exec.Ensures
        (if ¬x.1 then return x.2
        else do
          let node ← Exec.deref (heapTop x.2.heap)
          let controller ← x.2.nodeController node
          x.2.addMonster env o id none (some controller)) Populated := by
      have hpx := hp.of_steady hx
      split
      · exact .pure hpx
      · refine .andThen fun node _ => .andThen fun controller _ =>
          (addMonster_spec (h.of_steady hx).settled.placed o id none _).mono fun m₂ hm₂ => ?_
        obtain ⟨hspawned, hdead, hspawners, hcapacity, hroom⟩ := hm₂.spawning_eq
        refine ⟨?_, hcapacity ▸ hpx.positive, hroom⟩
        rw [hspawned, hdead, hspawners, ← hpx.partition]
        exact congrArg (_ + ·) (add_zero _)
    dsimp only
    split
    · exact (growMonsters_steady grow).bind fun x hx => hrest x hx.1
    · exact hrest (true, m) (.refl m)

/-- The spawner that is chosen is dead no longer. -/
theorem respawnOne_populated (h : Whole env.toEnv m) (hp : Populated m) (o : Outcomes) (next : Option ℕ) :
    Exec.Ensures (m.respawnOne env o next) fun m' => Populated m' ∧ m'.spawners = m.spawners := by
  rw [respawnOne]
  split
  · exact .bind .error fun _ (h : False) => h.elim
  · refine .bind (.deref fun spawner h => h) fun spawner hspawner => .bind (.deref fun last h => h)
      fun last hlast => .andThen fun id _ => ?_
    have hrest (controller : Option PlayerRef) : Exec.Ensures (do
        let m' ← m.addMonster env o id (some spawner) controller
        return { m' with dead := (m'.dead.set (o.rand 0 % m.dead.length) last).dropLast })
        fun m' => Populated m' ∧ m'.spawners = m.spawners := by
      refine (addMonster_spec h.settled.placed o id _ controller).bind fun m₁ hm₁ => .pure ?_
      obtain ⟨hspawned, hdead, hspawners, hcapacity, hroom⟩ := hm₁.spawning_eq
      refine ⟨⟨?_, hcapacity ▸ hp.positive, hroom⟩, hspawners⟩
      change (((m₁.dead.set _ last).dropLast : List ℕ) : Multiset ℕ) + m₁.spawned =
        Multiset.range m₁.spawners.length
      rw [hspawned, hdead, hspawners, ← hp.partition, ← coe_replaced hspawner hlast, add_right_comm,
        add_assoc]
      rfl
    dsimp only
    split
    · exact hrest none
    · exact .andThen fun controller _ => hrest controller

/-- There is room for a monster when the array has been made larger, if it has been full. -/
theorem grown_populated (h : Whole env.toEnv m) (hp : Populated m) (grow : Outcomes) {m₁ : Map}
    (hgrow : (if m.monsterCount = m.monsterCapacity then m.growMonsters grow else pure (true, m)) =
      .ok (true, m₁)) : Whole env.toEnv m₁ ∧ Populated m₁ ∧ m₁.spawners = m.spawners ∧
        m₁.monsterCount = m.monsterCount ∧ m₁.monsterCount < m₁.monsterCapacity := by
  split at hgrow
  · rename_i hfull
    obtain ⟨hsteady, hroom⟩ := growMonsters_steady grow _ hgrow
    have hcount : m₁.monsterCount = m.monsterCount := congrArg (fun m => m.monsterCount) hsteady.things
    refine ⟨h.of_steady hsteady, hp.of_steady hsteady, congrArg (fun m => m.spawners) hsteady.things,
      hcount, ?_⟩
    have hroom : m.monsterCapacity * 2 ≤ m₁.monsterCapacity := hroom rfl
    have hpositive := hp.positive
    omega
  · rename_i hfull
    cases hgrow
    exact ⟨h, hp, rfl, rfl, hp.room.lt_of_ne hfull⟩

theorem respawnLoop_populated (h : Whole env.toEnv m) (hp : Populated m) (grow o : ℕ → Outcomes)
    (next : Option ℕ) (maxSpawnCount n count : ℕ) :
    Exec.Ensures (m.respawnLoop env grow o next maxSpawnCount n count) fun x => Populated x.2.2 := by
  induction n generalizing count m with
  | zero => exact .pure hp
  | succ n ih =>
    rw [respawnLoop]
    split
    · have hrest (x : Bool × Map) (hx : Steady m x.2) : Exec.Ensures
          (if ¬x.1 then return (false, count, x.2)
          else do
            let m ← x.2.respawnOne env (o count) next
            m.respawnLoop env grow o next maxSpawnCount n (count + 1)) fun x => Populated x.2.2 := by
        have hx' := h.of_steady hx
        have hpx := hp.of_steady hx
        split
        · exact .pure hpx
        · exact ((respawnOne_whole hx' (o count) next).and (respawnOne_populated hx' hpx _ _)).bind
            fun m₂ h₂ => ih h₂.1 h₂.2.1 (count + 1)
      dsimp only
      split
      · exact (growMonsters_steady (grow count)).bind fun x hx => hrest x hx.1
      · exact hrest (true, m) (.refl m)
    · exact .pure hp

theorem onRespawn_populated (h : Whole env.toEnv m) (hp : Populated m) (grow o : ℕ → Outcomes) :
    Exec.Ensures (onRespawn env grow o m) Populated := by
  refine (respawnLoop_populated h hp grow o _ _ _ 0).bind fun x h₁ => ?_
  obtain ⟨ok, count, m₁⟩ := x
  dsimp only
  split
  · exact .andThen fun heap _ => .pure (Populated.of_spawning h₁ rfl le_rfl)
  · exact .pure h₁

/-- Every round finds a dead spawner: there are fewer monsters than spawners. -/
theorem roundsWithin (h : Whole env.toEnv m) (hp : Populated m) (grow o : ℕ → Outcomes) (next : Option ℕ)
    {maxSpawnCount : ℕ} (hmax : maxSpawnCount ≤ m.spawners.length) (n count : ℕ) :
    m.RoundsWithin env grow o next maxSpawnCount n count := by
  induction n generalizing count m with
  | zero => trivial
  | succ n ih =>
    intro hlt m₁ hgrow
    obtain ⟨h₁, hp₁, hspawners, hcount, hroom⟩ := grown_populated h hp (grow count) hgrow
    obtain ⟨hle, hdead⟩ := hp₁.dead_length
    rw [← hspawners] at hmax
    refine ⟨⟨by omega, hle, hroom⟩, fun m₂ hm₂ => ?_⟩
    obtain ⟨hp₂, hspawners₂⟩ := respawnOne_populated h₁ hp₁ (o count) next m₂ hm₂
    exact ih (respawnOne_whole h₁ (o count) next m₂ hm₂) hp₂ (hspawners₂ ▸ hmax) (count + 1)

theorem Populated.respawnsWithin (hp : Populated m) (h : Whole env.toEnv m) (grow o : ℕ → Outcomes) :
    m.RespawnsWithin env grow o :=
  roundsWithin h hp grow o _ (env.maxSpawnCount_le ..) _ 0

theorem respawnBoss_populated (hp : Populated m) (o : Outcomes) :
    Exec.Ensures (respawnBoss env o m) Populated := by
  rw [respawnBoss]
  split
  · refine (allocateObject_eq (o.alloc 0) (o.alloc 1) .boss 0 0).bind fun x hx => ?_
    obtain ⟨oid, m₁⟩ := x
    obtain ⟨list, rfl⟩ := hx
    have hrest (controller : Option PlayerRef) : Exec.Ensures (do
        let hp ← Exec.deref (env.monsterHp m.boss.id)
        return { m with
          objectList := list
          boss := { m.boss with oid := oid, hp := hp, controller := controller } }) Populated :=
      .andThen fun hp' _ => .pure (hp.of_spawning rfl le_rfl)
    dsimp only
    split
    · exact hrest none
    · exact .andThen fun controller _ => hrest controller
  · exact .pure hp

/-! ### Making a map -/

theorem createNpcs_spawning (alloc : ℕ → Bool) (n : ℕ) (env : Env) :
    Exec.Ensures (m.createNpcs env alloc n) fun m' =>
      m'.spawning = m.spawning ∧ m'.monsterCapacity = m.monsterCapacity := by
  refine .foldlM ⟨rfl, rfl⟩ fun i _ m' hm' => (allocateObject_eq _ _ .npc _ 0).bind fun x hx => ?_
  obtain ⟨oid, m₁⟩ := x
  obtain ⟨list, rfl⟩ := hx
  exact .pure hm'

/-- The monsters of the spawners come one after the other. -/
theorem createMonsters_from (h : Whole env.toEnv m) (alloc : ℕ → Bool) (ids : List UInt32) {n : ℕ}
    (hspawned : m.spawned = Multiset.range n) (hroom : m.monsterCount ≤ m.monsterCapacity) :
    Exec.Ensures ((ids.zipIdx n).foldlM (fun m (id, i) =>
      m.addMonster env (.ofAlloc fun j => alloc (2 * i + j)) id (some i) none) m) fun m' =>
        m'.spawned = Multiset.range (n + ids.length) ∧ m'.dead = m.dead ∧ m'.spawners = m.spawners ∧
          m'.monsterCapacity = m.monsterCapacity ∧ m'.monsterCount ≤ m'.monsterCapacity := by
  induction ids generalizing m n with
  | nil => exact .pure ⟨hspawned, rfl, rfl, rfl, hroom⟩
  | cons id ids ih =>
    rw [List.zipIdx_cons, List.foldlM_cons]
    refine ((h.addMonster _ id _ none).and (addMonster_spec h.settled.placed _ id _ none)).bind
      fun m₁ hm₁ => ?_
    obtain ⟨⟨h₁, -⟩, hadded⟩ := hm₁
    obtain ⟨hspawned₁, hdead, hspawners, hcapacity, hroom₁⟩ := hadded.spawning_eq
    refine (ih h₁ (n := n + 1) ?_ hroom₁).mono fun m₂ hm₂ => ?_
    · rw [hspawned₁, hspawned, Multiset.range_succ, ← Multiset.singleton_add, add_comm]
      rfl
    · obtain ⟨hspawned₂, hdead₂, hspawners₂, hcapacity₂, hroom₂⟩ := hm₂
      refine ⟨?_, hdead₂.trans hdead, hspawners₂.trans hspawners, hcapacity₂.trans hcapacity, hroom₂⟩
      rw [hspawned₂, List.length_cons, Nat.add_right_comm, Nat.add_assoc]

theorem createReactors_populated (hp : Populated m) (alloc : ℕ → Bool) (ids : List UInt32) (env : Env) :
    Exec.Ensures (m.createReactors env alloc ids) Populated := by
  refine .foldlM hp fun a _ m' hm' => (allocateObject_eq _ _ .reactor _ 0).bind fun x hx => ?_
  obtain ⟨oid, m₁⟩ := x
  obtain ⟨list, rfl⟩ := hx
  exact .pure (hm'.of_spawning rfl le_rfl)

theorem createBoss_populated (hp : Populated m) (alloc : ℕ → Bool) (boss : Option UInt32) :
    Exec.Ensures (m.createBoss env alloc boss) Populated := by
  rcases boss with - | id
  · exact .pure hp
  · refine (allocateObject_eq (alloc 0) (alloc 1) .boss 0 0).bind fun x hx => ?_
    obtain ⟨oid, m₁⟩ := x
    obtain ⟨list, rfl⟩ := hx
    exact .andThen fun hp' _ => .pure (hp.of_spawning rfl le_rfl)

theorem mapCreate_populated (env : MapEnv) (alloc : ℕ → ℕ → Bool) (npcs : ℕ)
    (spawners reactors : List UInt32) (boss : Option UInt32) :
    Exec.Ensures (mapCreate env alloc npcs spawners reactors boss) Populated := by
  refine ((createNpcs_young (young_empty env.toEnv spawners) rfl (alloc 0) npcs).and
    (createNpcs_spawning (alloc 0) npcs env.toEnv)).bind fun m₁ hm₁ => ?_
  obtain ⟨⟨h₁, -⟩, hspawning, hcapacity⟩ := hm₁
  have hspawners : m₁.spawners = spawners := congrArg Prod.fst hspawning
  have hdead : m₁.dead = [] := congrArg (fun s => s.2.1) hspawning
  have hcount : m₁.monsterCount = 0 := congrArg (fun s => s.2.2.1) hspawning
  have hcapacity : m₁.monsterCapacity = max spawners.length 1 := hcapacity
  refine (createMonsters_from h₁.whole (alloc 1) m₁.spawners (n := 0) ?_ ?_).bind fun m₂ hm₂ => ?_
  · exact spawned_of_spawning hspawning
  · rw [hcount]
    exact Nat.zero_le _
  · obtain ⟨hspawned, hdead₂, hspawners₂, hcapacity₂, hroom⟩ := hm₂
    have hp₂ : Populated m₂ := by
      refine ⟨?_, ?_, hroom⟩
      · rw [hdead₂, hdead, hspawned, hspawners₂, zero_add]
        exact zero_add _
      · rw [hcapacity₂, hcapacity]
        exact lt_max_of_lt_right Nat.one_pos
    exact (createReactors_populated hp₂ (alloc 2) reactors env.toEnv).bind fun m₃ hp₃ =>
      createBoss_populated hp₃ (alloc 3) boss

/-! ### Whatever happens -/

theorem step_populated (h : Whole env.toEnv m) (hp : Populated m) (a : MapAction) :
    Exec.Ensures (a.step env m) Populated := by
  have hplaced := h.settled.placed
  cases a with
  | join o client charId => exact (mapJoin_steady o client charId).mono fun _ => hp.of_steady
  | leave client =>
    rw [MapAction.step]
    split
    · exact .pure hp
    · exact (mapLeave_steady _).bind fun m₁ h₁ => .pure (hp.of_steady (h₁.trans ⟨rfl, rfl, le_rfl⟩))
  | spawn grow o id => exact mapSpawn_populated h hp grow o id
  | damage o client oid hits =>
    exact .andThen fun player _ =>
      (mapDamageMonsterBy_populated h.settled hp o player oid hits).bind fun x hx => .pure hx
  | killAll alloc o client =>
    exact .andThen fun player _ =>
      (mapKillAllBy_populated h.settled hp alloc o player).bind fun x hx => .pure hx
  | dropFromReactor o client oid =>
    refine .andThen fun player _ => (mapDropBatchFromReactor_spec hplaced o player oid).bind fun x hx => ?_
    obtain ⟨ok, m₁⟩ := x
    refine .pure (hp.of_control ?_)
    rcases hx with hdrops | ⟨-, hstarted⟩
    · exact hdrops.control
    · exact hstarted.control
  | addPlayerDrop o client item =>
    exact .andThen fun player _ => (mapAddPlayerDrop_spec hplaced o player item).mono fun m' hm' =>
      hp.of_control hm'.control
  | removeDrop alloc oid =>
    rw [MapAction.step]
    split
    · rename_i hdrop
      obtain ⟨p, hplace, ht⟩ := placeOf_of_hasDrop hdrop
      exact (mapRemoveDrop_spec hplaced alloc hplace ht).mono fun m' hm' => hp.of_control hm'.control
    · exact .pure hp
  | timer o t =>
    rw [MapAction.step]
    split
    · exact .pure hp
    · have hsteady : Steady m { m with timers := Function.update m.timers t none } := ⟨rfl, rfl, le_rfl⟩
      exact timer_populated (h.of_steady hsteady).settled (hp.of_steady hsteady) o _
  | respawn grow o => exact onRespawn_populated h hp grow o
  | respawnBoss o => exact respawnBoss_populated hp o

end Monsters

/-! ## Every spawner is accounted for -/

/-- In every run of a map, from when it has been made, every spawner is dead or has its monster, and
    `on_respawn` finds a dead one and room for its monster in every round. -/
theorem spawners_accounted {env : MapEnv} {alloc : ℕ → ℕ → Bool} {npcs : ℕ} {spawners reactors : List UInt32}
    {boss : Option UInt32} {m₀ m : Map} (hcreate : mapCreate env alloc npcs spawners reactors boss = .ok m₀)
    (hrun : Machine.Run (MapAction.step env) (fun _ _ => True) m₀ m) :
    m.Accounted ∧ ∀ grow o, m.RespawnsWithin env grow o := by
  obtain ⟨h, hp⟩ := hrun.invariant (I := fun m => Whole env.toEnv m ∧ Populated m)
    ⟨mapCreate_whole env alloc npcs spawners reactors boss m₀ hcreate,
      mapCreate_populated env alloc npcs spawners reactors boss m₀ hcreate⟩
    fun a _ _ h _ hstep => ⟨step_whole h.1 a _ hstep, step_populated h.1 h.2 a _ hstep⟩
  exact ⟨hp.each_once, fun grow o => hp.respawnsWithin h grow o⟩

/-- Monsters have ten hit points, and drop nothing; up to six players bring more of them. -/
def bareEnv : MapEnv where
  toEnv := .ofLists [] [] [] []
  monsterHp _ := some 10
  dropInfo _ := none
  reactorDropInfo _ := none
  maxSpawnCount players spawners := ((14 + min 6 players) * spawners + 19) / 20
  maxSpawnCount_le players spawners := by
    have h : (14 + min 6 players) * spawners ≤ 20 * spawners := Nat.mul_le_mul_right _ (by omega)
    omega

/-- A player joins, and kills the monsters of both spawners; in between one comes that no spawner has spawned.
    Then one of the two comes back. -/
def respawnActions : List MapAction :=
  let o := Outcomes.ofAlloc fun _ => true
  [.join o 0 1, .damage o 0 0xFFFF0000 [10], .spawn o o 9, .damage o 0 0xFFFF0001 [10],
    .respawn (fun _ => o) fun _ => o]

/-- Of the two spawners one is dead, and the other one has its monster again. -/
theorem spawners_accounted_two : ∃ m₀ m, mapCreate bareEnv (fun _ _ => true) 0 [7, 8] [] none = .ok m₀ ∧
    Machine.Run (MapAction.step bareEnv) (fun _ _ => True) m₀ m ∧ m.dead = [1] ∧ m.monsterCount = 2 ∧
      (m.monsters 1).spawnerIndex = some 0 ∧ m.Accounted ∧ ∀ grow o, m.RespawnsWithin bareEnv grow o := by
  have hreturns : (mapCreate bareEnv (fun _ _ => true) 0 [7, 8] [] none).Returns fun m₀ =>
      (respawnActions.foldlM (fun m a => MapAction.step bareEnv a m) m₀).Returns fun m =>
        m.dead = [1] ∧ m.monsterCount = 2 ∧ (m.monsters 1).spawnerIndex = some 0 := by
    decide +kernel
  obtain ⟨m₀, hcreate, hreturns⟩ := Exec.returns_iff.1 hreturns
  obtain ⟨m, hm, hdead, hcount, hspawner⟩ := Exec.returns_iff.1 hreturns
  have hrun : Machine.Run (MapAction.step bareEnv) (fun _ _ => True) m₀ m :=
    .of_foldlM (fun _ _ _ => trivial) hm
  exact ⟨m₀, m, hcreate, hrun, hdead, hcount, hspawner, spawners_accounted hcreate hrun⟩

end Map

end Syrup
