import Syrup.Map.Damage.Killer
import Syrup.Map.Exchange.Run

/-!
# Whom a killer of all is credited for

The loop of `map_kill_all_by` kills the monsters of the array, and puts down the id that each call of
`map_damage_monster_by` returns. If a monster goes at once, this is the id of the last monster of the
array, which is in its place then and is killed next, if it is alive. So the ids are those of the monsters
that have been alive, but that the ids of those that go at once are exchanged for those of the ones that
are last then (`exchanges`, `killAllLoop_ids`).
-/

namespace Syrup

namespace Map

/-- The ids of the monsters of the array, from a place on, that are alive. -/
def aliveFrom (m : Map) (i : ℕ) : Multiset UInt32 :=
  ∑ k ∈ Finset.Ico i m.monsterCount, if 0 < (m.monsters k).hp then {(m.monsters k).id} else 0

/-- The boss is on the map and alive. -/
def BossAlive (m : Map) : Prop := m.boss.oid ≠ 0xFFFFFFFF ∧ 0 < m.boss.hp

instance (m : Map) : Decidable m.BossAlive := inferInstanceAs (Decidable (_ ∧ _))

/-- The ids of all monsters of the map that are alive. -/
def alive (m : Map) : Multiset UInt32 := m.aliveFrom 0 + if m.BossAlive then {m.boss.id} else 0

/-- For each round of the loop of `map_kill_all_by` in which a monster goes at once: its id, and the one
    of the last monster of the array. -/
def exchanges (env : MapEnv) (o : ℕ → Outcomes) (player : PlayerRef) :
    ℕ → ℕ → Map → Exec (List (UInt32 × UInt32))
  | 0, _, _ => return []
  | n + 1, i, m =>
    if i < m.monsterCount then
      let monster := m.monsters i
      if monster.hp > 0 then do
        let (_, m') ← mapDamageMonsterBy env (o n) m player monster.oid [monster.hp]
        let i := if objectListGet env.toEnv m'.objectList monster.oid = none then i else i + 1
        let rest ← exchanges env o player n i m'
        if GoesAtOnce env (o n) monster.id then
          return (monster.id, (m.monsters (m.monsterCount - 1)).id) :: rest
        else return rest
      else exchanges env o player n (i + 1) m
    else return []

variable {env : MapEnv} {m m' : Map} {o : Outcomes} {player : PlayerRef} {i : ℕ} {killed : Option UInt32}

/-! ## A round -/

theorem hit_self (hp : Int32) (hpos : 0 < hp) : hit hp [hp] = 0 := by
  have hzero : hp - hp = 0 := Int32.sub_self hp
  rw [hit, List.foldl_cons, List.foldl_nil, if_pos hpos, hzero]
  rfl

theorem aliveFrom_of_le (h : m.monsterCount ≤ i) : m.aliveFrom i = 0 := by
  rw [aliveFrom, Finset.Ico_eq_empty (not_lt.2 h), Finset.sum_empty]

theorem aliveFrom_eq (h : i < m.monsterCount) : m.aliveFrom i =
    (if 0 < (m.monsters i).hp then {(m.monsters i).id} else 0) + m.aliveFrom (i + 1) :=
  Finset.sum_eq_sum_Ico_succ_bot h _

/-- Who is alive does not depend on who controls the monsters. -/
theorem vital_eq {monster monster' : MapMonster} (h : monster'.bare = monster.bare) :
    (if 0 < monster'.hp then {monster'.id} else 0 : Multiset UInt32) =
      if 0 < monster.hp then {monster.id} else 0 := by
  have hhp : monster'.hp = monster.hp := (congrArg MapMonster.hp h :)
  have hid : monster'.id = monster.id := (congrArg MapMonster.id h :)
  rw [hhp, hid]

theorem Slain.crowd_stays (h : Slain env o m (.regular i) killed m')
    (hstays : ¬GoesAtOnce env o (m.monsters i).id) :
    m'.crowd = m.crowd.set (.regular i) { (m.monsters i).bare with hp := 0 } := by
  have hcrowd := h.crowd
  rw [Crowd.killed_eq] at hcrowd
  exact hcrowd.trans (if_neg hstays)

theorem Slain.crowd_goes (h : Slain env o m (.regular i) killed m')
    (hgoes : GoesAtOnce env o (m.monsters i).id) :
    m'.crowd = (m.crowd.set (.regular i) { (m.monsters i).bare with hp := 0 }).without (.regular i) := by
  have hcrowd := h.crowd
  rw [Crowd.killed_eq] at hcrowd
  exact hcrowd.trans (if_pos hgoes)

theorem Slain.count_stays (h : Slain env o m (.regular i) killed m')
    (hstays : ¬GoesAtOnce env o (m.monsters i).id) : m'.monsterCount = m.monsterCount :=
  congrArg Crowd.count (h.crowd_stays hstays)

theorem Slain.count_goes (h : Slain env o m (.regular i) killed m')
    (hgoes : GoesAtOnce env o (m.monsters i).id) : m'.monsterCount = m.monsterCount - 1 :=
  congrArg Crowd.count (h.crowd_goes hgoes)

/-- A monster that stays is dead. -/
theorem Slain.aliveFrom_stays (h : Slain env o m (.regular i) killed m') (hi : i < m.monsterCount)
    (hhp : 0 < (m.monsters i).hp) (hstays : ¬GoesAtOnce env o (m.monsters i).id) :
    m.aliveFrom i = {(m.monsters i).id} + m'.aliveFrom (i + 1) := by
  rw [aliveFrom_eq hi, if_pos hhp, aliveFrom, aliveFrom, h.count_stays hstays]
  refine congrArg ({(m.monsters i).id} + ·) (Finset.sum_congr rfl fun k hk => (vital_eq ?_).symm)
  have hne : k ≠ i := Nat.ne_of_gt (Finset.mem_Ico.1 hk).1
  have hmonsters := congrFun (congrArg Crowd.monsters (h.crowd_stays hstays)) k
  exact hmonsters.trans (Function.update_of_ne hne ..)

/-- The last monster is in the place of one that goes. -/
theorem Slain.aliveFrom_goes (h : Slain env o m (.regular i) killed m') (hi : i < m.monsterCount)
    (hhp : 0 < (m.monsters i).hp) (hgoes : GoesAtOnce env o (m.monsters i).id) :
    m.aliveFrom i = {(m.monsters i).id} + m'.aliveFrom i := by
  have hcount := h.count_goes hgoes
  have hmonsters := congrFun (congrArg Crowd.monsters (h.crowd_goes hgoes))
  rw [aliveFrom_eq hi, if_pos hhp]
  congr 1
  obtain ⟨last, hlast⟩ : ∃ last, m.monsterCount = last + 1 := ⟨m.monsterCount - 1, by omega⟩
  rw [hlast] at hcount
  have hcount : m'.monsterCount = last := hcount
  rcases Nat.lt_or_ge i last with hlt | hge
  · rw [aliveFrom_eq (m := m') (hcount ▸ hlt), aliveFrom, aliveFrom, hcount, hlast,
      Finset.sum_Ico_succ_top (Nat.succ_le_of_lt hlt), add_comm]
    congr 1
    · -- The last monster has come to the place of the one that has gone.
      refine (vital_eq ?_).symm
      refine (hmonsters i).trans ((Function.update_self ..).trans ?_)
      refine (Function.update_of_ne ?_ ..).trans ?_
      · change m.monsterCount - 1 ≠ i
        omega
      · change (m.monsters (m.monsterCount - 1)).bare = _
        rw [hlast, Nat.add_sub_cancel]
    · refine Finset.sum_congr rfl fun k hk => (vital_eq ?_).symm
      have hne : k ≠ i := Nat.ne_of_gt (Finset.mem_Ico.1 hk).1
      exact (hmonsters k).trans ((Function.update_of_ne hne ..).trans (Function.update_of_ne hne ..))
  · rw [aliveFrom_of_le (m := m) (by omega), aliveFrom_of_le (m := m') (by omega)]

/-- A monster that stays is found. -/
theorem Slain.found (h : Slain env o m (.regular i) killed m') (hplaced : Placed env.toEnv m')
    (hi : i < m.monsterCount) (hstays : ¬GoesAtOnce env o (m.monsters i).id) :
    objectListGet env.toEnv m'.objectList (m.monsters i).oid ≠ none := by
  have hoid : (m'.monsters i).oid = (m.monsters i).oid := by
    have hmonsters := congrFun (congrArg Crowd.monsters (h.crowd_stays hstays)) i
    have hset := hmonsters.trans (Function.update_self ..)
    exact (congrArg MapMonster.oid hset :)
  have hon : m'.OnMap (.regular i) := hi.trans_eq (h.count_stays hstays).symm
  have hplace := hplaced.placeOf_monster hon
  intro hnone
  rw [placeOf, show (m'.monsterIn (.regular i)).oid = (m.monsters i).oid from hoid, hnone] at hplace
  cases hplace

/-- A monster that goes is not found any more. -/
theorem Slain.not_found (h : Slain env o m (.regular i) killed m')
    (hgoes : GoesAtOnce env o (m.monsters i).id) :
    objectListGet env.toEnv m'.objectList (m.monsters i).oid = none :=
  Option.map_eq_none_iff.1 (h.gone hgoes)

/-- The id that is returned. -/
theorem Slain.killed_eq (h : Slain env o m (.regular i) killed m') : killed = some
    (if GoesAtOnce env o (m.monsters i).id then (m.monsters (m.monsterCount - 1)).id
      else (m.monsters i).id) := by
  rw [h.read, killed_id h.crowd]
  by_cases hlast : m.monsterCount - 1 = i
  · subst hlast
    dsimp only
    rw [ite_self, ite_self]
  · dsimp only
    simp only [and_iff_left (show m.monsterCount - 1 ≠ i from hlast)]

/-! ## The loop -/

/-- An id is put down for another one. -/
theorem put_exchanged {ids ids' : List UInt32} {a b : UInt32} {l : List (UInt32 × UInt32)}
    {rest : Multiset UInt32} (h : (ids' : Multiset UInt32) + (l.map Prod.fst : List UInt32) =
      (ids ++ [b] : List UInt32) + rest + (l.map Prod.snd : List UInt32)) :
    (ids' : Multiset UInt32) + (((a, b) :: l).map Prod.fst : List UInt32) =
      ids + ({a} + rest) + (((a, b) :: l).map Prod.snd : List UInt32) := by
  rw [List.map_cons, List.map_cons, ← Multiset.cons_coe, ← Multiset.cons_coe, ← Multiset.singleton_add,
    ← Multiset.singleton_add, add_left_comm, h, ← Multiset.coe_add, Multiset.coe_singleton]
  abel

/-- The ids that are put down are those of the monsters that have been alive, up to the exchanges. -/
theorem killAllLoop_ids (o : ℕ → Outcomes) (player : PlayerRef) {n i : ℕ} {ids ids' : List UInt32}
    (h : Settled env.toEnv m) (hn : m.monsterCount ≤ n + i)
    (hrun : m.killAllLoop env o player n i ids = .ok (ids', m')) :
    ∃ l, m.exchanges env o player n i = .ok l ∧
      (ids' : Multiset UInt32) + (l.map Prod.fst : List UInt32) =
        ids + m.aliveFrom i + (l.map Prod.snd : List UInt32) := by
  induction n generalizing i ids m with
  | zero =>
    cases hrun
    refine ⟨[], rfl, ?_⟩
    rw [aliveFrom_of_le (by omega), add_zero]
    rfl
  | succ n ih =>
    rw [killAllLoop] at hrun
    rw [exchanges]
    by_cases hi : i < m.monsterCount
    · rw [if_pos hi] at hrun ⊢
      obtain ⟨monster, hmonster, hrun⟩ := Exec.bind_eq_ok.1 hrun
      obtain rfl : m.monsters i = monster := (getMonster_eq_ok.1 hmonster).2
      by_cases hhp : 0 < (m.monsters i).hp
      · obtain ⟨⟨id, m₁⟩, hdamage, hrun⟩ := Exec.bind_eq_ok.1 ((if_pos hhp).symm.trans hrun)
        have h₁ := mapDamageMonsterBy_spec h _ player _ _ _ hdamage
        have hon : m.OnMap (.regular i) := hi
        have hslain : Slain env (o n) m (.regular i) id m₁ := by
          have hzero : hit (m.monsterIn (.regular i)).hp [(m.monsters i).hp] = 0 := hit_self _ hhp
          have hslain := mapDamageMonsterBy_crowd h hon hhp [_] _ hdamage
          dsimp only at hslain
          rwa [if_pos hzero] at hslain
        have hmatch := hslain.killed_eq
        subst hmatch
        dsimp only at hrun h₁
        by_cases hgoes : GoesAtOnce env (o n) (m.monsters i).id
        · have hcount : m₁.monsterCount = m.monsterCount - 1 := hslain.count_goes hgoes
          rw [hslain.not_found hgoes, if_pos rfl, if_pos hgoes] at hrun
          obtain ⟨l, hl, hids⟩ := ih h₁ (by omega) hrun
          refine ⟨((m.monsters i).id, (m.monsters (m.monsterCount - 1)).id) :: l, ?_, ?_⟩
          · refine (if_pos hhp).trans (Exec.bind_eq_ok.2 ⟨_, hdamage, ?_⟩)
            dsimp only
            rw [hslain.not_found hgoes, if_pos rfl]
            refine Exec.bind_eq_ok.2 ⟨l, hl, ?_⟩
            exact if_pos hgoes
          · rw [hslain.aliveFrom_goes hi hhp hgoes]
            exact put_exchanged hids
        · rw [if_neg (hslain.found h₁.placed hi hgoes), if_neg hgoes] at hrun
          have hcount : m₁.monsterCount = m.monsterCount := hslain.count_stays hgoes
          obtain ⟨l, hl, hids⟩ := ih h₁ (by omega) hrun
          refine ⟨l, ?_, ?_⟩
          · refine (if_pos hhp).trans (Exec.bind_eq_ok.2 ⟨_, hdamage, ?_⟩)
            dsimp only
            rw [if_neg (hslain.found h₁.placed hi hgoes)]
            refine Exec.bind_eq_ok.2 ⟨l, hl, ?_⟩
            exact if_neg hgoes
          · rw [hslain.aliveFrom_stays hi hhp hgoes, ← add_assoc]
            exact hids
      · have hrun := (if_neg hhp).symm.trans hrun
        obtain ⟨l, hl, hids⟩ := ih h (by omega) hrun
        refine ⟨l, ?_, ?_⟩
        · exact (if_neg hhp).trans hl
        · rw [aliveFrom_eq hi, if_neg hhp, zero_add]
          exact hids
    · rw [if_neg hi] at hrun ⊢
      cases hrun
      refine ⟨[], rfl, ?_⟩
      rw [aliveFrom_of_le (by omega), add_zero]
      rfl

/-- The ids that `map_kill_all_by` returns are those of the monsters that have been alive if and only if
    no boss has, and the exchanges make no difference. -/
theorem killedAll_iff (h : Settled env.toEnv m) {alloc : Bool} {o : ℕ → Outcomes} {ids : List UInt32}
    (hrun : mapKillAllBy env alloc o m player = .ok (some ids, m')) :
    (ids : Multiset UInt32) = m.alive ↔ ¬m.BossAlive ∧
      ∃ l, m.exchanges env o player m.monsterCount 0 = .ok l ∧ (l.map Prod.fst).Perm (l.map Prod.snd) := by
  have hloop : m.killAllLoop env o player m.monsterCount 0 [] = .ok (ids, m') := by
    rw [mapKillAllBy] at hrun
    split at hrun
    · cases hrun
    · obtain ⟨⟨ids', m₁⟩, hloop, hrun⟩ := Exec.bind_eq_ok.1 hrun
      cases hrun
      exact hloop
  obtain ⟨l, hl, hids⟩ := killAllLoop_ids o player h (by omega) hloop
  rw [Multiset.coe_nil, zero_add] at hids
  -- As many ids are put down as there are monsters alive in the array.
  have hcard := congrArg Multiset.card hids
  rw [Multiset.card_add, Multiset.card_add, Multiset.coe_card, Multiset.coe_card, Multiset.coe_card,
    List.length_map, List.length_map] at hcard
  have hl' : (∃ l, m.exchanges env o player m.monsterCount 0 = .ok l ∧
      (l.map Prod.fst).Perm (l.map Prod.snd)) ↔ (l.map Prod.fst).Perm (l.map Prod.snd) := by
    refine ⟨?_, fun hperm => ⟨l, hl, hperm⟩⟩
    rintro ⟨l', hl', hperm⟩
    cases hl.symm.trans hl'
    exact hperm
  rw [hl', ← Multiset.coe_eq_coe, alive]
  by_cases hboss : m.BossAlive
  · rw [if_pos hboss]
    refine iff_of_false (fun he => ?_) fun h => h.1 hboss
    have := congrArg Multiset.card he
    rw [Multiset.card_add, Multiset.coe_card, Multiset.card_singleton] at this
    omega
  · rw [if_neg hboss, add_zero, and_iff_right hboss]
    constructor
    · intro he
      rw [he] at hids
      exact add_left_cancel hids
    · intro he
      rw [he] at hids
      exact add_right_cancel hids

/-- On a map where everything is in its place, a killer is credited for the monster that has died if and
    only if the id is read right, and a killer of all if and only if the exchanges make no difference and no
    boss has been alive. -/
theorem killers_credited (h : Settled env.toEnv m) (player : PlayerRef) :
    (∀ o oid damage killed m', mapDamageMonsterBy env o m player oid damage = .ok (killed, m') →
      (Credited m oid damage killed ↔ ReadRight env o m oid damage)) ∧
    ∀ alloc o ids m', mapKillAllBy env alloc o m player = .ok (some ids, m') →
      ((ids : Multiset UInt32) = m.alive ↔ ¬m.BossAlive ∧
        ∃ l, m.exchanges env o player m.monsterCount 0 = .ok l ∧
          (l.map Prod.fst).Perm (l.map Prod.snd)) :=
  ⟨fun _ _ _ _ _ => credited_iff h, fun _ _ _ _ => killedAll_iff h⟩

/-! ## Two monsters -/

theorem Settled.addMonster (h : Settled env.toEnv m) (o : Outcomes) (id : UInt32)
    (spawnerIndex : Option ℕ) (controller : Option PlayerRef) :
    Exec.Ensures (m.addMonster env o id spawnerIndex controller) (Settled env.toEnv) := by
  refine (addMonster_spec h.placed o id spawnerIndex controller).mono fun m' hm' => ?_
  refine ⟨hm'.placed, h.listed.of_droppers ?_, h.droppers.of_added hm'⟩
  obtain ⟨list, oid, hp, players, index, -, -, -, rfl⟩ := hm'.eq
  rfl

/-- Monsters have ten hit points, and drop nothing. -/
def huntEnv : MapEnv where
  toEnv := .ofLists [] [] [] []
  monsterHp _ := some 10
  dropInfo _ := none
  reactorDropInfo _ := none
  maxSpawnCount _ _ := 0
  maxSpawnCount_le _ _ := Nat.zero_le _

/-- A player on a map without anything on it. -/
def hunter : Map := { Map.empty [7, 8] with
  playerCapacity := 1
  playerCount := 1
  players := fun _ => { (default : MapPlayer) with monsterSize := 2 }
  container := fun _ => some ⟨0, 0⟩ }

/-- Monsters of two kinds, which are controlled by the player. -/
def hunt (first second : UInt32) : Exec Map := do
  let m ← hunter.addMonster huntEnv (.ofAlloc fun _ => true) first none (some ⟨0, 0⟩)
  m.addMonster huntEnv (.ofAlloc fun _ => true) second none (some ⟨0, 0⟩)

theorem settled_hunt (first second : UInt32) : Exec.Ensures (hunt first second) (Settled huntEnv.toEnv) :=
  (Settled.addMonster (settled_empty ..) _ first none _).bind fun _ h => h.addMonster _ second none _

/-- The player kills the monster with an object id. -/
def shoot (m : Map) (oid : UInt32) : Exec (Option UInt32 × Map) :=
  mapDamageMonsterBy huntEnv (.ofAlloc fun _ => true) m ⟨0, 0⟩ oid [10]

/-- The player kills everything. -/
def shootAll (m : Map) : Exec (Option (List UInt32) × Map) :=
  mapKillAllBy huntEnv true (fun _ => .ofAlloc fun _ => true) m ⟨0, 0⟩

/-- The last monster of the array is killed. -/
theorem killers_credited_last : ∃ m m', Settled huntEnv.toEnv m ∧ shoot m 0xFFFF0001 = .ok (some 8, m') ∧
    Credited m 0xFFFF0001 [10] (some 8) := by
  have hlast : (hunt 7 8).Returns fun m => m.monsterCount = 2 ∧ (m.monsters 0).oid ≠ 0xFFFF0001 ∧
      (shoot m 0xFFFF0001).Returns fun x => x.1 = some 8 := by
    decide +kernel
  obtain ⟨m, hm, hcount, hoid, hshot⟩ := Exec.returns_iff.1 hlast
  obtain ⟨⟨killed, m'⟩, hshot, hkilled⟩ := Exec.returns_iff.1 hshot
  obtain rfl : killed = some 8 := hkilled
  have hsettled := settled_hunt 7 8 m hm
  refine ⟨m, m', hsettled, hshot,
    ((killers_credited hsettled ⟨0, 0⟩).1 _ _ _ _ _ hshot).2 fun i hi hi' _ _ _ => ?_⟩
  obtain rfl : i = 1 := by
    have hne : i ≠ 0 := fun h => hoid (h ▸ hi')
    omega
  rw [hcount]

/-- The first of two monsters is killed, and the other one is what the killer is credited for; and who
    kills both is credited for the other one twice. -/
theorem killers_miscredited : ∃ m, Settled huntEnv.toEnv m ∧
    (∃ m', shoot m 0xFFFF0000 = .ok (some 8, m') ∧ ¬Credited m 0xFFFF0000 [10] (some 8)) ∧
      ∃ m', shootAll m = .ok (some [8, 8], m') ∧ m.alive = {7, 8} ∧ ([8, 8] : List UInt32) ≠ m.alive := by
  have hfirst : (hunt 7 8).Returns fun m => m.monsterCount = 2 ∧ (m.monsters 0).id = 7 ∧
      (m.monsters 1).oid ≠ 0xFFFF0000 ∧ m.boss.oid = 0xFFFFFFFF ∧ m.alive = {7, 8} ∧
      ((shoot m 0xFFFF0000).Returns fun x => x.1 = some 8) ∧
      (shootAll m).Returns fun x => x.1 = some [8, 8] := by
    decide +kernel
  obtain ⟨m, hm, hcount, hid, hoid, hboss, halive, hshot, hall⟩ := Exec.returns_iff.1 hfirst
  obtain ⟨⟨killed, m'⟩, hshot, hkilled⟩ := Exec.returns_iff.1 hshot
  obtain ⟨⟨ids, m''⟩, hall, hids⟩ := Exec.returns_iff.1 hall
  obtain rfl : killed = some 8 := hkilled
  obtain rfl : ids = some [8, 8] := hids
  refine ⟨m, settled_hunt 7 8 m hm, ⟨m', hshot, fun hc => ?_⟩, m'', hall, halive, ?_⟩
  rotate_left
  · rw [halive]
    decide
  obtain ⟨i | -, hon, hoid', -, -, hid'⟩ := (hc 8).1 rfl
  · have hon : i < m.monsterCount := hon
    have hi : i = 0 := by
      have hne : i ≠ 1 := fun h => hoid (h ▸ hoid')
      omega
    subst hi
    have hid' : (m.monsters 0).id = 8 := hid'
    rw [hid] at hid'
    exact absurd hid' (by decide)
  · exact hon hboss

end Map

end Syrup
