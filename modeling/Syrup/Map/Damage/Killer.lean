import Syrup.Map.Places.Damage

/-!
# Whom a killer is credited for

`map_damage_monster_by` returns the id of a monster that it has killed, and reads it where the monster has
been. If the monster has gone at once (`GoesAtOnce`), the last monster of the array is there, and it is
the id of that one that is returned: so the killer is credited for the monster that has died if and only
if the two have the same id (`credited_iff`). For `map_kill_all_by`, which returns an id for each monster
of the array, the ids are right if those of the monsters that go at once and those of the monsters that
were last then are the same, up to their order; and if no boss is alive, which it leaves alone
(`killedAll_iff`).
-/

namespace Syrup

open BackLinks

namespace Map

/-! ## The monsters of a map -/

/-- The monsters of a map, but for who controls them. -/
structure Crowd where
  count : ℕ
  monsters : ℕ → MapMonster
  boss : MapMonster

namespace Crowd

/-- The monster in a place. -/
def monsterAt (c : Crowd) : MonsterPlace → MapMonster
  | .regular i => c.monsters i
  | .boss => c.boss

/-- A monster is written to. -/
def set (c : Crowd) (place : MonsterPlace) (monster : MapMonster) : Crowd :=
  match place with
  | .regular i => { c with monsters := Function.update c.monsters i monster }
  | .boss => { c with boss := monster }

/-- A monster goes: the last one of the array takes its place. -/
def without (c : Crowd) : MonsterPlace → Crowd
  | .regular i =>
    { c with count := c.count - 1, monsters := Function.update c.monsters i (c.monsters (c.count - 1)) }
  | .boss => { c with boss := { c.boss with oid := 0xFFFFFFFF } }

end Crowd

/-- The monsters of a map. -/
def crowd (m : Map) : Crowd := ⟨m.monsterCount, fun i => (m.monsters i).bare, m.boss.bare⟩

variable {env : MapEnv} {m m' : Map} {o : Outcomes} {player : PlayerRef} {place : MonsterPlace}

theorem crowd_monsterAt (m : Map) (place : MonsterPlace) : m.crowd.monsterAt place = (m.monsterIn place).bare := by
  cases place <;> rfl

theorem ControlOnly.crowd (h : ControlOnly m m') : m'.crowd = m.crowd := by
  obtain ⟨players, monsters, boss, rfl, -, hmonsters, hboss⟩ := h
  rw [Map.crowd, Map.crowd, hboss]
  exact congrArg (Crowd.mk m.monsterCount · m.boss.bare) hmonsters

theorem crowd_of_control (h : m'.control = m.control) : m'.crowd = m.crowd := by
  have hcrowd : m'.control.crowd = m.control.crowd := congrArg Map.crowd h
  exact hcrowd

theorem writeHp_crowd (place : MonsterPlace) (hp : Int32) :
    Exec.Ensures (m.writeHp place hp) fun m' =>
      m'.crowd = m.crowd.set place { m.crowd.monsterAt place with hp := hp } := by
  refine (readPlace_spec place).bind fun monster hmonster => ?_
  subst hmonster
  rcases place with i | -
  · refine .pure ?_
    rw [crowd, setMonster_monsters]
    refine congrArg (Crowd.mk m.monsterCount · m.boss.bare) (funext fun k => ?_)
    exact Function.apply_update (fun _ => MapMonster.bare) m.monsters i _ k
  · exact .pure rfl

theorem mapPlace_injective : Function.Injective MonsterPlace.mapPlace := by
  rintro (i | -) (k | -) h
  · exact congrArg MonsterPlace.regular (congrArg MapPlace.index h)
  · cases congrArg MapPlace.type h
  · cases congrArg MapPlace.type h
  · rfl

/-- The object of a monster that has been taken away is no object of the map any more. -/
theorem slot_ne_of_gone (h : Placed env.toEnv m) (hon : m.OnMap place)
    (hcrowd : m'.crowd = m.crowd.without place)
    (hrest : ∀ p : MapPlace, p.type ≠ .monster → p.type ≠ .boss → m'.slot p = m.slot p) (p : MapPlace) :
    m'.slot p ≠ some (m.monsterIn place).oid := by
  intro hp
  have hplace := h.placeOf_monster hon
  -- Where else the object would have been before.
  have helse {q : MonsterPlace} (hq : m.OnMap q) (hoid : (m.monsterIn q).oid = (m.monsterIn place).oid) :
      q = place := by
    have := h.placeOf_monster hq
    rw [hoid, hplace] at this
    exact (mapPlace_injective (Option.some.inj this)).symm
  have hoid' (q : MonsterPlace) : (m'.monsterIn q).oid = ((m.crowd.without place).monsterAt q).oid := by
    rw [← hcrowd, crowd_monsterAt]
    rfl
  have hcount : m'.monsterCount = (m.crowd.without place).count := congrArg Crowd.count hcrowd
  obtain ⟨t, a, b⟩ := p
  by_cases hmonster : t = .monster
  · subst hmonster
    obtain ⟨-, ha, hoid⟩ := slot_monster_eq_some.1 hp
    have hoid : (m'.monsterIn (.regular a)).oid = (m.monsterIn place).oid := hoid
    rw [hoid'] at hoid
    rcases place with i | -
    · have hlt : a < m.monsterCount - 1 := ha.trans_eq hcount
      by_cases hai : a = i
      · subst hai
        have hat : (m.crowd.without (.regular a)).monsterAt (.regular a) =
            (m.monsters (m.monsterCount - 1)).bare := Function.update_self ..
        rw [hat] at hoid
        cases @helse (.regular (m.monsterCount - 1)) (show m.monsterCount - 1 < m.monsterCount by omega) hoid
        exact absurd hlt (lt_irrefl _)
      · have hat : (m.crowd.without (.regular i)).monsterAt (.regular a) = (m.monsters a).bare :=
          Function.update_of_ne hai ..
        rw [hat] at hoid
        cases @helse (.regular a) (show a < m.monsterCount by omega) hoid
        exact hai rfl
    · cases @helse (.regular a) (ha.trans_eq hcount) hoid
  by_cases hboss : t = .boss
  · subst hboss
    obtain ⟨-, hne, hoid⟩ := slot_boss_eq_some.1 hp
    have hb : m'.boss.oid = ((m.crowd.without place).boss).oid := hoid' .boss
    rcases place with i | -
    · cases @helse .boss (fun he => hne (hb.trans he)) (hb.symm.trans hoid)
    · exact hne hb
  · rw [hrest _ hmonster hboss] at hp
    have hat := (h.linked ..).2 hp
    rw [hplace] at hat
    rcases place with i | -
    · exact hmonster (congrArg MapPlace.type (Option.some.inj hat)).symm
    · exact hboss (congrArg MapPlace.type (Option.some.inj hat)).symm

theorem mapKillMonster_crowd (h : Placed env.toEnv m) (alloc : Bool) (hon : m.OnMap place) :
    Exec.Ensures (mapKillMonster env.toEnv alloc m (m.monsterIn place).oid) fun m' =>
      Placed env.toEnv m' ∧ m'.crowd = m.crowd.without place ∧
        m'.placeOf env.toEnv (m.monsterIn place).oid = none := by
  have hplace := h.placeOf_monster hon
  -- What is found is in a slot, and there is no slot that has the object.
  have hgone {m' : Map} (hplaced : Placed env.toEnv m') (hcrowd : m'.crowd = m.crowd.without place)
      (hrest : ∀ p : MapPlace, p.type ≠ .monster → p.type ≠ .boss → m'.slot p = m.slot p) :
      m'.placeOf env.toEnv (m.monsterIn place).oid = none := by
    rw [Option.eq_none_iff_forall_ne_some]
    exact fun p hp => slot_ne_of_gone h hon hcrowd hrest p ((hplaced.linked ..).1 hp)
  rcases place with i | -
  · refine (mapKillMonster_regular h alloc hplace).mono ?_
    rintro m' ⟨hplaced, -, list, players, -, rfl⟩
    have hcrowd : crowd { m.withoutMonster i players with objectList := list } =
        m.crowd.without (.regular i) := by
      refine congrArg (Crowd.mk (m.monsterCount - 1) · m.boss.bare) (funext fun k => ?_)
      exact Function.apply_update (fun _ => MapMonster.bare) m.monsters i _ k
    refine ⟨hplaced, hcrowd, hgone hplaced hcrowd fun p hmonster _ => ?_⟩
    obtain ⟨t, a, b⟩ := p
    rcases t
    case monster => exact absurd rfl hmonster
    all_goals rfl
  · refine (mapKillMonster_boss h alloc hplace).mono ?_
    rintro m' ⟨hplaced, list, rfl⟩
    refine ⟨hplaced, rfl, hgone hplaced rfl fun p _ hboss => ?_⟩
    obtain ⟨t, a, b⟩ := p
    rcases t
    case boss => exact absurd rfl hboss
    all_goals rfl

/-! ## A monster that dies -/

/-- A monster of this kind goes as soon as it has no hit points left: it has no drop table, or drops a
    single thing. -/
def GoesAtOnce (env : MapEnv) (o : Outcomes) (id : UInt32) : Prop :=
  match env.dropInfo id with
  | none => True
  | some info => (rollDrops env o.rand 0 info).Returns fun drops => drops.length = 1

instance (env : MapEnv) (o : Outcomes) (id : UInt32) : Decidable (GoesAtOnce env o id) := by
  unfold GoesAtOnce
  split <;> infer_instance

theorem goesAtOnce_of_none {id : UInt32} (h : env.dropInfo id = none) : GoesAtOnce env o id := by
  rw [GoesAtOnce, h]
  trivial

theorem goesAtOnce_iff {id : UInt32} {info : List DropInfo} {drops : List DropItem}
    (h : env.dropInfo id = some info) (hdrops : rollDrops env o.rand 0 info = .ok drops) :
    GoesAtOnce env o id ↔ drops.length = 1 := by
  rw [GoesAtOnce, h]
  dsimp only
  rw [hdrops]
  rfl

theorem die_crowd (h : Placed env.toEnv m) (hon : m.OnMap place) :
    Exec.Ensures (m.die env o player place) fun m' => Placed env.toEnv m' ∧
      if GoesAtOnce env o (m.monsterIn place).id then m'.crowd = m.crowd.without place ∧
        m'.placeOf env.toEnv (m.monsterIn place).oid = none
      else m'.crowd = m.crowd := by
  refine (readPlace_spec place).bind fun monster hmonster => ?_
  subst hmonster
  refine (releaseControl_controlOnly place).bind fun m₁ hm₁ => ?_
  have h₁ := h.of_things hm₁.things
  have hon₁ := onMap_of_things hm₁.things hon
  have hbare := monsterIn_of_things hm₁.things place
  have hoid : (m₁.monsterIn place).oid = (m.monsterIn place).oid := (congrArg MapMonster.oid hbare :)
  rw [← hoid, ← hm₁.crowd]
  split
  · rename_i hinfo
    simp only [if_pos (goesAtOnce_of_none hinfo)]
    exact mapKillMonster_crowd h₁ _ hon₁
  · rename_i info hinfo
    refine .andThen fun drops hdrops => ?_
    refine (mapDropBatchFromMapObject_spec h₁ { o with alloc := fun n => o.alloc (n + 1) } player
      (m₁.monsterIn place).oid drops).bind ?_
    rintro ⟨ok, m₂⟩ hm₂
    obtain ⟨hplaced, hcontrol⟩ : Placed env.toEnv m₂ ∧ m₂.control = m₁.control := by
      rcases hm₂ with hm₂ | ⟨-, hm₂⟩
      · exact ⟨hm₂.placed, hm₂.control⟩
      · exact ⟨hm₂.placed, hm₂.control⟩
    have hreturns := goesAtOnce_iff hinfo hdrops
    rw [← crowd_of_control hcontrol]
    dsimp only
    split
    · rename_i hone
      simp only [if_pos (hreturns.2 hone), ← monsterIn_of_control hcontrol]
      exact mapKillMonster_crowd hplaced _ (onMap_of_control hcontrol hon₁)
    · rename_i hone
      simp only [if_neg fun hr => hone (hreturns.1 hr)]
      exact .pure ⟨hplaced, rfl⟩

/-! ## A monster that is hit -/

/-- The monsters after one of them has been killed. -/
def Crowd.killed (env : MapEnv) (o : Outcomes) (c : Crowd) (place : MonsterPlace) : Crowd :=
  let c := c.set place { c.monsterAt place with hp := 0 }
  if GoesAtOnce env o (c.monsterAt place).id then c.without place else c

@[simp] theorem Crowd.set_monsterAt (c : Crowd) (place : MonsterPlace) (monster : MapMonster) :
    (c.set place monster).monsterAt place = monster := by
  cases place with
  | regular i => exact Function.update_self ..
  | boss => rfl

theorem Crowd.killed_eq (c : Crowd) (place : MonsterPlace) : c.killed env o place =
    if GoesAtOnce env o (c.monsterAt place).id then
      (c.set place { c.monsterAt place with hp := 0 }).without place
    else c.set place { c.monsterAt place with hp := 0 } := by
  rw [Crowd.killed, Crowd.set_monsterAt]

/-- A monster has been killed, and an id is returned. -/
structure Slain (env : MapEnv) (o : Outcomes) (m : Map) (place : MonsterPlace) (killed : Option UInt32)
    (m' : Map) : Prop where
  crowd : m'.crowd = m.crowd.killed env o place
  read : killed = some (m'.monsterIn place).id
  gone : GoesAtOnce env o (m.monsterIn place).id → m'.placeOf env.toEnv (m.monsterIn place).oid = none

theorem Slain.of_controlOnly {m₁ : Map} {killed : Option UInt32} (h : Slain env o m₁ place killed m')
    (hm₁ : ControlOnly m m₁) : Slain env o m place killed m' := by
  have hbare := monsterIn_of_things hm₁.things place
  have hid : (m₁.monsterIn place).id = (m.monsterIn place).id := (congrArg MapMonster.id hbare :)
  have hoid : (m₁.monsterIn place).oid = (m.monsterIn place).oid := (congrArg MapMonster.oid hbare :)
  refine ⟨hm₁.crowd ▸ h.crowd, h.read, ?_⟩
  rw [← hid, ← hoid]
  exact h.gone

/-- What comes of a hit: who is killed, and what is returned. -/
theorem hurt_crowd (o : Outcomes) (player : PlayerRef) (hp : Int32) {m₀ : Map} (hm : ControlOnly m₀ m)
    (h : Settled env.toEnv m) (hon : m.OnMap place) (hhp : 0 < (m.monsterIn place).hp) (id : UInt32) :
    Exec.Ensures (do
      let m ← m.writeHp place hp
      let stats ← Exec.deref (env.monsterHp id)
      if stats = 0 then Except.error Fault.divisionByZero
      let _ ← m.getPlayer player
      if hp = 0 then
        let m ← m.die env o player place
        let killed ← m.readPlace place
        return (some killed.id, m)
      else return (none, m)) fun x => if hp = 0 then Slain env o m₀ place x.1 x.2 else x.1 = none := by
  refine ((h.writeHp hon hhp hp).and (writeHp_crowd place hp)).bind fun m₁ hm₁ =>
    .andThen fun stats _ => ?_
  obtain ⟨⟨h₁, hon₁, -, hplace⟩, hcrowd⟩ := hm₁
  dsimp only
  by_cases hstats : stats = 0
  · rw [if_pos hstats]
    exact .bind .error fun _ (h : False) => h.elim
  · rw [if_neg hstats]
    refine .andThen fun _ _ => ?_
    split
    · rename_i hzero
      subst hzero
      refine (die_crowd h₁.placed hon₁).bind fun m₂ hm₂ => (readPlace_spec place).bind fun killed hkilled => ?_
      obtain ⟨-, hm₂⟩ := hm₂
      rw [hplace, hcrowd] at hm₂
      refine .pure (Slain.of_controlOnly ⟨?_, congrArg (fun monster => some (MapMonster.id monster)) hkilled,
        fun hgoes => ?_⟩ hm)
      · have hid : (m.crowd.monsterAt place).id = (m.monsterIn place).id := by
          rw [crowd_monsterAt]
          rfl
        rw [Crowd.killed_eq, hid]
        split at hm₂
        · rename_i hgoes
          rw [hm₂.1, if_pos hgoes]
        · rename_i hgoes
          rw [hm₂, if_neg hgoes]
      · rw [if_pos hgoes] at hm₂
        exact hm₂.2
    · exact .pure rfl

/-- What comes of hits at a monster that is alive. -/
theorem mapDamageMonsterBy_crowd (h : Settled env.toEnv m) (hon : m.OnMap place)
    (hhp : 0 < (m.monsterIn place).hp) (damage : List Int32) :
    Exec.Ensures (mapDamageMonsterBy env o m player (m.monsterIn place).oid damage) fun x =>
      if hit (m.monsterIn place).hp damage = 0 then Slain env o m place x.1 x.2 else x.1 = none := by
  have hplaceOf := h.placed.placeOf_monster hon
  obtain ⟨object, hobject, hto⟩ := Option.map_eq_some_iff.1 hplaceOf
  have htype : object.type = .monster ∨ object.type = .boss := by
    have := mapPlace_type place
    rwa [← hto] at this
  obtain ⟨hon', hoid⟩ := h.placed.monsterPlace hobject htype
  -- The object tells the place of the monster.
  have hmonsterPlace : Map.monsterPlace object = place := by
    have := h.placed.placeOf_monster hon'
    rw [hoid, hplaceOf] at this
    exact (mapPlace_injective (Option.some.inj this)).symm
  rw [mapDamageMonsterBy, hobject]
  dsimp only
  rw [if_neg fun hne => htype.elim hne.1 hne.2, hmonsterPlace]
  refine (readPlace_spec place).bind fun monster hmonster => ?_
  subst hmonster
  rw [if_pos hhp]
  have hrest (m₁ : Map) (hm₁ : ControlOnly m m₁) := by
    have hbare := monsterIn_of_things hm₁.things place
    exact hurt_crowd o player (hit (m.monsterIn place).hp damage) hm₁ (h.of_controlOnly hm₁)
      (onMap_of_things hm₁.things hon) (hhp.trans_eq (congrArg MapMonster.hp hbare).symm)
      (m.monsterIn place).id
  split
  · exact (switchControl_controlOnly place player).bind hrest
  · exact hrest m (.refl m)

/-! ## Who is credited -/

/-- The id that is returned is that of the monster that has been killed, and there is one only then. -/
def Credited (m : Map) (oid : UInt32) (damage : List Int32) (killed : Option UInt32) : Prop :=
  ∀ id, killed = some id ↔ ∃ place, m.OnMap place ∧ (m.monsterIn place).oid = oid ∧
    0 < (m.monsterIn place).hp ∧ hit (m.monsterIn place).hp damage = 0 ∧ (m.monsterIn place).id = id

/-- If a monster of the array is killed and goes at once, the last one has the same id. -/
def ReadRight (env : MapEnv) (o : Outcomes) (m : Map) (oid : UInt32) (damage : List Int32) : Prop :=
  ∀ i < m.monsterCount, (m.monsters i).oid = oid → 0 < (m.monsters i).hp →
    hit (m.monsters i).hp damage = 0 → GoesAtOnce env o (m.monsters i).id →
      (m.monsters (m.monsterCount - 1)).id = (m.monsters i).id

/-- Where a monster with an object id is. -/
theorem Placed.onMap_inj (h : Placed env.toEnv m) {place' : MonsterPlace} (hon : m.OnMap place)
    (hon' : m.OnMap place') (hoid : (m.monsterIn place).oid = (m.monsterIn place').oid) :
    place = place' := by
  have hplace := h.placeOf_monster hon
  rw [hoid, h.placeOf_monster hon'] at hplace
  exact (mapPlace_injective (Option.some.inj hplace)).symm

/-- Nothing comes of hits at a monster that is dead, or not there. -/
theorem mapDamageMonsterBy_none (h : Placed env.toEnv m) {oid : UInt32} {damage : List Int32}
    (hdead : ∀ place, m.OnMap place → (m.monsterIn place).oid = oid → ¬0 < (m.monsterIn place).hp) :
    Exec.Ensures (mapDamageMonsterBy env o m player oid damage) fun x => x = (none, m) := by
  rw [mapDamageMonsterBy]
  split
  · exact .pure rfl
  · rename_i object hobject
    split
    · exact .pure rfl
    · rename_i ht
      have ht' : object.type = .monster ∨ object.type = .boss := by
        by_contra hne
        exact ht (not_or.1 hne)
      obtain ⟨hon, hoid⟩ := h.monsterPlace hobject ht'
      refine (readPlace_spec _).bind fun monster hmonster => ?_
      subst hmonster
      rw [if_neg (hdead _ hon hoid)]
      exact .pure rfl

/-- The id that is read where a monster has been that is killed. -/
theorem killed_id (hcrowd : m'.crowd = m.crowd.killed env o place) : (m'.monsterIn place).id =
    match place with
    | .regular i => if GoesAtOnce env o (m.monsters i).id ∧ m.monsterCount - 1 ≠ i then
        (m.monsters (m.monsterCount - 1)).id else (m.monsters i).id
    | .boss => m.boss.id := by
  have hid : (m'.monsterIn place).id = ((m.crowd.killed env o place).monsterAt place).id := by
    rw [← hcrowd, crowd_monsterAt]
    rfl
  rw [hid, Crowd.killed]
  rcases place with i | -
  · have hat : (((m.crowd.set (.regular i) { m.crowd.monsterAt (.regular i) with hp := 0 }).monsterAt
        (.regular i))).id = (m.monsters i).id := by
      rw [Crowd.set_monsterAt]
      rfl
    dsimp only
    rw [hat]
    by_cases hgoes : GoesAtOnce env o (m.monsters i).id
    · rw [if_pos hgoes]
      change (Function.update (Function.update m.crowd.monsters i _) i
        (Function.update m.crowd.monsters i _ (m.monsterCount - 1)) i).id = _
      rw [Function.update_self]
      by_cases hlast : m.monsterCount - 1 = i
      · rw [hlast, Function.update_self, if_neg fun h => h.2 rfl]
        rfl
      · rw [Function.update_of_ne hlast, if_pos ⟨hgoes, hlast⟩]
        rfl
    · rw [if_neg hgoes, if_neg fun h => hgoes h.1, hat]
  · dsimp only
    split <;> rfl

/-- The killer is credited for the monster that has died if and only if the id is read right. -/
theorem credited_iff (h : Settled env.toEnv m) {oid : UInt32} {damage : List Int32}
    {killed : Option UInt32} (hrun : mapDamageMonsterBy env o m player oid damage = .ok (killed, m')) :
    Credited m oid damage killed ↔ ReadRight env o m oid damage := by
  by_cases halive : ∃ place, m.OnMap place ∧ (m.monsterIn place).oid = oid ∧ 0 < (m.monsterIn place).hp
  · obtain ⟨place, hon, rfl, hhp⟩ := halive
    have hcrowd := mapDamageMonsterBy_crowd h hon hhp damage _ hrun
    dsimp only at hcrowd
    have hplace (place' : MonsterPlace) (hon' : m.OnMap place')
        (hoid : (m.monsterIn place').oid = (m.monsterIn place).oid) : place' = place :=
      h.placed.onMap_inj hon' hon hoid
    by_cases hzero : hit (m.monsterIn place).hp damage = 0
    · rw [if_pos hzero] at hcrowd
      rw [hcrowd.read]
      -- The monster has been killed: what matters is whether the id is its own.
      have hcredit : Credited m (m.monsterIn place).oid damage (some (m'.monsterIn place).id) ↔
          (m'.monsterIn place).id = (m.monsterIn place).id := by
        constructor
        · intro hc
          obtain ⟨place', hon', hoid, -, -, hid⟩ := (hc _).1 rfl
          rw [← hid, hplace place' hon' hoid]
        · intro hid id
          rw [Option.some_inj, hid]
          constructor
          · exact fun he => ⟨place, hon, rfl, hhp, hzero, he⟩
          · rintro ⟨place', hon', hoid, -, -, rfl⟩
            rw [hplace place' hon' hoid]
      rw [hcredit, killed_id hcrowd.crowd]
      rcases place with i | -
      · dsimp only
        constructor
        · intro hid k hk hoid _ _ hgoes
          obtain rfl : k = i := by
            cases hplace (.regular k) hk hoid
            rfl
          by_cases hlast : m.monsterCount - 1 = k
          · rw [hlast]
          · rwa [if_pos ⟨hgoes, hlast⟩] at hid
        · intro hread
          split
          · rename_i hgoes
            exact hread i hon rfl hhp hzero hgoes.1
          · rfl
      · refine iff_of_true rfl fun k hk hoid => ?_
        cases hplace (.regular k) hk hoid
    · rw [if_neg hzero] at hcrowd
      subst hcrowd
      refine iff_of_true (fun id => iff_of_false nofun ?_) fun k hk hoid _ hdead => ?_
      · rintro ⟨place', hon', hoid, -, hdead, -⟩
        rw [hplace place' hon' hoid] at hdead
        exact hzero hdead
      · cases hplace (.regular k) hk hoid
        exact absurd hdead hzero
  · have hdead (place : MonsterPlace) (hon : m.OnMap place) (hoid : (m.monsterIn place).oid = oid) :
        ¬0 < (m.monsterIn place).hp := fun hhp => halive ⟨place, hon, hoid, hhp⟩
    cases mapDamageMonsterBy_none h.placed hdead _ hrun
    refine iff_of_true (fun id => iff_of_false nofun ?_) fun k hk hoid hhp => ?_
    · rintro ⟨place, hon, hoid, hhp, -⟩
      exact hdead place hon hoid hhp
    · exact absurd hhp (hdead (.regular k) hk hoid)

end Map

end Syrup
