import Syrup.Map.Control
import Syrup.Map.Places.Droppers

/-!
# The places of what is hit

A monster that is hit stays where it is until it has no hit points left; then it goes, or drops what it
has. A map on which everything is in its place, and which has what its dropping batches drop from
(`Settled`), stays so.
-/

namespace Syrup

open BackLinks

namespace Map

variable {env : Env} {m m' : Map}

/-- Everything is in its place, and what dropping batches drop from is there. -/
structure Settled (env : Env) (m : Map) : Prop where
  placed : Placed env m
  listed : Listed none m
  droppers : Droppers none m

theorem ControlOnly.droppers (h : ControlOnly m m') : m'.droppers = m.droppers := by
  obtain ⟨_, _, _, rfl, -, -, -⟩ := h
  rfl

theorem ControlOnly.steady (h : ControlOnly m m') : Steady m m' := by
  refine ⟨h.things, h.droppers, ?_⟩
  obtain ⟨_, _, _, rfl, -, -, -⟩ := h
  exact le_rfl

/-- Which monsters are dead does not depend on who controls them. -/
theorem Corpse.of_things {oid : UInt32} (hc : m.Corpse oid) (h : m'.things = m.things) :
    m'.Corpse oid := by
  have hcorpse : m.things.Corpse oid := hc
  rw [← h] at hcorpse
  exact hcorpse

/-- That depends on the things on the map, and on what the dropping batches drop from. -/
theorem Settled.of_steady (h : Settled env m) (hm' : Steady m m') : Settled env m' := by
  refine ⟨h.placed.of_things hm'.things, h.listed.of_droppers hm'.droppers, ?_⟩
  exact h.droppers.mono
    (fun id _ hne => ⟨hne, congrFun (dropperOf_of_droppers hm'.droppers) id⟩)
    (fun _ _ _ _ hc => hc.of_things hm'.things) (congrArg (fun m => m.reactors) hm'.things)

theorem Settled.of_controlOnly (h : Settled env m) (hm' : ControlOnly m m') : Settled env m' :=
  h.of_steady hm'.steady

theorem Settled.of_dropsOnly (h : Settled env m) (hm' : DropsOnly env m m') : Settled env m' :=
  ⟨hm'.placed, h.listed.of_droppers hm'.droppers, h.droppers.of_dropsOnly hm'⟩

theorem Settled.of_killed (h : Settled env m) (hm' : Killed env none m m') : Settled env m' :=
  ⟨hm'.placed, h.listed.of_droppers hm'.same, hm'.droppers⟩

theorem Settled.of_started {oid : UInt32} (h : Settled env m) (hm' : Started env m oid m')
    (hdead : m.Corpse oid ∨ m.IsReactor oid)
    (honly : ∀ id, m.dropperOf id = some oid → m.IsReactor oid) : Settled env m' := by
  obtain ⟨b, -, hindex, hb⟩ := hm'.droppers
  exact ⟨hm'.placed, (h.listed.withDropping hindex).of_droppers hb,
    h.droppers.of_started hm' hdead honly⟩

/-! ## Monsters that are hit -/

/-- The monster in a place. -/
def monsterIn (m : Map) : MonsterPlace → MapMonster
  | .regular i => m.monsters i
  | .boss => m.boss

/-- There is a monster in a place. -/
def OnMap (m : Map) : MonsterPlace → Prop
  | .regular i => i < m.monsterCount
  | .boss => m.boss.oid ≠ 0xFFFFFFFF

/-- The place that the object of a monster tells. -/
def MonsterPlace.mapPlace : MonsterPlace → MapPlace
  | .regular i => ⟨.monster, i, 0⟩
  | .boss => ⟨.boss, 0, 0⟩

theorem readPlace_spec (place : MonsterPlace) :
    Exec.Ensures (m.readPlace place) fun monster => monster = m.monsterIn place := by
  rcases place with i | -
  · exact fun monster h => (getMonster_eq_ok.1 h).2.symm
  · exact .pure rfl

theorem Placed.placeOf_monster (h : Placed env m) {place : MonsterPlace} (hon : m.OnMap place) :
    m.placeOf env (m.monsterIn place).oid = some place.mapPlace := by
  rcases place with i | -
  · exact (h.linked ..).2 (slot_monster_eq_some.2 ⟨rfl, hon, rfl⟩)
  · exact (h.linked ..).2 (slot_boss_eq_some.2 ⟨⟨rfl, rfl⟩, hon, rfl⟩)

theorem mapPlace_type (place : MonsterPlace) :
    place.mapPlace.type = .monster ∨ place.mapPlace.type = .boss := by
  rcases place with i | -
  · exact .inl rfl
  · exact .inr rfl

theorem corpse_monsterIn {place : MonsterPlace} (hon : m.OnMap place)
    (hhp : (m.monsterIn place).hp ≤ 0) : m.Corpse (m.monsterIn place).oid := by
  rcases place with i | -
  · exact .inl ⟨i, hon, rfl, hhp⟩
  · exact .inr ⟨hon, rfl, hhp⟩

/-- What a monster is does not depend on who controls it. -/
theorem monsterIn_of_things (h : m'.things = m.things) (place : MonsterPlace) :
    (m'.monsterIn place).bare = (m.monsterIn place).bare := by
  rcases place with i | -
  · exact congrArg (fun m => m.monsters i) h
  · exact congrArg (fun m => m.boss) h

theorem onMap_of_things (h : m'.things = m.things) {place : MonsterPlace} (hon : m.OnMap place) :
    m'.OnMap place := by
  have hthings : m.things.OnMap place := by
    rcases place with i | - <;> exact hon
  rw [← h] at hthings
  rcases place with i | - <;> exact hthings

theorem monsterIn_of_control (h : m'.control = m.control) (place : MonsterPlace) :
    m'.monsterIn place = m.monsterIn place := by
  rcases place with i | -
  · exact congrArg (fun m => m.monsters i) h
  · exact congrArg (fun m => m.boss) h

theorem onMap_of_control (h : m'.control = m.control) {place : MonsterPlace} (hon : m.OnMap place) :
    m'.OnMap place := by
  have hcontrol : m.control.OnMap place := by
    rcases place with i | - <;> exact hon
  rw [← h] at hcontrol
  rcases place with i | - <;> exact hcontrol

/-- A monster that has no hit points left goes, or drops what it has. -/
theorem die_spec {env : MapEnv} (h : Settled env.toEnv m) (o : Outcomes) (player : PlayerRef)
    {place : MonsterPlace} (hon : m.OnMap place) (hhp : (m.monsterIn place).hp ≤ 0)
    (honly : ∀ id, m.dropperOf id ≠ some (m.monsterIn place).oid) :
    Exec.Ensures (m.die env o player place) (Settled env.toEnv) := by
  refine (readPlace_spec place).bind fun monster hmonster => ?_
  subst hmonster
  refine (releaseControl_controlOnly place).bind fun m₁ hm₁ => ?_
  have h₁ := h.of_controlOnly hm₁
  have hon₁ := onMap_of_things hm₁.things hon
  have hbare := monsterIn_of_things hm₁.things place
  have hoid : (m₁.monsterIn place).oid = (m.monsterIn place).oid := (congrArg MapMonster.oid hbare :)
  have hhp₁ : (m₁.monsterIn place).hp = (m.monsterIn place).hp := (congrArg MapMonster.hp hbare :)
  have hplace := h₁.placed.placeOf_monster hon₁
  have hcorpse := corpse_monsterIn hon₁ (hhp₁.trans_le hhp)
  rw [← dropperOf_of_droppers hm₁.droppers, ← hoid] at honly
  rw [← hoid]
  split
  · exact (mapKillMonster_spec h₁.placed h₁.droppers _ hplace (mapPlace_type place)
      fun id hid => absurd hid (honly id)).mono fun m₂ hm₂ => h₁.of_killed hm₂
  · refine .andThen fun drops _ => (mapDropBatchFromMapObject_spec h₁.placed _ player _ drops).bind ?_
    rintro ⟨ok, m₂⟩ hm₂
    dsimp only
    split
    · rename_i hlength
      have hdrops : DropsOnly env.toEnv m₁ m₂ := hm₂.resolve_right fun h => h.1 hlength
      have h₂ := h₁.of_dropsOnly hdrops
      have hplace₂ := h₂.placed.placeOf_monster (onMap_of_control hdrops.control hon₁)
      rw [monsterIn_of_control hdrops.control] at hplace₂
      rw [← dropperOf_of_droppers hdrops.droppers] at honly
      exact (mapKillMonster_spec h₂.placed h₂.droppers _ hplace₂ (mapPlace_type place)
        fun id hid => absurd hid (honly id)).mono fun m₃ hm₃ => h₂.of_killed hm₃
    · refine .pure ?_
      rcases hm₂ with hdrops | ⟨-, hstarted⟩
      · exact h₁.of_dropsOnly hdrops
      · exact h₁.of_started hstarted (.inl hcorpse) fun id hid => absurd hid (honly id)

/-- Where a monster that is an object of the map is. -/
theorem Placed.monsterPlace (h : Placed env m) {oid : UInt32} {object : MapObject}
    (ho : objectListGet env m.objectList oid = some object)
    (ht : object.type = .monster ∨ object.type = .boss) : m.OnMap (Map.monsterPlace object) ∧
      (m.monsterIn (Map.monsterPlace object)).oid = oid := by
  have hplace : m.placeOf env oid = some object.place := by
    rw [placeOf, ho, Option.map_some]
  obtain ⟨t, oid', i, j⟩ := object
  rcases ht with rfl | rfl
  · obtain ⟨-, hi, hoid⟩ := slot_monster_eq_some.1 ((h.linked ..).1 hplace)
    exact ⟨hi, hoid⟩
  · obtain ⟨-, hne, hoid⟩ := slot_boss_eq_some.1 ((h.linked ..).1 hplace)
    exact ⟨hne, hoid⟩

/-- The hit points of a monster are written to. -/
theorem writeHp_spec (place : MonsterPlace) (hp : Int32) :
    Exec.Ensures (m.writeHp place hp) fun m' => ∃ monsters boss,
      m' = { m with monsters := monsters, boss := boss } ∧
        (∀ q, q ≠ place → m'.monsterIn q = m.monsterIn q) ∧
        m'.monsterIn place = { m.monsterIn place with hp := hp } := by
  refine (readPlace_spec place).bind fun monster hmonster => ?_
  subst hmonster
  rcases place with i | -
  · refine .pure ⟨_, _, rfl, fun q hq => ?_, Function.update_self ..⟩
    rcases q with k | -
    · exact Function.update_of_ne (fun he => hq (congrArg _ he)) ..
    · rfl
  · refine .pure ⟨_, _, rfl, fun q hq => ?_, rfl⟩
    rcases q with k | -
    · rfl
    · exact absurd rfl hq

/-- A monster that had hit points loses some. -/
theorem Settled.writeHp (h : Settled env m) {place : MonsterPlace} (hon : m.OnMap place)
    (hhp : 0 < (m.monsterIn place).hp) (hp : Int32) :
    Exec.Ensures (m.writeHp place hp) fun m' => Settled env m' ∧ m'.OnMap place ∧
      m'.dropping = m.dropping ∧ m'.monsterIn place = { m.monsterIn place with hp := hp } := by
  refine (writeHp_spec place hp).mono ?_
  rintro m' ⟨monsters, boss, rfl, hother, hplace⟩
  have hoid (q : MonsterPlace) : (monsterIn { m with monsters := monsters, boss := boss } q).oid =
      (m.monsterIn q).oid := by
    by_cases hq : q = place
    · rw [hq, hplace]
    · rw [hother q hq]
  have hslot : slot { m with monsters := monsters, boss := boss } = m.slot := by
    funext ⟨t, i, j⟩
    rcases t
    case monster =>
      rw [slot, slot, monsterAt, monsterAt]
      exact congrArg (fun f => if j = 0 then firsts m.monsterCount f i else none)
        (funext fun i => hoid (.regular i))
    case boss =>
      rw [slot, slot, bossOid, bossOid, show boss.oid = m.boss.oid from hoid .boss]
    all_goals rfl
  refine ⟨⟨⟨h.placed.tracks, hslot ▸ h.placed.linked, h.placed.window, h.placed.cells,
    h.placed.droppings, h.placed.fresh⟩, h.listed, ?_⟩, ?_, rfl, hplace⟩
  · refine h.droppers.mono (fun _ _ hne => ⟨hne, rfl⟩) (fun id oid _ _ hc => ?_) rfl
    rcases hc with ⟨k, hk, hk', hkhp⟩ | ⟨hne, hb, hbhp⟩
    · have hq : MonsterPlace.regular k ≠ place := by
        rintro rfl
        exact absurd hkhp (Int32.not_le.2 hhp)
      exact .inl ⟨k, hk, (hoid (.regular k)).trans hk',
        (congrArg MapMonster.hp (hother _ hq)).trans_le hkhp⟩
    · have hq : MonsterPlace.boss ≠ place := by
        rintro rfl
        exact absurd hbhp (Int32.not_le.2 hhp)
      exact .inr ⟨fun he => hne ((hoid .boss).symm.trans he), (hoid .boss).trans hb,
        (congrArg MapMonster.hp (hother _ hq)).trans_le hbhp⟩
  · rcases place with i | -
    · exact hon
    · exact fun he => hon ((hoid .boss).symm.trans he)

/-- No batch drops from a monster that has hit points. -/
theorem Settled.dropperOf_ne (h : Settled env m) {place : MonsterPlace} (hon : m.OnMap place)
    (hhp : 0 < (m.monsterIn place).hp) (id : ℕ) :
    m.dropperOf id ≠ some (m.monsterIn place).oid := by
  intro hid
  have hplace := h.placed.placeOf_monster hon
  rcases (droppers_iff.1 h.droppers).1 id _ hid nofun with hc | hr
  · rcases h.placed.corpse hc with ⟨i, hi, hi'⟩ | ⟨hb, hb'⟩
    · obtain rfl : place = .regular i := by
        rw [hplace] at hi
        rcases place with k | - <;> cases hi
        rfl
      exact absurd hi' (Int32.not_le.2 hhp)
    · obtain rfl : place = .boss := by
        rw [hplace] at hb
        rcases place with k | - <;> cases hb
        rfl
      exact absurd hb' (Int32.not_le.2 hhp)
  · obtain ⟨i, hi⟩ := h.placed.reactor hr
    rw [hplace] at hi
    rcases place with k | - <;> cases hi

/-- The hit points that are left are written down, and the monster dies if there are none. -/
theorem hurt_spec {env : MapEnv} (h : Settled env.toEnv m) (o : Outcomes) (player : PlayerRef)
    {place : MonsterPlace} (hon : m.OnMap place) (hhp : 0 < (m.monsterIn place).hp) (hp : Int32)
    (id : UInt32) : Exec.Ensures (do
      let m ← m.writeHp place hp
      let stats ← Exec.deref (env.monsterHp id)
      if stats = 0 then Except.error Fault.divisionByZero
      let _ ← m.getPlayer player
      if hp = 0 then
        let m ← m.die env o player place
        let killed ← m.readPlace place
        return (some killed.id, m)
      else return (none, m)) fun x => Settled env.toEnv x.2 := by
  refine (h.writeHp hon hhp hp).bind fun m₁ hm₁ => .andThen fun stats _ => ?_
  obtain ⟨h₁, hon₁, hdropping, hplace⟩ := hm₁
  dsimp only
  by_cases hstats : stats = 0
  · rw [if_pos hstats]
    exact .bind .error fun _ (h : False) => h.elim
  · rw [if_neg hstats]
    refine .andThen fun _ _ => ?_
    split
    · rename_i hzero
      have hdead : (m₁.monsterIn place).hp ≤ 0 := by
        rw [hplace, hzero]
        exact Int32.le_refl 0
      refine (die_spec h₁ o player hon₁ hdead fun id hid => ?_).bind fun m₂ h₂ =>
        .andThen fun killed _ => .pure h₂
      rw [dropperOf, hdropping, hplace] at hid
      exact h.dropperOf_ne hon hhp id hid
    · exact .pure h₁

/-- A monster is hit. -/
theorem mapDamageMonsterBy_spec {env : MapEnv} (h : Settled env.toEnv m) (o : Outcomes)
    (player : PlayerRef) (oid : UInt32) (damage : List Int32) :
    Exec.Ensures (mapDamageMonsterBy env o m player oid damage) fun x => Settled env.toEnv x.2 := by
  rw [mapDamageMonsterBy]
  split
  · exact .pure h
  · rename_i object hobject
    split
    · exact .pure h
    · rename_i ht
      have ht' : object.type = .monster ∨ object.type = .boss := by
        by_contra hne
        exact ht (not_or.1 hne)
      obtain ⟨hon, hoid⟩ := h.placed.monsterPlace hobject ht'
      refine (readPlace_spec _).bind fun monster hmonster => ?_
      subst hmonster
      split
      · rename_i hhp
        have hrest (m₁ : Map) (hm₁ : ControlOnly m m₁) := by
          have hbare := monsterIn_of_things hm₁.things (Map.monsterPlace object)
          exact hurt_spec (h.of_controlOnly hm₁) o player (onMap_of_things hm₁.things hon)
            (hhp.trans_eq (congrArg MapMonster.hp hbare).symm)
            (hit (m.monsterIn (Map.monsterPlace object)).hp damage)
            (m.monsterIn (Map.monsterPlace object)).id
        split
        · exact (switchControl_controlOnly _ player).bind hrest
        · exact hrest m (.refl m)
      · exact .pure h

/-- All monsters are killed. -/
theorem killAllLoop_spec {env : MapEnv} (o : ℕ → Outcomes) (player : PlayerRef) (n i : ℕ)
    (ids : List UInt32) (h : Settled env.toEnv m) :
    Exec.Ensures (m.killAllLoop env o player n i ids) fun x => Settled env.toEnv x.2 := by
  induction n generalizing i ids m with
  | zero => exact .pure h
  | succ n ih =>
    rw [killAllLoop]
    split
    · refine .andThen fun monster _ => ?_
      split
      · refine (mapDamageMonsterBy_spec h _ player _ _).bind ?_
        rintro ⟨id, m₁⟩ h₁
        exact ih _ _ h₁
      · exact ih _ _ h
    · exact .pure h

theorem mapKillAllBy_spec {env : MapEnv} (h : Settled env.toEnv m) (alloc : Bool) (o : ℕ → Outcomes)
    (player : PlayerRef) :
    Exec.Ensures (mapKillAllBy env alloc o m player) fun x => Settled env.toEnv x.2 := by
  rw [mapKillAllBy]
  split
  · exact .pure h
  · refine (killAllLoop_spec o player m.monsterCount 0 [] h).bind ?_
    rintro ⟨ids, m₁⟩ h₁
    exact .pure h₁

end Map

end Syrup
