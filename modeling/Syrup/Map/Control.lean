import Syrup.Map.Damage
import Syrup.Map.Lists
import Syrup.Map.Players

/-!
# Whom a monster is controlled by

What the functions do that only write to the lists of monsters that players have, and to the monsters
in these lists: nothing of what is on the map depends on it, nor whose the drops are (`ControlOnly`). Nor
does it depend on the players who come and go, or on the room there is for monsters (`Steady`).
-/

namespace Syrup

namespace Map

variable {m : Map}

/-- Only who controls the monsters has changed. -/
def ControlOnly (m m' : Map) : Prop := ∃ players monsters boss,
  m' = { m with players := players, monsters := monsters, boss := boss } ∧
    (fun i => (players i).ownership) = (fun i => (m.players i).ownership) ∧
    (fun i => (monsters i).bare) = (fun i => (m.monsters i).bare) ∧ boss.bare = m.boss.bare

theorem ControlOnly.refl (m : Map) : ControlOnly m m := ⟨_, _, _, rfl, rfl, rfl, rfl⟩

theorem ControlOnly.trans {m₁ m₂ : Map} (h : ControlOnly m m₁) (h' : ControlOnly m₁ m₂) :
    ControlOnly m m₂ := by
  obtain ⟨_, _, _, rfl, hp, hm, hb⟩ := h
  obtain ⟨players, monsters, boss, rfl, hp', hm', hb'⟩ := h'
  exact ⟨players, monsters, boss, rfl, hp'.trans hp, hm'.trans hm, hb'.trans hb⟩

theorem ControlOnly.things {m' : Map} (h : ControlOnly m m') : m'.things = m.things := by
  obtain ⟨players, monsters, boss, rfl, -, hm, hb⟩ := h
  change ({ m.things with monsters := fun i => (monsters i).bare, boss := boss.bare } : Map) = _
  rw [hm, hb]
  rfl

theorem controlOnly_setPlayer {r : PlayerRef} {p : MapPlayer}
    (h : p.ownership = (m.players r.index).ownership) : ControlOnly m (m.setPlayer r p) :=
  ⟨_, _, _, rfl, view_update MapPlayer.ownership h, rfl, rfl⟩

theorem controlOnly_setMonster {r : MonsterRef} {monster : MapMonster}
    (h : monster.bare = (m.monsters r.index).bare) : ControlOnly m (m.setMonster r monster) :=
  ⟨_, _, _, rfl, rfl, view_update MapMonster.bare h, rfl⟩

/-! ## Taking a monster out of a list -/

/-- A monster has been taken out of the list of a player. -/
structure Uncontrolled (m : Map) (r : PlayerRef) (index : ℕ) (p : MapPlayer) (m' : Map) : Prop where
  player : m.getPlayer r = .ok p
  pos : 0 < p.monsterCount
  last : p.monsterCount - 1 < p.monsterSize
  size : index < p.monsterSize
  valid : (p.monsters (p.monsterCount - 1)).block = m.monstersBlock ∧
    (p.monsters (p.monsterCount - 1)).index < m.monsterCapacity
  eq : m' = (m.setMonster (p.monsters (p.monsterCount - 1))
    { m.monsters (p.monsters (p.monsterCount - 1)).index with indexInController := index }).setPlayer r
      { p with
        monsters := Function.update p.monsters index (p.monsters (p.monsterCount - 1))
        monsterCount := p.monsterCount - 1 }

theorem uncontrol_spec (r : PlayerRef) (index : ℕ) :
    Exec.Ensures (m.uncontrol r index) fun m' => ∃ p, Uncontrolled m r index p m' := by
  refine .andThen fun p hp => Exec.last_spec.bind fun last hlast => ?_
  obtain ⟨hpos, rfl⟩ := hlast
  refine MapPlayer.readMonster_spec.bind fun ref href => MapPlayer.writeMonster_spec.bind
    fun p' hp' => ?_
  obtain ⟨hlast, rfl⟩ := href
  obtain ⟨hsize, rfl⟩ := hp'
  refine .bind (.andThen fun monster hmonster => .pure (P := fun m' => ∃ monster,
    m.getMonster (p.monsters (p.monsterCount - 1)) = .ok monster ∧
      m' = m.setMonster (p.monsters (p.monsterCount - 1))
        { monster with indexInController := index }) ⟨monster, hmonster, rfl⟩) ?_
  rintro m' ⟨monster, hmonster, rfl⟩
  obtain ⟨hvalid, rfl⟩ := getMonster_eq_ok.1 hmonster
  exact .pure ⟨p, hp, hpos, hlast, hsize, hvalid, rfl⟩

theorem Uncontrolled.controlOnly {r : PlayerRef} {index : ℕ} {p : MapPlayer} {m' : Map}
    (h : Uncontrolled m r index p m') : ControlOnly m m' := by
  rw [h.eq]
  refine .trans (controlOnly_setMonster ?_) (controlOnly_setPlayer ?_)
  · rfl
  · exact (congrArg MapPlayer.ownership (getPlayer_eq_ok.1 h.player).2.symm :)

/-! ## Switching control -/

/-- What `switchControl` does to a monster in the array. -/
structure Switched (m : Map) (i : ℕ) (player : PlayerRef) (m' : Map) : Prop where
  eq : ∃ old p m₁ q, (m.monsters i).controller = some old ∧
    Uncontrolled m old (m.monsters i).indexInController p m₁ ∧ m₁.getPlayer player = .ok q ∧
    q.monsterCount < q.monsterSize ∧ m' = (m₁.setMonster (m₁.monsterRef i) { m₁.monsters i with
      controller := some player, indexInController := q.monsterCount }).setPlayer player { q with
        monsters := Function.update q.monsters q.monsterCount (m₁.monsterRef i)
        monsterCount := q.monsterCount + 1 }

theorem switchControl_regular (i : ℕ) (player : PlayerRef) :
    Exec.Ensures (m.switchControl (.regular i) player) (Switched m i player) := by
  refine .andThen fun monster hmonster => .bind (.deref fun old h => h) fun old hold => ?_
  obtain ⟨-, rfl⟩ := getMonster_eq_ok.1 hmonster
  refine (uncontrol_spec old _).bind fun m₁ hm₁ => .andThen fun q hq => .andThen fun monster hi => ?_
  obtain ⟨p, hp⟩ := hm₁
  obtain ⟨-, rfl⟩ := getMonster_eq_ok.1 hi
  refine MapPlayer.pushMonster_spec.bind fun q' hq' => .pure ⟨old, p, m₁, q, hold, hp, hq, ?_⟩
  obtain ⟨hlt, rfl⟩ := hq'
  exact ⟨hlt, rfl⟩

theorem Switched.controlOnly {i : ℕ} {player : PlayerRef} {m' : Map} (h : Switched m i player m') :
    ControlOnly m m' := by
  obtain ⟨old, p, m₁, q, -, hp, hq, -, rfl⟩ := h.eq
  refine hp.controlOnly.trans ((controlOnly_setMonster ?_).trans (controlOnly_setPlayer ?_))
  · rfl
  · exact (congrArg MapPlayer.ownership (getPlayer_eq_ok.1 hq).2.symm :)

theorem switchControl_boss (player : PlayerRef) :
    Exec.Ensures (m.switchControl .boss player) fun m' => ∃ old p q, m.boss.controller = some old ∧
      m.getPlayer old = .ok p ∧ m.getPlayer player = .ok q ∧
        m' = { m with boss := { m.boss with controller := some player } } := by
  refine .andThen fun monster hmonster => .bind (.deref fun old h => h) fun old hold => ?_
  cases hmonster
  exact .andThen fun p hp => .andThen fun q hq => .pure ⟨old, p, q, hold, hp, hq, rfl⟩

/-! ## Releasing control -/

theorem releaseControl_regular (i : ℕ) : Exec.Ensures (m.releaseControl (.regular i)) fun m' =>
    (m.monsters i).controller = none ∧ m' = m ∨ ∃ r p m₁, (m.monsters i).controller = some r ∧
      Uncontrolled m r (m.monsters i).indexInController p m₁ ∧
        m' = m₁.setMonster (m₁.monsterRef i) { m₁.monsters i with controller := none } := by
  refine .andThen fun monster hmonster => ?_
  obtain ⟨-, rfl⟩ := getMonster_eq_ok.1 hmonster
  split
  · rename_i hc
    exact .pure (.inl ⟨hc, rfl⟩)
  · rename_i r hc
    refine (uncontrol_spec r _).bind fun m₁ hm₁ => .andThen fun monster hi => .pure (.inr ?_)
    obtain ⟨p, hp⟩ := hm₁
    obtain ⟨-, rfl⟩ := getMonster_eq_ok.1 hi
    exact ⟨r, p, m₁, hc, hp, rfl⟩

theorem releaseControl_boss : Exec.Ensures (m.releaseControl .boss) fun m' =>
    m' = { m with boss := { m.boss with controller := none } } := by
  refine .andThen fun monster hmonster => ?_
  cases hmonster
  split
  · rename_i hc
    refine .pure ?_
    rw [← hc]
  · exact .pure rfl

theorem switchControl_controlOnly (place : MonsterPlace) (player : PlayerRef) :
    Exec.Ensures (m.switchControl place player) (ControlOnly m) := by
  rcases place with i | -
  · exact (switchControl_regular i player).mono fun m' hm' => hm'.controlOnly
  · refine (switchControl_boss player).mono ?_
    rintro m' ⟨-, -, -, -, -, -, rfl⟩
    exact ⟨_, _, _, rfl, rfl, rfl, rfl⟩

theorem releaseControl_controlOnly (place : MonsterPlace) :
    Exec.Ensures (m.releaseControl place) (ControlOnly m) := by
  rcases place with i | -
  · refine (releaseControl_regular i).mono ?_
    rintro m' (⟨-, rfl⟩ | ⟨r, p, m₁, -, hp, rfl⟩)
    · exact .refl _
    · exact hp.controlOnly.trans (controlOnly_setMonster rfl)
  · refine releaseControl_boss.mono ?_
    rintro m' rfl
    exact ⟨_, _, _, rfl, rfl, rfl, rfl⟩

/-! ## What leaves the things where they are -/

variable {m' : Map}

/-- The things on the map are the same, the dropping batches are where they were, and there is as much room
    for monsters. -/
structure Steady (m m' : Map) : Prop where
  things : m'.things = m.things
  droppers : m'.droppers = m.droppers
  room : m.monsterCapacity ≤ m'.monsterCapacity

theorem Steady.refl (m : Map) : Steady m m := ⟨rfl, rfl, le_rfl⟩

theorem Steady.trans {m₁ m₂ : Map} (h : Steady m m₁) (h' : Steady m₁ m₂) : Steady m m₂ :=
  ⟨h'.things.trans h.things, h'.droppers.trans h.droppers, h.room.trans h'.room⟩

/-- What is kept from where the things were the same is kept. -/
theorem Steady.of_eq {m₁ : Map} (h : Steady m₁ m') (hthings : m₁.things = m.things)
    (hdroppers : m₁.droppers = m.droppers) (hroom : m₁.monsterCapacity = m.monsterCapacity) :
    Steady m m' := ⟨h.things.trans hthings, h.droppers.trans hdroppers, hroom.ge.trans h.room⟩

theorem steady_setMonster {r : MonsterRef} {monster monster' : MapMonster}
    (hr : m.getMonster r = .ok monster) (h : monster'.bare = monster.bare) :
    Steady m (m.setMonster r monster') := by
  refine ⟨things_setMonster ?_, rfl, le_rfl⟩
  rw [(getMonster_eq_ok.1 hr).2, h]

theorem steady_setBatch {id : ℕ} {b b' : DropBatch} (hb : m.batch id = some b) (h : b'.bare = b.bare) :
    Steady m (m.setBatch id (some b')) := ⟨things_setBatch hb h, rfl, le_rfl⟩

theorem steady_setDropping {id : ℕ} {b b' : DroppingBatch} (hb : m.dropping id = some b)
    (h : b'.bare = b.bare) (hdropper : b'.dropper = b.dropper) :
    Steady m (m.setDropping id (some b')) :=
  ⟨things_setDropping hb h, droppers_setDropping hb hdropper, le_rfl⟩

/-! ### Joining -/

theorem repoint_steady (controller : Option PlayerRef) (p : MapPlayer) :
    Exec.Ensures (m.repoint controller p) (Steady m) := by
  refine .foldlM (.refl m) fun j _ m' hm' => .andThen fun ref _ => .andThen fun monster hmonster => ?_
  exact .pure (hm'.trans (steady_setMonster hmonster rfl))

theorem repointPlayer_steady (i : ℕ) : Exec.Ensures (m.repointPlayer i) (Steady m) := by
  refine Exec.Ensures.bind (P := Steady m) ?_ fun m₁ h₁ => (repoint_steady _ _).mono fun _ h₂ => h₁.trans h₂
  exact .andThen fun id _ => .andThen fun n _ => .pure ⟨rfl, rfl, le_rfl⟩

theorem growPlayers_steady (o : Outcomes) :
    Exec.Ensures (m.growPlayers o) fun grown => ∀ m', grown = some m' → Steady m m' := by
  rw [growPlayers]
  split
  · exact .pure (by rintro m' ⟨⟩)
  · obtain ⟨block, hblock⟩ : ∃ block, (if o.moves then { m with playersBlock := m.playersBlock + 1 } else m) =
        { m with playersBlock := block } := by
      split <;> exact ⟨_, rfl⟩
    dsimp only
    rw [hblock]
    refine .bind (P := Steady m) (.foldlM ⟨rfl, rfl, le_rfl⟩ fun i _ m' hm' => ?_) fun m₁ h₁ => .pure ?_
    · exact (repointPlayer_steady i).mono fun _ h => hm'.trans h
    · rintro m' ⟨⟩
      exact h₁.trans ⟨rfl, rfl, le_rfl⟩

theorem controlAll_steady (r : PlayerRef) (p : MapPlayer) :
    Exec.Ensures (m.controlAll r p) fun x => Steady m x.2 := by
  refine .foldlM (Steady.refl m) ?_
  rintro i - ⟨q, m'⟩ hm'
  refine .andThen fun monster hmonster => ?_
  split
  · exact .andThen fun q' _ => .pure (hm'.trans (steady_setMonster hmonster rfl))
  · exact .pure hm'

theorem ownBatches_steady (charId : UInt32) (r : PlayerRef) :
    Exec.Ensures (m.ownBatches charId r) fun x => Steady m x.2 := by
  refine .foldlM (Steady.refl m) ?_
  rintro i - ⟨count, m'⟩ hm'
  dsimp only
  split
  · exact .pure hm'
  · refine .bind (.deref fun b h => h) fun b hb => ?_
    split
    · exact .pure (hm'.trans (steady_setBatch hb rfl))
    · exact .pure hm'

theorem listBatches_steady (charId : UInt32) (p : MapPlayer) :
    Exec.Ensures (m.listBatches charId p) fun x => Steady m x.2 := by
  refine .foldlM (Steady.refl m) ?_
  rintro i - ⟨q, m'⟩ hm'
  dsimp only
  split
  · exact .pure hm'
  · refine .bind (.deref fun b h => h) fun b hb => ?_
    split
    · exact .andThen fun q' _ => .pure (hm'.trans (steady_setBatch hb rfl))
    · exact .pure hm'

theorem ownDroppings_steady (charId : UInt32) (r : PlayerRef) :
    Exec.Ensures (m.ownDroppings charId r) fun x => Steady m x.2 := by
  refine .foldlM (Steady.refl m) ?_
  rintro i - ⟨count, m'⟩ hm'
  refine .bind (.deref fun b h => h) fun b hb => ?_
  split
  · exact .pure (hm'.trans (steady_setDropping hb rfl rfl))
  · exact .pure hm'

theorem listDroppings_steady (r : PlayerRef) (p : MapPlayer) :
    Exec.Ensures (m.listDroppings r p) fun x => Steady m x.2 := by
  refine .foldlM (Steady.refl m) ?_
  rintro i - ⟨q, m'⟩ hm'
  refine .bind (.deref fun b h => h) fun b hb => ?_
  split
  · exact .andThen fun q' _ => .pure (hm'.trans (steady_setDropping hb rfl rfl))
  · exact .pure hm'

theorem joinDrops_steady (o : Outcomes) (charId : UInt32) (r : PlayerRef) (p : MapPlayer) :
    Exec.Ensures (m.joinDrops o charId r p) fun x => Steady m x.2 := by
  refine (ownBatches_steady charId r).bind fun x h₁ => ?_
  obtain ⟨count, m₁⟩ := x
  refine (listBatches_steady charId _).bind fun x h₂ => ?_
  obtain ⟨p₁, m₂⟩ := x
  refine (ownDroppings_steady charId r).bind fun x h₃ => ?_
  obtain ⟨count', m₃⟩ := x
  exact (listDroppings_steady r _).mono fun x h₄ => ((h₁.trans h₂).trans h₃).trans h₄

/-- The player gets a node of the heap, and his drops. -/
theorem joinAt_rest (o : Outcomes) (client : ℕ) (charId : UInt32) (r : PlayerRef) (p : MapPlayer) :
    Exec.Ensures (do
      let (node, heap) ← heapPush (o.alloc 2) (o.alloc 3) m.heap p.monsterCount r
      let m := { m with heap := heap }
      let p := { p with node := node }
      if node = none then
        return m.setPlayer r { p with monsterSize := 0 }
      let (p, m) ← m.joinDrops o charId r { p with charId := charId }
      let m := if m.boss.oid ≠ 0xFFFFFFFF ∧ m.boss.controller = none then
          { m with boss := { m.boss with controller := some r } }
        else m
      let m := m.setPlayer r { p with container := client }
      return { m with playerCount := m.playerCount + 1 }) (Steady m) := by
  refine .andThen fun x _ => ?_
  obtain ⟨node, heap⟩ := x
  dsimp only
  split
  · exact .pure ⟨rfl, rfl, le_rfl⟩
  · refine (joinDrops_steady o charId _ _).bind fun x h₁ => .pure ?_
    obtain ⟨p₁, m₁⟩ := x
    have h₁ : Steady m m₁ := h₁.of_eq rfl rfl rfl
    dsimp only
    split
    · exact h₁.trans ⟨rfl, rfl, le_rfl⟩
    · exact h₁.trans ⟨rfl, rfl, le_rfl⟩

theorem joinAt_steady (o : Outcomes) (client : ℕ) (charId : UInt32) :
    Exec.Ensures (m.joinAt o client charId) (Steady m) := by
  rw [joinAt]
  refine .andThen fun _ _ => ?_
  dsimp only
  split
  · exact .pure ⟨rfl, rfl, le_rfl⟩
  · split
    · refine (controlAll_steady _ _).bind fun x h₁ => ?_
      exact (joinAt_rest o client charId _ x.1).mono fun m₂ h₂ => (h₁.trans h₂).of_eq rfl rfl rfl
    · exact (joinAt_rest o client charId _ _).mono fun m₂ h₂ => h₂.of_eq rfl rfl rfl

theorem mapJoin_steady (o : Outcomes) (client : ℕ) (charId : UInt32) :
    Exec.Ensures (mapJoin o m client charId) (Steady m) := by
  rw [mapJoin]
  split
  · refine (growPlayers_steady o).bind fun grown hgrown => ?_
    rcases grown with - | m₁
    · exact .pure (.refl m)
    · exact (joinAt_steady o client charId).mono fun m₂ h => (hgrown m₁ rfl).trans h
  · exact joinAt_steady o client charId

/-! ### Leaving -/

theorem handOver_steady (p : MapPlayer) (next : PlayerRef) :
    Exec.Ensures (m.handOver p next) (Steady m) := by
  refine .foldlM (.refl m) fun j _ m' hm' => .andThen fun ref _ => .andThen fun q _ =>
    .andThen fun monster hmonster => .andThen fun q' _ => .pure ?_
  have hset : Steady m' (m'.setMonster ref { monster with
      controller := some next, indexInController := q.monsterCount }) := steady_setMonster hmonster rfl
  exact (hm'.trans hset).trans ⟨rfl, rfl, le_rfl⟩

theorem disown_steady (p : MapPlayer) : Exec.Ensures (m.disown p) (Steady m) := by
  refine .bind (P := Steady m) (.foldlM (.refl m) fun j _ m' hm' => ?_) fun m₁ h₁ =>
    .foldlM h₁ fun j _ m' hm' => ?_
  · exact .andThen fun id _ => .bind (.deref fun b h => h) fun b hb =>
      .pure (hm'.trans (steady_setBatch hb rfl))
  · exact .andThen fun id _ => .bind (.deref fun b h => h) fun b hb =>
      .pure (hm'.trans (steady_setDropping hb rfl rfl))

theorem fillPlace_steady (r : PlayerRef) : Exec.Ensures (m.fillPlace r) (Steady m) := by
  refine .andThen fun last _ => ?_
  split
  · exact (repointPlayer_steady _).mono fun _ h => h.of_eq rfl rfl rfl
  · exact .pure (.refl m)

theorem mapLeave_steady (r : PlayerRef) : Exec.Ensures (mapLeave m r) (Steady m) := by
  refine .andThen fun p _ => .andThen fun heap _ => ?_
  dsimp only
  split
  · refine .andThen fun n _ => (handOver_steady p _).bind fun m₁ h₁ => ?_
    have h₁ : Steady m m₁ := h₁.of_eq rfl rfl rfl
    refine .bind (P := Steady m) ?_ fun m₂ h₂ => (fillPlace_steady r).bind fun m₃ h₃ =>
      .pure ((h₂.trans h₃).trans ⟨rfl, rfl, le_rfl⟩)
    refine (disown_steady p).mono fun m₂ h₂ => Steady.trans ?_ h₂
    split
    · exact h₁.trans ⟨rfl, rfl, le_rfl⟩
    · exact h₁
  · refine (repoint_steady none p).bind fun m₁ h₁ => (disown_steady p).bind fun m₂ h₂ => .pure ?_
    have h₁ : Steady m m₁ := h₁.of_eq rfl rfl rfl
    have h₂ : Steady m₁ m₂ := h₂.of_eq rfl rfl rfl
    exact (h₁.trans h₂).trans ⟨rfl, rfl, le_rfl⟩

/-! ### Making room for monsters -/

theorem growControlled_eq (alloc : ℕ → Bool) (m : Map) (n : ℕ) :
    ∃ players, (m.growControlled alloc n).2 = { m with players := players } := by
  induction n with
  | zero => exact ⟨m.players, rfl⟩
  | succ n ih =>
    obtain ⟨players, hplayers⟩ := ih
    rw [growControlled]
    dsimp only
    rw [hplayers]
    split
    · exact ⟨_, rfl⟩
    · exact ⟨_, rfl⟩

theorem growMonsters_steady (o : Outcomes) :
    Exec.Ensures (m.growMonsters o) fun x => Steady m x.2 ∧
      (x.1 = true → m.monsterCapacity * 2 ≤ x.2.monsterCapacity) := by
  rw [growMonsters]
  split
  · exact .pure ⟨.refl m, fun h => by cases h⟩
  · obtain ⟨block, hblock⟩ : ∃ block, (if o.moves then { m with monstersBlock := m.monstersBlock + 1 } else m) =
        { m with monstersBlock := block } := by
      split <;> exact ⟨_, rfl⟩
    dsimp only
    rw [hblock]
    obtain ⟨players, hplayers⟩ :=
      growControlled_eq o.alloc { m with monstersBlock := block } m.playerCount
    split
    · rename_i m₁ hgrown
      rw [hgrown] at hplayers
      obtain rfl : m₁ = _ := hplayers
      exact .pure ⟨⟨rfl, rfl, le_rfl⟩, fun h => by cases h⟩
    · rename_i m₁ hgrown
      rw [hgrown] at hplayers
      obtain rfl : m₁ = _ := hplayers
      refine .bind (P := Steady m) (.foldlM ⟨rfl, rfl, le_rfl⟩ fun i _ m' hm' => ?_) fun m₂ h₂ =>
        .pure ⟨h₂.trans ⟨rfl, rfl, Nat.le_mul_of_pos_right _ Nat.two_pos⟩, fun _ => ?_⟩
      · exact .andThen fun monster _ => .andThen fun r _ => .andThen fun p _ => .andThen fun p' _ =>
          .pure (hm'.trans ⟨rfl, rfl, le_rfl⟩)
      · exact Nat.mul_le_mul_right 2 h₂.room

end Map

end Syrup
