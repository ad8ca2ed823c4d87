import Syrup.Map.Places.Timers

/-!
# What dropping batches drop from

A dropping batch knows what it drops from, and takes it away when everything has been dropped. That is
a reactor, or a dead monster that is still on the map, and no other batch drops from it
(`Droppers`): so it is there when it is to be taken away.
-/

namespace Syrup

open BackLinks

namespace Map

variable {env : Env} {m m' : Map} {except : Option ℕ} {oid : UInt32}

/-- A monster on the map that has no hit points left. -/
def Corpse (m : Map) (oid : UInt32) : Prop :=
  (∃ i < m.monsterCount, (m.monsters i).oid = oid ∧ (m.monsters i).hp ≤ 0) ∨
    m.boss.oid ≠ 0xFFFFFFFF ∧ m.boss.oid = oid ∧ m.boss.hp ≤ 0

/-- A reactor. -/
def IsReactor (m : Map) (oid : UInt32) : Prop := ∃ reactor ∈ m.reactors, reactor.oid = oid

/-- The dropping batches, but for one, drop from what is there. -/
structure Droppers (except : Option ℕ) (m : Map) : Prop where
  dropper : ∀ id b, m.dropping id = some b → some id ≠ except →
    m.Corpse b.dropperOid ∨ m.IsReactor b.dropperOid
  once : ∀ id id' b b', m.dropping id = some b → m.dropping id' = some b' → some id ≠ except →
    some id' ≠ except → b.dropperOid = b'.dropperOid → id = id' ∨ m.IsReactor b.dropperOid

/-- What a dropping batch drops from. -/
def dropperOf (m : Map) (id : ℕ) : Option UInt32 := (m.dropping id).map DroppingBatch.dropperOid

theorem dropperOf_of_droppers (h : m'.droppers = m.droppers) : m'.dropperOf = m.dropperOf := by
  funext id
  have hid : (m'.dropping id).map DroppingBatch.dropper =
      (m.dropping id).map DroppingBatch.dropper := congrFun (congrArg Prod.fst h) id
  have hmap := congrArg (Option.map fun d : UInt32 × Option ℕ × ℕ => d.1) hid
  rwa [Option.map_map, Option.map_map] at hmap

theorem dropperOf_eq_some {id : ℕ} {b : DroppingBatch} (hb : m.dropping id = some b) :
    m.dropperOf id = some b.dropperOid := by
  rw [dropperOf, hb, Option.map_some]

theorem exists_dropping {id : ℕ} (h : m.dropperOf id = some oid) :
    ∃ b, m.dropping id = some b ∧ b.dropperOid = oid := Option.map_eq_some_iff.1 h

/-- `Droppers`, about what the batches drop from. -/
theorem droppers_iff : Droppers except m ↔
    (∀ id oid, m.dropperOf id = some oid → some id ≠ except → m.Corpse oid ∨ m.IsReactor oid) ∧
      ∀ id id' oid, m.dropperOf id = some oid → m.dropperOf id' = some oid → some id ≠ except →
        some id' ≠ except → id = id' ∨ m.IsReactor oid := by
  constructor
  · intro h
    refine ⟨fun id oid hid hne => ?_, fun id id' oid hid hid' hne hne' => ?_⟩
    · obtain ⟨b, hb, rfl⟩ := exists_dropping hid
      exact h.dropper id b hb hne
    · obtain ⟨b, hb, rfl⟩ := exists_dropping hid
      obtain ⟨b', hb', he⟩ := exists_dropping hid'
      exact h.once id id' b b' hb hb' hne hne' he.symm
  · rintro ⟨h, hone⟩
    refine ⟨fun id b hb hne => h id _ (dropperOf_eq_some hb) hne, fun id id' b b' hb hb' hne hne' he => ?_⟩
    exact hone id id' _ (dropperOf_eq_some hb) (he ▸ dropperOf_eq_some hb') hne hne'

/-- What drops stays what it is: dead monsters stay dead and on the map, as long as batches drop from
    them. -/
theorem Droppers.mono {except' : Option ℕ} (h : Droppers except m)
    (hof : ∀ id, m'.dropperOf id ≠ none → some id ≠ except' →
      some id ≠ except ∧ m'.dropperOf id = m.dropperOf id)
    (hcorpse : ∀ id oid, m.dropperOf id = some oid → some id ≠ except → m.Corpse oid → m'.Corpse oid)
    (hreactor : m'.reactors = m.reactors) : Droppers except' m' := by
  obtain ⟨hdropper, honce⟩ := droppers_iff.1 h
  have hre (oid : UInt32) : m'.IsReactor oid ↔ m.IsReactor oid := by
    rw [IsReactor, hreactor, IsReactor]
  refine droppers_iff.2 ⟨fun id oid hid hne => ?_, fun id id' oid hid hid' hne hne' => ?_⟩
  · obtain ⟨hne₁, he⟩ := hof id (by rw [hid]; exact nofun) hne
    rw [he] at hid
    rw [hre]
    exact (hdropper id oid hid hne₁).imp_left (hcorpse id oid hid hne₁)
  · obtain ⟨hne₁, he⟩ := hof id (by rw [hid]; exact nofun) hne
    obtain ⟨hne₂, he'⟩ := hof id' (by rw [hid']; exact nofun) hne'
    rw [he] at hid
    rw [he'] at hid'
    rw [hre]
    exact honce id id' oid hid hid' hne₁ hne₂

/-- That does not depend on anything else. -/
theorem Droppers.of_dropsOnly (h : Droppers except m) (hm' : DropsOnly env m m') :
    Droppers except m' := by
  refine h.mono (fun id _ hne => ⟨hne, congrFun (dropperOf_of_droppers hm'.droppers) id⟩)
    (fun id oid _ _ hc => ?_) (congrArg (fun m => m.reactors) hm'.control)
  have hcorpse : m'.control.Corpse oid := hm'.control ▸ hc
  exact hcorpse

/-! ## Corpses -/

/-- A dead monster is where its object tells. -/
theorem Placed.corpse (h : Placed env m) (hc : m.Corpse oid) :
    (∃ i, m.placeOf env oid = some ⟨.monster, i, 0⟩ ∧ (m.monsters i).hp ≤ 0) ∨
      m.placeOf env oid = some ⟨.boss, 0, 0⟩ ∧ m.boss.hp ≤ 0 := by
  rcases hc with ⟨i, hi, hoid, hhp⟩ | ⟨hne, hoid, hhp⟩
  · exact .inl ⟨i, (h.linked ..).2 (slot_monster_eq_some.2 ⟨rfl, hi, hoid⟩), hhp⟩
  · exact .inr ⟨(h.linked ..).2 (slot_boss_eq_some.2 ⟨⟨rfl, rfl⟩, hne, hoid⟩), hhp⟩

/-- So is a reactor. -/
theorem Placed.reactor (h : Placed env m) (hr : m.IsReactor oid) :
    ∃ i, m.placeOf env oid = some ⟨.reactor, i, 0⟩ := by
  obtain ⟨reactor, hmem, rfl⟩ := hr
  obtain ⟨i, hi⟩ := List.mem_iff_getElem?.1 hmem
  refine ⟨i, (h.linked ..).2 ?_⟩
  rw [slot, if_pos rfl, hi, Option.map_some]

/-- Other dead monsters stay when a monster is taken out of the array. -/
theorem corpse_withoutMonster {i : ℕ} (hi : i < m.monsterCount) (players : ℕ → MapPlayer)
    (hc : m.Corpse oid) (hne : oid ≠ (m.monsters i).oid) : (m.withoutMonster i players).Corpse oid := by
  rcases hc with ⟨k, hk, hoid, hhp⟩ | hb
  · have hki : k ≠ i := by
      rintro rfl
      exact hne hoid.symm
    by_cases hlast : k = m.monsterCount - 1
    · refine .inl ⟨i, by change i < m.monsterCount - 1; omega, ?_⟩
      change (Function.update m.monsters i _ i).oid = oid ∧ (Function.update m.monsters i _ i).hp ≤ 0
      rw [Function.update_self, ← hlast]
      exact ⟨hoid, hhp⟩
    · refine .inl ⟨k, by change k < m.monsterCount - 1; omega, ?_⟩
      change (Function.update m.monsters i _ k).oid = oid ∧ (Function.update m.monsters i _ k).hp ≤ 0
      rw [Function.update_of_ne hki]
      exact ⟨hoid, hhp⟩
  · exact .inr hb

/-- A monster goes that no dropping batch drops from, but for one. -/
structure Killed (env : Env) (except : Option ℕ) (m m' : Map) : Prop where
  placed : Placed env m'
  droppers : Droppers except m'
  same : m'.droppers = m.droppers
  drop : ∀ i j, m'.slot ⟨.drop, i, j⟩ = m.slot ⟨.drop, i, j⟩

theorem mapKillMonster_spec (h : Placed env m) (hd : Droppers except m) (alloc : Bool) {p : MapPlace}
    (hp : m.placeOf env oid = some p) (ht : p.type = .monster ∨ p.type = .boss)
    (honly : ∀ id, m.dropperOf id = some oid → some id = except) :
    Exec.Ensures (mapKillMonster env alloc m oid) (Killed env except m) := by
  obtain ⟨t, i, j⟩ := p
  rcases ht with rfl | rfl
  · obtain ⟨rfl, hi, hoid⟩ := slot_monster_eq_some.1 ((h.linked ..).1 hp)
    refine (mapKillMonster_regular h alloc hp).mono ?_
    rintro m' ⟨hplaced, -, list, players, -, rfl⟩
    refine ⟨hplaced, hd.mono (fun _ _ hne => ⟨hne, rfl⟩) (fun id oid' hid hne hc => ?_) rfl,
      rfl, fun _ _ => rfl⟩
    refine corpse_withoutMonster hi players hc ?_
    rintro rfl
    exact hne (honly id (hoid ▸ hid))
  · obtain ⟨-, -, hoid⟩ := slot_boss_eq_some.1 ((h.linked ..).1 hp)
    refine (mapKillMonster_boss h alloc hp).mono ?_
    rintro m' ⟨hplaced, list, rfl⟩
    refine ⟨hplaced, hd.mono (fun _ _ hne => ⟨hne, rfl⟩) (fun id oid' hid hne hc => ?_) rfl,
      rfl, fun _ _ => rfl⟩
    rcases hc with hc | ⟨-, hoid', -⟩
    · exact .inl hc
    · exact absurd (honly id (hoid.symm.trans hoid' ▸ hid)) hne

/-- A batch starts dropping from what no other batch drops from. -/
theorem Droppers.of_started (hd : Droppers none m) (hm' : Started env m oid m')
    (hdead : m.Corpse oid ∨ m.IsReactor oid)
    (honly : ∀ id, m.dropperOf id = some oid → m.IsReactor oid) : Droppers none m' := by
  obtain ⟨hdropper, honce⟩ := droppers_iff.1 hd
  obtain ⟨b, rfl, -, hb⟩ := hm'.droppers
  have hof : m'.dropperOf = Function.update m.dropperOf m.nextBatch (some b.dropperOid) := by
    rw [dropperOf_of_droppers hb]
    funext id
    change (Function.update m.dropping m.nextBatch (some b) id).map _ = _
    by_cases he : id = m.nextBatch
    · rw [he, Function.update_self, Function.update_self, Option.map_some]
    · rw [Function.update_of_ne he, Function.update_of_ne he, dropperOf]
  have hcorpse (oid : UInt32) (hc : m.Corpse oid) : m'.Corpse oid := by
    have hcorpse : m'.control.Corpse oid := hm'.control ▸ hc
    exact hcorpse
  have hreactor (oid : UInt32) (hr : m.IsReactor oid) : m'.IsReactor oid := by
    have hreactor : m'.control.IsReactor oid := hm'.control ▸ hr
    exact hreactor
  refine droppers_iff.2 ⟨fun id oid hid hne => ?_, fun id id' oid hid hid' hne hne' => ?_⟩
  · rw [hof] at hid
    by_cases he : id = m.nextBatch
    · rw [he, Function.update_self] at hid
      cases hid
      exact hdead.imp (hcorpse _) (hreactor _)
    · rw [Function.update_of_ne he] at hid
      exact (hdropper id oid hid hne).imp (hcorpse _) (hreactor _)
  · rw [hof] at hid hid'
    by_cases he : id = m.nextBatch <;> by_cases he' : id' = m.nextBatch
    · exact .inl (he.trans he'.symm)
    · rw [he, Function.update_self] at hid
      rw [Function.update_of_ne he'] at hid'
      cases hid
      exact .inr (hreactor _ (honly id' hid'))
    · rw [he', Function.update_self] at hid'
      rw [Function.update_of_ne he] at hid
      cases hid'
      exact .inr (hreactor _ (honly id hid))
    · rw [Function.update_of_ne he] at hid
      rw [Function.update_of_ne he'] at hid'
      exact (honce id id' oid hid hid' hne hne').imp_right (hreactor _)

/-- A monster comes. -/
theorem Droppers.of_added {env : MapEnv} {id : UInt32} {spawnerIndex : Option ℕ}
    {controller : Option PlayerRef} (hd : Droppers except m)
    (hm' : Added env id spawnerIndex controller m m') : Droppers except m' := by
  obtain ⟨list, oid, hp, players, index, -, -, -, rfl⟩ := hm'.eq
  refine hd.mono (fun _ _ hne => ⟨hne, rfl⟩) (fun id oid' _ _ hc => ?_) rfl
  rcases hc with ⟨k, hk, hoid⟩ | hb
  · refine .inl ⟨k, Nat.lt_succ_of_lt hk, ?_⟩
    change (Function.update m.monsters m.monsterCount _ k).oid = oid' ∧
      (Function.update m.monsters m.monsterCount _ k).hp ≤ 0
    rw [Function.update_of_ne (Nat.ne_of_lt hk)]
    exact hoid
  · exact .inr hb

end Map

end Syrup
