import Syrup.Map.Timers
import Syrup.Map.Views

/-!
# The lists of players

What the functions do that only write to the lists of batches that players have, and to the batches in
these lists: neither what is on the map depends on it, nor who controls the monsters.
-/

namespace Syrup

/-! ## Reads and writes -/

/-- The list of batches of a player after one has been taken out. -/
def MapPlayer.unlistDrop (keeps alloc : Bool) (p : MapPlayer) (i : ℕ) : MapPlayer :=
  let p := { p with
    drops := Function.update p.drops i (p.drops (p.dropCount - 1)), dropCount := p.dropCount - 1 }
  if p.dropCount < p.dropCapacity / 4 then
    if alloc then { p with dropCapacity := p.dropCapacity / 2, dropSize := p.dropSize / 2 }
    else if keeps then p
    else { p with dropCapacity := p.dropCapacity / 2, dropSize := 0 }
  else p

/-- The list of dropping batches of a player after one has been taken out. -/
def MapPlayer.unlistDropping (alloc : Bool) (p : MapPlayer) (i : ℕ) : MapPlayer :=
  let p := { p with
    droppings := Function.update p.droppings i (p.droppings (p.droppingCount - 1))
    droppingCount := p.droppingCount - 1 }
  if p.droppingCount < p.droppingCapacity / 4 ∧ alloc then
    { p with droppingCapacity := p.droppingCapacity / 2, droppingSize := p.droppingSize / 2 }
  else p

/-- The list of batches of a player after it has been made larger, if need be. -/
def MapPlayer.growDrop (p : MapPlayer) : MapPlayer :=
  if p.dropCount = p.dropCapacity then
    { p with dropCapacity := p.dropCapacity * 2, dropSize := p.dropCapacity * 2 }
  else p

namespace MapPlayer

variable {p : MapPlayer} {j : ℕ}

theorem readMonster_spec :
    Exec.Ensures (p.readMonster j) fun ref => j < p.monsterSize ∧ ref = p.monsters j :=
  Exec.within_spec.bind fun _ h => .pure ⟨h, rfl⟩

theorem writeMonster_spec {ref : MonsterRef} : Exec.Ensures (p.writeMonster j ref) fun p' =>
    j < p.monsterSize ∧ p' = { p with monsters := Function.update p.monsters j ref } :=
  Exec.within_spec.bind fun _ h => .pure ⟨h, rfl⟩

theorem pushMonster_spec {ref : MonsterRef} : Exec.Ensures (p.pushMonster ref) fun p' =>
    p.monsterCount < p.monsterSize ∧ p' = { p with
      monsters := Function.update p.monsters p.monsterCount ref
      monsterCount := p.monsterCount + 1 } :=
  writeMonster_spec.bind fun p' h => by
    obtain ⟨hlt, rfl⟩ := h
    exact .pure ⟨hlt, rfl⟩

theorem readDrop_spec : Exec.Ensures (p.readDrop j) fun id => j < p.dropSize ∧ id = p.drops j :=
  Exec.within_spec.bind fun _ h => .pure ⟨h, rfl⟩

theorem writeDrop_spec {batch : ℕ} : Exec.Ensures (p.writeDrop j batch) fun p' =>
    j < p.dropSize ∧ p' = { p with drops := Function.update p.drops j batch } :=
  Exec.within_spec.bind fun _ h => .pure ⟨h, rfl⟩

theorem pushDrop_spec {batch : ℕ} : Exec.Ensures (p.pushDrop batch) fun p' =>
    p.dropCount < p.dropSize ∧ p' = { p with
      drops := Function.update p.drops p.dropCount batch, dropCount := p.dropCount + 1 } :=
  writeDrop_spec.bind fun p' h => by
    obtain ⟨hlt, rfl⟩ := h
    exact .pure ⟨hlt, rfl⟩

theorem readDropping_spec :
    Exec.Ensures (p.readDropping j) fun id => j < p.droppingSize ∧ id = p.droppings j :=
  Exec.within_spec.bind fun _ h => .pure ⟨h, rfl⟩

theorem writeDropping_spec {batch : ℕ} : Exec.Ensures (p.writeDropping j batch) fun p' =>
    j < p.droppingSize ∧ p' = { p with droppings := Function.update p.droppings j batch } :=
  Exec.within_spec.bind fun _ h => .pure ⟨h, rfl⟩

theorem pushDropping_spec {batch : ℕ} : Exec.Ensures (p.pushDropping batch) fun p' =>
    p.droppingCount < p.droppingSize ∧ p' = { p with
      droppings := Function.update p.droppings p.droppingCount batch
      droppingCount := p.droppingCount + 1 } :=
  writeDropping_spec.bind fun p' h => by
    obtain ⟨hlt, rfl⟩ := h
    exact .pure ⟨hlt, rfl⟩

end MapPlayer

theorem MapPlayer.unlistDrop_control (keeps alloc : Bool) (p : MapPlayer) (i : ℕ) :
    (p.unlistDrop keeps alloc i).control = p.control := by
  simp only [unlistDrop]
  split_ifs <;> rfl

theorem MapPlayer.unlistDropping_control (alloc : Bool) (p : MapPlayer) (i : ℕ) :
    (p.unlistDropping alloc i).control = p.control := by
  simp only [unlistDropping]
  split_ifs <;> rfl

theorem MapPlayer.growDrop_control (p : MapPlayer) : p.growDrop.control = p.control := by
  rw [growDrop]
  split <;> rfl

namespace Map

variable {m : Map}

theorem getPlayer_eq_ok {r : PlayerRef} {p : MapPlayer} : m.getPlayer r = .ok p ↔
    (r.block = m.playersBlock ∧ r.index < m.playerCapacity) ∧ m.players r.index = p := by
  rw [getPlayer]
  split
  · rename_i h
    rw [and_iff_right h]
    exact ⟨Except.ok.inj, congrArg Except.ok⟩
  · rename_i h
    exact iff_of_false nofun fun h' => h h'.1

theorem getMonster_eq_ok {r : MonsterRef} {monster : MapMonster} : m.getMonster r = .ok monster ↔
    (r.block = m.monstersBlock ∧ r.index < m.monsterCapacity) ∧ m.monsters r.index = monster := by
  rw [getMonster]
  split
  · rename_i h
    rw [and_iff_right h]
    exact ⟨Except.ok.inj, congrArg Except.ok⟩
  · rename_i h
    exact iff_of_false nofun fun h' => h h'.1

theorem stopTimer_spec (timer : Option ℕ) :
    Exec.Ensures (m.stopTimer timer) fun m' => ∃ timers, m' = { m with timers := timers } :=
  .bind (.deref fun _ h => h) fun _ _ => .bind (.deref fun _ h => h) fun _ _ => .pure ⟨_, rfl⟩

/-! ## Batches that are taken out of a list -/

theorem unlistBatch_spec (keeps alloc : Bool) (batch : DropBatch) :
    Exec.Ensures (m.unlistBatch keeps alloc batch) fun m' => (batch.owner = none ∧ m' = m) ∨
      ∃ r p b, batch.owner = some r ∧ m.getPlayer r = .ok p ∧ 0 < p.dropCount ∧
        p.dropCount - 1 < p.dropSize ∧ m.batch (p.drops (p.dropCount - 1)) = some b ∧
        m' = (m.setBatch (p.drops (p.dropCount - 1))
          (some { b with indexInPlayer := batch.indexInPlayer })).setPlayer r
            (p.unlistDrop keeps alloc batch.indexInPlayer) := by
  rw [unlistBatch]
  split
  · rename_i howner
    exact .pure (.inl ⟨howner, rfl⟩)
  · rename_i r howner
    refine .andThen fun p hp => Exec.last_spec.bind fun last hlast => ?_
    obtain ⟨hpos, rfl⟩ := hlast
    refine MapPlayer.readDrop_spec.bind fun id hid => MapPlayer.writeDrop_spec.bind fun p' hp' => ?_
    obtain ⟨hread, rfl⟩ := hid
    obtain ⟨-, rfl⟩ := hp'
    refine .bind (.deref fun b hb => hb) fun b hb => .pure ?_
    exact .inr ⟨r, p, b, howner, hp, hpos, hread, hb, rfl⟩

theorem unlistBatch_things (keeps alloc : Bool) (batch : DropBatch) :
    Exec.Ensures (m.unlistBatch keeps alloc batch) fun m' => m'.things = m.things := by
  refine (unlistBatch_spec keeps alloc batch).mono ?_
  rintro m' (⟨-, rfl⟩ | ⟨r, p, b, -, -, -, -, hb, rfl⟩)
  · rfl
  · rw [things_setPlayer]
    exact things_setBatch hb rfl

theorem unlistBatch_control (keeps alloc : Bool) (batch : DropBatch) :
    Exec.Ensures (m.unlistBatch keeps alloc batch) fun m' => m'.control = m.control := by
  refine (unlistBatch_spec keeps alloc batch).mono ?_
  rintro m' (⟨-, rfl⟩ | ⟨r, p, b, -, hp, -, -, -, rfl⟩)
  · rfl
  · rw [control_setPlayer, control_setBatch]
    rw [MapPlayer.unlistDrop_control]
    exact congrArg MapPlayer.control (getPlayer_eq_ok.1 hp).2.symm

theorem unlistBatch_droppers (keeps alloc : Bool) (batch : DropBatch) :
    Exec.Ensures (m.unlistBatch keeps alloc batch) fun m' => m'.droppers = m.droppers := by
  refine (unlistBatch_spec keeps alloc batch).mono ?_
  rintro m' (⟨-, rfl⟩ | ⟨r, p, b, -, -, -, -, -, rfl⟩) <;> rfl

theorem unlistDropping_spec (alloc : Bool) (batch : DroppingBatch) :
    Exec.Ensures (m.unlistDropping alloc batch) fun m' => (batch.owner = none ∧ m' = m) ∨
      ∃ r p b, batch.owner = some r ∧ m.getPlayer r = .ok p ∧ 0 < p.droppingCount ∧
        p.droppingCount - 1 < p.droppingSize ∧ m.dropping (p.droppings (p.droppingCount - 1)) = some b ∧
        m' = (m.setDropping (p.droppings (p.droppingCount - 1))
          (some { b with indexInPlayer := batch.indexInPlayer })).setPlayer r
            (p.unlistDropping alloc batch.indexInPlayer) := by
  rw [unlistDropping]
  split
  · rename_i howner
    exact .pure (.inl ⟨howner, rfl⟩)
  · rename_i r howner
    refine .andThen fun p hp => Exec.last_spec.bind fun last hlast => ?_
    obtain ⟨hpos, rfl⟩ := hlast
    refine MapPlayer.readDropping_spec.bind fun id hid =>
      MapPlayer.writeDropping_spec.bind fun p' hp' => ?_
    obtain ⟨hread, rfl⟩ := hid
    obtain ⟨-, rfl⟩ := hp'
    refine .bind (.deref fun b hb => hb) fun b hb => .pure ?_
    exact .inr ⟨r, p, b, howner, hp, hpos, hread, hb, rfl⟩

theorem unlistDropping_things (alloc : Bool) (batch : DroppingBatch) :
    Exec.Ensures (m.unlistDropping alloc batch) fun m' => m'.things = m.things := by
  refine (unlistDropping_spec alloc batch).mono ?_
  rintro m' (⟨-, rfl⟩ | ⟨r, p, b, -, -, -, -, hb, rfl⟩)
  · rfl
  · rw [things_setPlayer]
    exact things_setDropping hb rfl

theorem unlistDropping_control (alloc : Bool) (batch : DroppingBatch) :
    Exec.Ensures (m.unlistDropping alloc batch) fun m' => m'.control = m.control := by
  refine (unlistDropping_spec alloc batch).mono ?_
  rintro m' (⟨-, rfl⟩ | ⟨r, p, b, -, hp, -, -, -, rfl⟩)
  · rfl
  · rw [control_setPlayer, control_setDropping]
    rw [MapPlayer.unlistDropping_control]
    exact congrArg MapPlayer.control (getPlayer_eq_ok.1 hp).2.symm

theorem unlistDropping_droppers (alloc : Bool) (batch : DroppingBatch) :
    Exec.Ensures (m.unlistDropping alloc batch) fun m' => m'.droppers = m.droppers := by
  refine (unlistDropping_spec alloc batch).mono ?_
  rintro m' (⟨-, rfl⟩ | ⟨r, p, b, -, -, -, -, hb, rfl⟩)
  · rfl
  · exact droppers_setDropping hb rfl

/-- Only the dropping batches and the players are written to. -/
theorem unlistDropping_eq (alloc : Bool) (batch : DroppingBatch) :
    Exec.Ensures (m.unlistDropping alloc batch) fun m' =>
      ∃ dropping players, m' = { m with dropping := dropping, players := players } ∧
        (fun id => (dropping id).map DroppingBatch.bare) =
          (fun id => (m.dropping id).map DroppingBatch.bare) ∧
        (fun id => (dropping id).map DroppingBatch.dropper) =
          (fun id => (m.dropping id).map DroppingBatch.dropper) ∧
        (fun i => (players i).control) = fun i => (m.players i).control := by
  have hspec := (unlistDropping_spec (m := m) alloc batch).and ((unlistDropping_things alloc batch).and
    ((unlistDropping_droppers alloc batch).and (unlistDropping_control alloc batch)))
  refine hspec.mono ?_
  rintro m' ⟨hm', hthings, hdroppers, hcontrol⟩
  refine ⟨m'.dropping, m'.players, ?_, congrArg Map.dropping hthings, congrArg Prod.fst hdroppers,
    congrArg Map.players hcontrol⟩
  rcases hm' with ⟨-, rfl⟩ | ⟨r, p, b, -, -, -, -, -, rfl⟩ <;> rfl

/-! ## Lists that are made larger -/

theorem growDrops_spec (alloc : Bool) (r : PlayerRef) :
    Exec.Ensures (m.growDrops alloc r) fun grown => ∀ m', grown = some m' →
      ∃ p, m.getPlayer r = .ok p ∧ m' = m.setPlayer r p.growDrop := by
  refine .andThen fun p hp => ?_
  split
  · rename_i hfull
    split
    · refine .pure fun m' hm' => ⟨p, hp, ?_⟩
      rw [MapPlayer.growDrop, if_pos hfull]
      exact (Option.some.inj hm').symm
    · exact .pure nofun
  · rename_i hfull
    refine .pure fun m' hm' => ⟨p, hp, ?_⟩
    obtain rfl := Option.some.inj hm'
    rw [MapPlayer.growDrop, if_neg hfull, setPlayer, ← (getPlayer_eq_ok.1 hp).2,
      Function.update_eq_self]

end Map

end Syrup
