import Syrup.Map.Damage.KillAll

/-!
# Every drop is found by its id

A map that `map_create` has made is `Settled`, and it stays so whatever happens on it: besides drops that
come and go there are players who join and leave, and monsters that come. Of a dropping batch no more drops
have been dropped than it has (`Counted`). So in every run each drop of the map is found by its id, in its
place, and what is found as a drop is one, in one place only (`Resolved`).
-/

namespace Syrup

open BackLinks

namespace Map

variable {env : Env} {m m' : Map}

/-! ## What should hold -/

/-- A drop with an id is in a place: of a batch in the window, or of a dropping batch that has dropped it. -/
def DropIn (m : Map) (oid : UInt32) : MapPlace → Prop
  | ⟨.drop, i, j⟩ => (m.dropBatchStart ≤ i ∧ i < m.dropBatchEnd) ∧ ∃ id b d, m.dropBatches i = some id ∧
    m.batch id = some b ∧ b.drops[j]? = some d ∧ d.oid = oid
  | ⟨.dropping, i, j⟩ => i < m.droppingBatchCount ∧ ∃ b d, m.dropping (m.droppingBatches i) = some b ∧
    j < b.current ∧ b.drops[j]? = some d ∧ d.oid = oid
  | _ => False

/-- Every drop of the map is found by its id, in its place; what is found as a drop is one, in one place; and
    every batch is in one place of its array. -/
structure Resolved (env : Env) (m : Map) : Prop where
  drop : ∀ i id, m.dropBatchStart ≤ i → i < m.dropBatchEnd → m.dropBatches i = some id →
    ∃ b, m.batch id = some b ∧ ∀ j d, b.drops[j]? = some d →
      objectListGet env m.objectList d.oid = some ⟨.drop, d.oid, i, j⟩
  dropping : ∀ i < m.droppingBatchCount, ∃ b, m.dropping (m.droppingBatches i) = some b ∧ b.index = i ∧
    b.current ≤ b.drops.length ∧ ∀ j d, j < b.current → b.drops[j]? = some d →
      objectListGet env m.objectList d.oid = some ⟨.dropping, d.oid, i, j⟩
  found : ∀ oid object, objectListGet env m.objectList oid = some object →
    object.type = .drop ∨ object.type = .dropping →
      m.DropIn oid object.place ∧ ∀ p, m.DropIn oid p → p = object.place
  batch : ∀ id, m.batch id ≠ none →
    ∃! i, (m.dropBatchStart ≤ i ∧ i < m.dropBatchEnd) ∧ m.dropBatches i = some id
  droppingBatch : ∀ id, m.dropping id ≠ none → ∃! i, i < m.droppingBatchCount ∧ m.droppingBatches i = id

/-! ## Drops that have been dropped -/

/-- No more drops of a batch have been dropped than it has. -/
def Counted (m : Map) : Prop := ∀ id b, m.dropping id = some b → b.current ≤ b.drops.length

theorem Counted.of_dropping (h : Counted m) (hm' : m'.dropping = m.dropping) : Counted m' := by
  intro id b hb
  rw [hm'] at hb
  exact h id b hb

theorem Counted.of_things (h : Counted m) (hm' : m'.things = m.things) : Counted m' := by
  intro id b hb
  obtain ⟨b', hb', hbare⟩ := dropping_of_things hm'.symm hb
  have hcurrent : b'.current = b.current := (congrArg DroppingBatch.current hbare :)
  have hdrops : b'.drops = b.drops := (congrArg DroppingBatch.drops hbare :)
  rw [← hcurrent, ← hdrops]
  exact h id b' hb'

/-- A dropping batch is written to. -/
theorem Counted.of_update (h : Counted m) {id : ℕ} {b : DroppingBatch} (hb : b.current ≤ b.drops.length)
    (hm' : m'.dropping = Function.update m.dropping id (some b)) : Counted m' := by
  intro id' b' hb'
  rw [hm'] at hb'
  rcases eq_or_ne id' id with rfl | hne
  · rw [Function.update_self] at hb'
    obtain rfl := Option.some.inj hb'
    exact hb
  · rw [Function.update_of_ne hne] at hb'
    exact h id' b' hb'

theorem Counted.freeDropping (h : Counted m) (id : ℕ) : Counted (m.setDropping id none) := by
  intro id' b hb
  change Function.update m.dropping id none id' = some b at hb
  rcases eq_or_ne id' id with rfl | hne
  · rw [Function.update_self] at hb
    cases hb
  · rw [Function.update_of_ne hne] at hb
    exact h id' b hb

/-! ### Taking away -/

theorem removeDropped_dropping (alloc : ℕ → Bool) (object : MapObject) :
    Exec.Ensures (m.removeDropped env alloc object) fun m' => m'.dropping = m.dropping := by
  refine Exec.Ensures.andThen fun _ _ => .andThen fun id _ => .andThen fun b _ => .andThen fun m₁ hm₁ => ?_
  obtain ⟨list, -, hm₁⟩ := Exec.bind_eq_ok.1 hm₁
  cases hm₁
  refine .andThen fun last _ => (replaceDrop_eq _ _ _ _).bind fun x hx => ?_
  obtain ⟨drops, m₂⟩ := x
  have hdropping : m₂.dropping = m.dropping := congrArg (fun s => s.2.1) hx.2
  have hskip (m' : Map) (hm' : m'.dropping = m.dropping) :
      Exec.Ensures (m'.skipHoles env (fun n => alloc (n + 2)) (m'.dropBatchEnd - m'.dropBatchStart))
        fun m' => m'.dropping = m.dropping :=
    (skipHoles_batches _ _).mono fun m'' h => (congrArg (fun s => s.2.1) h).trans hm'
  dsimp only
  split
  · refine (unlistBatch_spec _ _ _).bind fun m₃ hm₃ => (stopTimer_spec _).bind fun m₄ hm₄ => ?_
    obtain ⟨timers, rfl⟩ := hm₄
    refine hskip _ ?_
    rcases hm₃ with ⟨-, rfl⟩ | ⟨r, p, b, -, -, -, -, -, rfl⟩
    · exact hdropping
    · exact hdropping
  · exact hskip _ hdropping

theorem removeDropping_counted (h : Counted m) (alloc : ℕ → Bool) (object : MapObject) :
    Exec.Ensures (m.removeDropping env alloc object) Counted := by
  refine Exec.Ensures.andThen fun _ _ => ?_
  dsimp only
  refine .bind (.deref fun b hb => hb) fun b hb => .andThen fun m₁ hm₁ => ?_
  obtain ⟨list, -, hm₁⟩ := Exec.bind_eq_ok.1 hm₁
  cases hm₁
  refine Exec.last_spec.bind fun last hlast => (replaceDrop_eq _ _ _ _).bind fun x hx => ?_
  obtain ⟨hpos, rfl⟩ := hlast
  obtain ⟨⟨d, -, hdrops⟩, hbatches⟩ := hx
  obtain ⟨drops, m₂⟩ := x
  obtain rfl : drops = b.drops.set object.index2 d := hdrops
  have h₂ : Counted m₂ := h.of_dropping (congrArg (fun s => s.2.1) hbatches)
  have hcurrent := h _ b hb
  refine .andThen fun e _ => .pure (h₂.of_update ?_ rfl)
  dsimp only
  rw [List.length_dropLast, List.length_set, List.length_set]
  omega

theorem mapRemoveDrop_counted (h : Counted m) (alloc : ℕ → Bool) (oid : UInt32) :
    Exec.Ensures (mapRemoveDrop env alloc m oid) Counted := by
  refine .andThen fun object _ => ?_
  split
  · exact (removeDropped_dropping alloc object).mono fun m' hm' => h.of_dropping hm'
  · exact removeDropping_counted h alloc object

/-! ### Dropping -/

theorem allocateObject_eq (allocTable allocStack : Bool) (type : MapObjectType) (i j : ℕ) :
    Exec.Ensures (m.allocateObject env allocTable allocStack type i j) fun x =>
      ∃ list, x.2 = { m with objectList := list } := by
  refine .andThen fun y _ => ?_
  obtain ⟨o, list⟩ := y
  exact .andThen fun oid _ => .pure ⟨list, rfl⟩

theorem addBatch_dropping (alloc : ℕ → Bool) (r : PlayerRef) (timer : MapTimer) (exclusive : Bool)
    (item : DropItem) : Exec.Ensures (m.addBatch env alloc r timer exclusive item) fun x =>
      x.2.dropping = m.dropping := by
  rw [addBatch]
  split
  · exact .bind .error fun _ (h : False) => h.elim
  · refine (appendBatch_spec m.nextBatch).bind fun m₁ hm₁ => ?_
    rcases htimer : m₁.addTimer (alloc 1) timer with ⟨o, m₂⟩
    obtain ⟨timers, next, hm₂⟩ := addTimer_eq htimer
    refine (allocateObject_eq (alloc 2) (alloc 3) .drop _ 0).bind fun x hx => ?_
    obtain ⟨oid, m₃⟩ := x
    obtain ⟨list, hm₃⟩ := hx
    refine .andThen fun p _ => .andThen fun p' _ => .pure ?_
    change m₃ = _ at hm₃
    change m₃.dropping = m.dropping
    rw [hm₃, hm₂, hm₁]

theorem dropOne_counted (h : Counted m) (o : Outcomes) (r : PlayerRef) (item : DropItem) :
    Exec.Ensures (m.dropOne env o r item) fun x => Counted x.2 := by
  rw [dropOne]
  split
  · exact .pure h
  · rename_i m₁ hgrow
    obtain ⟨capacity, rfl⟩ := growBatches_eq hgrow
    refine (growDrops_spec (o.alloc 1) r).bind fun grown hgrown => ?_
    rcases grown with - | m₂
    · exact .pure (h.of_dropping rfl)
    · obtain ⟨p, -, rfl⟩ := hgrown m₂ rfl
      refine (addBatch_dropping _ r _ true item).bind fun x hx => ?_
      obtain ⟨oid, m₃⟩ := x
      have h₃ : Counted m₃ := h.of_dropping hx
      dsimp only
      split
      · exact (mapRemoveDrop_counted h₃ _ oid).bind fun m₄ h₄ => .pure h₄
      · exact .pure h₃

theorem mapAddPlayerDrop_counted (h : Counted m) (o : Outcomes) (r : PlayerRef) (item : DropItem) :
    Exec.Ensures (mapAddPlayerDrop env o m r item) Counted := by
  rw [mapAddPlayerDrop]
  split
  · exact .pure h
  · rename_i m₁ hgrow
    obtain ⟨capacity, rfl⟩ := growBatches_eq hgrow
    refine (growDrops_spec (o.alloc 1) r).bind fun grown hgrown => ?_
    rcases grown with - | m₂
    · exact .pure (h.of_dropping rfl)
    · obtain ⟨p, -, rfl⟩ := hgrown m₂ rfl
      exact (addBatch_dropping _ r _ false item).bind fun x hx => .pure (h.of_dropping hx)

theorem dropMany_counted (h : Counted m) (o : Outcomes) (r : PlayerRef) (dropperOid : UInt32)
    (first : DropItem) (rest : List DropItem) :
    Exec.Ensures (m.dropMany env o r dropperOid first rest) fun x => Counted x.2 := by
  rw [dropMany]
  split
  · exact .pure h
  · dsimp only
    obtain ⟨capacity, hcapacity⟩ : ∃ c, (if m.droppingBatchCount = m.droppingBatchCapacity then
      { m with droppingBatchCapacity := m.droppingBatchCapacity * 2 } else m) =
        { m with droppingBatchCapacity := c } := by
      split <;> exact ⟨_, rfl⟩
    rw [hcapacity]
    refine .andThen fun p _ => ?_
    split
    · exact .pure (h.of_dropping rfl)
    · obtain ⟨p', hp'⟩ : ∃ p', p' = if p.droppingCount = p.droppingCapacity then
        { p with
          droppingCapacity := p.droppingCapacity * 2, droppingSize := p.droppingCapacity * 2 }
        else p := ⟨_, rfl⟩
      rw [← hp']
      split
      · exact .pure (h.of_dropping rfl)
      · set m₁ : Map := { m with droppingBatchCapacity := capacity }.setPlayer r p' with hm₁
        have h₁ : Counted m₁ := h.of_dropping rfl
        rcases htimer : m₁.addTimer (o.alloc 3) (.nextDrop m₁.nextBatch) with ⟨t, m₂⟩
        obtain ⟨timers, next, rfl⟩ := addTimer_eq htimer
        dsimp only
        refine (allocateObject_eq (o.alloc 4) (o.alloc 5) .dropping _ 0).bind fun x hx => ?_
        obtain ⟨oid, m₃⟩ := x
        obtain ⟨list, rfl⟩ := hx
        refine .andThen fun _ _ => .andThen fun p'' _ => ?_
        set b : DroppingBatch := ⟨m₁.droppingBatchCount, 1, t, some r, p'.droppingCount, p'.charId,
          dropperOid, ⟨oid, first⟩ :: rest.map (Drop.mk 0)⟩
        have hb : b.current ≤ b.drops.length := Nat.succ_le_succ (Nat.zero_le _)
        split
        · exact (mapRemoveDrop_counted (h₁.of_update hb rfl) _ oid).bind fun m₄ h₄ => .pure h₄
        · exact .pure (h₁.of_update hb rfl)

theorem mapDropBatchFromMapObject_counted (h : Counted m) (o : Outcomes) (r : PlayerRef)
    (dropperOid : UInt32) (drops : List DropItem) :
    Exec.Ensures (mapDropBatchFromMapObject env o m r dropperOid drops) fun x => Counted x.2 := by
  rcases drops with - | ⟨first, - | ⟨second, rest⟩⟩
  · exact .pure h
  · exact dropOne_counted h o r first
  · exact dropMany_counted h o r dropperOid first (second :: rest)

theorem mapDropBatchFromReactor_counted {env : MapEnv} (h : Counted m) (o : Outcomes) (r : PlayerRef)
    (oid : UInt32) : Exec.Ensures (mapDropBatchFromReactor env o m r oid) fun x => Counted x.2 := by
  rw [mapDropBatchFromReactor]
  split
  · exact .pure h
  · split
    · exact .pure h
    · exact .andThen fun reactor _ => .andThen fun info _ => .andThen fun drops _ =>
        mapDropBatchFromMapObject_counted h o r _ drops

/-! ### Timers -/

theorem removeDroppingBatch_counted (h : Counted m) (alloc : Bool) (index : ℕ) :
    Exec.Ensures (m.removeDroppingBatch env alloc index) Counted := by
  refine .andThen fun last _ => .andThen fun _ _ => ?_
  dsimp only
  refine .bind (.deref fun moved h => h) fun moved hmoved => (rewriteObjects_eq _ _).bind fun m₁ hm₁ => ?_
  obtain ⟨list, rfl⟩ := hm₁
  have hcurrent := h _ moved hmoved
  refine .pure ?_
  split
  · exact h.of_update (b := { moved with index := index }) hcurrent rfl
  · exact h.of_update (b := { moved with index := index }) hcurrent rfl

theorem promote_counted (h : Counted m) (alloc : ℕ → Bool) (batch : DroppingBatch) :
    Exec.Ensures (m.promote env alloc batch) Counted := by
  rw [promote]
  split
  · exact .bind .error fun _ (h : False) => h.elim
  · refine (appendBatch_spec m.nextBatch).bind fun m₁ hm₁ => ?_
    rcases htimer : m₁.addTimer (alloc 1) .exclusiveDropTimeExpired with ⟨t, m₂⟩
    obtain ⟨timers, next, hm₂⟩ := addTimer_eq htimer
    have h₂ : Counted m₂ := h.of_dropping (by rw [hm₂, hm₁])
    refine (unlistDropping_things (alloc 2) batch).bind fun m₃ hm₃ => ?_
    refine (removeDroppingBatch_counted (h₂.of_things hm₃) (alloc 3) batch.index).bind fun m₄ h₄ => ?_
    refine (rewriteObjects_eq _ _).bind fun m₅ hm₅ => ?_
    obtain ⟨list, rfl⟩ := hm₅
    dsimp only
    split
    · exact .pure (h₄.of_dropping rfl)
    · exact .andThen fun p _ => .andThen fun p' _ => .pure (h₄.of_dropping rfl)

theorem pickUpOwned_counted (h : Counted m) (picksUp : Bool) (alloc : ℕ → Bool) (owner : Option PlayerRef)
    (oid : UInt32) : Exec.Ensures (m.pickUpOwned env picksUp alloc owner oid) Counted := by
  rcases owner with - | r
  · exact .pure h
  · refine .andThen fun _ _ => ?_
    split
    · exact mapRemoveDrop_counted h alloc oid
    · exact .pure h

theorem finishDropping_room_counted (h : Counted m) (o : Outcomes) (id : ℕ) (batch : DroppingBatch)
    (oid : UInt32) : Exec.Ensures (do
      let m ← m.promote env (fun n => o.alloc (n + 4)) batch
      let m ← m.removeDropper env (o.alloc 8) batch.dropperOid
      let m ← m.pickUpOwned env o.picksUp (fun n => o.alloc (n + 9)) batch.owner oid
      return m.setDropping id none) Counted :=
  (promote_counted h _ batch).bind fun _ h₁ => (removeDropper_drops _ _).bind fun _ hm₂ =>
    (pickUpOwned_counted (h₁.of_dropping hm₂.2) _ _ _ oid).bind fun _ h₃ => .pure (h₃.freeDropping id)

theorem finishDropping_counted (h : Counted m) (o : Outcomes) (id : ℕ) (batch : DroppingBatch)
    (oid : UInt32) : Exec.Ensures (m.finishDropping env o id batch oid) Counted := by
  rw [finishDropping]
  split
  · exact .pure h
  · rename_i m₁ hgrow
    obtain ⟨capacity, rfl⟩ := growBatches_eq hgrow
    have h₁ : Counted { m with dropBatchCapacity := capacity } := h.of_dropping rfl
    split
    · exact finishDropping_room_counted h₁ o id batch oid
    · rename_i r _
      refine (growDrops_spec (o.alloc 3) r).bind fun grown hgrown => ?_
      rcases grown with - | m₂
      · exact .pure h₁
      · obtain ⟨p, -, hm₂⟩ := hgrown m₂ rfl
        have h₂ : Counted m₂ := h₁.of_dropping (by rw [hm₂]; rfl)
        exact finishDropping_room_counted h₂ o id batch oid

theorem onNextDrop_counted (h : Counted m) (o : Outcomes) (id : ℕ) :
    Exec.Ensures (onNextDrop env o m id) Counted := by
  refine .andThen fun batch _ => .bind (.deref fun drop h => h) fun drop hdrop =>
    (allocateObject_eq (o.alloc 0) (o.alloc 1) .dropping _ _).bind fun x hx => ?_
  obtain ⟨oid, m₁⟩ := x
  obtain ⟨list, rfl⟩ := hx
  have hlt := (List.getElem?_eq_some_iff.1 hdrop).1
  have hset : Counted ({ m with objectList := list }.setDropping id (some { batch with
      drops := batch.drops.set batch.current { drop with oid := oid }
      current := batch.current + 1 })) := by
    refine h.of_update ?_ rfl
    dsimp only
    rw [List.length_set]
    exact hlt
  dsimp only
  split
  · refine (pickUpOwned_counted hset _ _ _ oid).bind fun m₂ h₂ => ?_
    rcases htimer : m₂.addTimer (o.alloc 2) (.nextDrop id) with ⟨t, m₃⟩
    obtain ⟨timers, next, rfl⟩ := addTimer_eq htimer
    refine .bind (.deref fun b h => h) fun b hb => .pure ?_
    exact h₂.of_update (b := { b with timer := t }) (h₂ id b hb) rfl
  · exact finishDropping_counted hset o id _ oid

theorem onExclusiveDropTimeExpired_counted (h : Counted m) (alloc : Bool) :
    Exec.Ensures (onExclusiveDropTimeExpired alloc m) Counted := by
  refine .andThen fun id _ => ?_
  rcases htimer : m.addTimer alloc .dropTimeExpired with ⟨t, m₁⟩
  obtain ⟨timers, next, rfl⟩ := addTimer_eq htimer
  exact .andThen fun b _ => .pure (h.of_dropping rfl)

theorem onDropTimeExpired_counted (h : Counted m) (alloc : ℕ → Bool) :
    Exec.Ensures (onDropTimeExpired env alloc m) Counted := by
  refine .andThen fun _ _ => .andThen fun id _ => .andThen fun b _ => ?_
  refine .bind (P := Counted) (.foldlM h fun i _ m' hm' => ?_) fun m₁ h₁ => ?_
  · refine .andThen fun _ _ => .andThen fun _ _ => ?_
    split
    · exact .andThen fun list _ => .pure (hm'.of_dropping rfl)
    · exact .error
  · refine (unlistBatch_things _ _ _).bind fun m₂ hthings => ?_
    have h₂ : Counted m₂ := Counted.of_things (m := m₁.setBatch id _) (h₁.of_dropping rfl) hthings
    exact (skipHoles_batches _ _).mono fun m₃ h₃ => h₂.of_dropping (congrArg (fun s => s.2.1) h₃)

/-! ### What is hit -/

theorem die_counted {env : MapEnv} (h : Counted m) (o : Outcomes) (player : PlayerRef)
    (place : MonsterPlace) : Exec.Ensures (m.die env o player place) Counted := by
  refine .andThen fun monster _ => (releaseControl_controlOnly place).bind fun m₁ hm₁ => ?_
  have h₁ := h.of_things hm₁.things
  split
  · exact (mapKillMonster_drops _ _).mono fun m₂ hm₂ => h₁.of_dropping hm₂.2
  · refine .andThen fun drops _ => (mapDropBatchFromMapObject_counted h₁ _ player _ drops).bind fun x h₂ => ?_
    obtain ⟨ok, m₂⟩ := x
    dsimp only
    split
    · exact (mapKillMonster_drops _ _).mono fun m₃ hm₃ => Counted.of_dropping h₂ hm₃.2
    · exact .pure h₂

theorem hurt_counted (env : MapEnv) (h : Counted m) (o : Outcomes) (player : PlayerRef)
    (place : MonsterPlace) (hp : Int32) (id : UInt32) : Exec.Ensures (do
      let m ← m.writeHp place hp
      let stats ← Exec.deref (env.monsterHp id)
      if stats = 0 then Except.error Fault.divisionByZero
      let _ ← m.getPlayer player
      if hp = 0 then
        let m ← m.die env o player place
        let killed ← m.readPlace place
        return (some killed.id, m)
      else return (none, m)) fun x => Counted x.2 := by
  refine (writeHp_spec place hp).bind fun m₁ hm₁ => .andThen fun stats _ => ?_
  obtain ⟨monsters, boss, rfl, -, -⟩ := hm₁
  have h₁ : Counted { m with monsters := monsters, boss := boss } := h.of_dropping rfl
  dsimp only
  by_cases hstats : stats = 0
  · rw [if_pos hstats]
    exact .bind .error fun _ (h : False) => h.elim
  · rw [if_neg hstats]
    refine .andThen fun _ _ => ?_
    split
    · exact (die_counted h₁ o player place).bind fun m₂ h₂ => .andThen fun killed _ => .pure h₂
    · exact .pure h₁

theorem mapDamageMonsterBy_counted {env : MapEnv} (h : Counted m) (o : Outcomes) (player : PlayerRef)
    (oid : UInt32) (damage : List Int32) :
    Exec.Ensures (mapDamageMonsterBy env o m player oid damage) fun x => Counted x.2 := by
  rw [mapDamageMonsterBy]
  split
  · exact .pure h
  · rename_i object _
    split
    · exact .pure h
    · refine .andThen fun monster _ => ?_
      split
      · have hrest (m₁ : Map) (hm₁ : ControlOnly m m₁) :=
          hurt_counted env (h.of_things hm₁.things) o player (Map.monsterPlace object)
            (hit monster.hp damage) monster.id
        split
        · exact (switchControl_controlOnly _ player).bind hrest
        · exact hrest m (.refl m)
      · exact .pure h

theorem killAllLoop_counted {env : MapEnv} (o : ℕ → Outcomes) (player : PlayerRef) (n i : ℕ)
    (ids : List UInt32) (h : Counted m) :
    Exec.Ensures (m.killAllLoop env o player n i ids) fun x => Counted x.2 := by
  induction n generalizing i ids m with
  | zero => exact .pure h
  | succ n ih =>
    rw [killAllLoop]
    split
    · refine .andThen fun monster _ => ?_
      split
      · refine (mapDamageMonsterBy_counted h _ player _ _).bind fun x h₁ => ?_
        obtain ⟨id, m₁⟩ := x
        exact ih _ _ h₁
      · exact ih _ _ h
    · exact .pure h

theorem mapKillAllBy_counted {env : MapEnv} (h : Counted m) (alloc : Bool) (o : ℕ → Outcomes)
    (player : PlayerRef) : Exec.Ensures (mapKillAllBy env alloc o m player) fun x => Counted x.2 := by
  rw [mapKillAllBy]
  split
  · exact .pure h
  · exact (killAllLoop_counted o player m.monsterCount 0 [] h).bind fun x hx => .pure hx

/-! ## Whatever happens -/

/-- Everything is in its place, and the dropping batches have what they have dropped. -/
structure Whole (env : Env) (m : Map) : Prop where
  settled : Settled env m
  counted : Counted m

theorem Whole.of_steady (h : Whole env m) (hm' : Steady m m') : Whole env m' :=
  ⟨h.settled.of_steady hm', h.counted.of_things hm'.things⟩

/-- Which spawners are dead does not matter. -/
theorem Whole.setDead (h : Whole env m) (dead : List ℕ) : Whole env { m with dead := dead } := by
  obtain ⟨⟨⟨htracks, hlinked, hwindow, hcells, hdroppings, hfresh⟩, hlisted, hdropper, honce⟩, hcounted⟩ := h
  exact ⟨⟨⟨htracks, hlinked, hwindow, hcells, hdroppings, hfresh⟩, hlisted, hdropper, honce⟩, hcounted⟩

/-! ### Monsters that come -/

section Monsters

variable {env : MapEnv}

theorem Whole.addMonster (h : Whole env.toEnv m) (o : Outcomes) (id : UInt32) (spawnerIndex : Option ℕ)
    (controller : Option PlayerRef) : Exec.Ensures (m.addMonster env o id spawnerIndex controller)
      fun m' => Whole env.toEnv m' ∧ m'.boss = m.boss ∧ m'.reactors = m.reactors := by
  refine ((h.settled.addMonster o id spawnerIndex controller).and
    (addMonster_spec h.settled.placed o id spawnerIndex controller)).mono fun m' hm' => ?_
  obtain ⟨hsettled, hadded⟩ := hm'
  obtain ⟨list, oid, hp, players, index, -, -, -, rfl⟩ := hadded.eq
  exact ⟨⟨hsettled, h.counted.of_dropping rfl⟩, rfl, rfl⟩

theorem mapSpawn_whole (h : Whole env.toEnv m) (grow o : Outcomes) (id : UInt32) :
    Exec.Ensures (mapSpawn env grow o m id) (Whole env.toEnv) := by
  rw [mapSpawn]
  split
  · exact .pure h
  · have hrest (x : Bool × Map) (hx : Whole env.toEnv x.2) : Exec.Ensures
        (if ¬x.1 then return x.2
        else do
          let node ← Exec.deref (heapTop x.2.heap)
          let controller ← x.2.nodeController node
          x.2.addMonster env o id none (some controller)) (Whole env.toEnv) := by
      split
      · exact .pure hx
      · exact .andThen fun node _ => .andThen fun controller _ =>
          (hx.addMonster o id none _).mono fun _ h₂ => h₂.1
    dsimp only
    split
    · exact (growMonsters_steady grow).bind fun x hx => hrest x (h.of_steady hx.1)
    · exact hrest (true, m) h

theorem respawnOne_whole (h : Whole env.toEnv m) (o : Outcomes) (next : Option ℕ) :
    Exec.Ensures (m.respawnOne env o next) (Whole env.toEnv) := by
  rw [respawnOne]
  split
  · exact .bind .error fun _ (h : False) => h.elim
  · refine .andThen fun spawner _ => .andThen fun last _ => .andThen fun id _ => ?_
    have hrest (controller : Option PlayerRef) : Exec.Ensures (do
        let m' ← m.addMonster env o id (some spawner) controller
        return { m' with dead := (m'.dead.set (o.rand 0 % m.dead.length) last).dropLast })
        (Whole env.toEnv) :=
      (h.addMonster o id _ controller).bind fun m₁ h₁ => .pure (h₁.1.setDead _)
    dsimp only
    split
    · exact hrest none
    · exact .andThen fun controller _ => hrest controller

theorem respawnLoop_whole (h : Whole env.toEnv m) (grow o : ℕ → Outcomes) (next : Option ℕ)
    (maxSpawnCount n count : ℕ) : Exec.Ensures (m.respawnLoop env grow o next maxSpawnCount n count)
      fun x => Whole env.toEnv x.2.2 := by
  induction n generalizing count m with
  | zero => exact .pure h
  | succ n ih =>
    rw [respawnLoop]
    split
    · have hrest (x : Bool × Map) (hx : Whole env.toEnv x.2) : Exec.Ensures
          (if ¬x.1 then return (false, count, x.2)
          else do
            let m ← x.2.respawnOne env (o count) next
            m.respawnLoop env grow o next maxSpawnCount n (count + 1))
            fun x => Whole env.toEnv x.2.2 := by
        split
        · exact .pure hx
        · exact (respawnOne_whole hx (o count) next).bind fun m₂ h₂ => ih h₂ (count + 1)
      dsimp only
      split
      · exact (growMonsters_steady (grow count)).bind fun x hx => hrest x (h.of_steady hx.1)
      · exact hrest (true, m) h
    · exact .pure h

theorem onRespawn_whole (h : Whole env.toEnv m) (grow o : ℕ → Outcomes) :
    Exec.Ensures (onRespawn env grow o m) (Whole env.toEnv) := by
  refine (respawnLoop_whole h grow o _ _ _ 0).bind fun x h₁ => ?_
  obtain ⟨ok, count, m₁⟩ := x
  dsimp only
  split
  · exact .andThen fun heap _ => .pure (h₁.of_steady ⟨rfl, rfl, le_rfl⟩)
  · exact .pure h₁

end Monsters

/-- The boss comes. -/
theorem Whole.withBoss (h : Whole env m) (hgone : m.boss.oid = 0xFFFFFFFF) {list : ObjectList}
    (boss : MapMonster) (hnone : m.placeOf env boss.oid = none) (hvalid : ValidOid boss.oid)
    (htracked : Tracked env { m with objectList := list })
    (hplace : placeOf { m with objectList := list } env =
      Function.update (m.placeOf env) boss.oid (some ⟨.boss, 0, 0⟩)) :
    Whole env { m with objectList := list, boss := boss } := by
  have hempty : m.slot ⟨.boss, 0, 0⟩ = none := by
    rw [slot, if_pos ⟨rfl, rfl⟩, bossOid, if_pos hgone]
  have hplaced := h.settled.placed
  refine ⟨⟨⟨htracked, ?_, hplaced.window, hplaced.cells, hplaced.droppings, hplaced.fresh⟩,
    h.settled.listed, ?_⟩, h.counted⟩
  · rw [slot_withBoss hvalid.ne]
    exact hplace ▸ hplaced.linked.put hnone hempty
  · refine h.settled.droppers.mono (fun _ _ hne => ⟨hne, rfl⟩) (fun id oid _ _ hc => ?_) rfl
    rcases hc with hc | ⟨hne, -⟩
    · exact .inl hc
    · exact absurd hgone hne

theorem respawnBoss_whole {env : MapEnv} (h : Whole env.toEnv m) (o : Outcomes) :
    Exec.Ensures (respawnBoss env o m) (Whole env.toEnv) := by
  rw [respawnBoss]
  split
  · rename_i hgone
    refine (allocateObject_spec h.settled.placed.tracks (o.alloc 0) (o.alloc 1) .boss 0 0).bind fun x hx => ?_
    obtain ⟨oid, m₁⟩ := x
    obtain ⟨hnone, hvalid, list, rfl, htracked, hplace⟩ := hx
    have hrest (controller : Option PlayerRef) : Exec.Ensures (do
        let hp ← Exec.deref (env.monsterHp m.boss.id)
        return { m with
          objectList := list
          boss := { m.boss with oid := oid, hp := hp, controller := controller } }) (Whole env.toEnv) :=
      .andThen fun hp _ => .pure (h.withBoss hgone
        { m.boss with oid := oid, hp := hp, controller := controller } hnone hvalid htracked hplace)
    dsimp only
    split
    · exact hrest none
    · exact .andThen fun controller _ => hrest controller
  · exact .pure h

/-! ### Making a map -/

/-- The boss is not there yet. -/
structure Young (env : Env) (m : Map) : Prop where
  whole : Whole env m
  boss : m.boss.oid = 0xFFFFFFFF

/-- The object of something is allocated that is neither a monster nor a drop, and it is put into its place. -/
theorem Whole.withObject (h : Whole env m) {list : ObjectList} {oid : UInt32} {p : MapPlace}
    (hnone : m.placeOf env oid = none) (htracked : Tracked env { m with objectList := list })
    (hplace : placeOf { m with objectList := list } env = Function.update (m.placeOf env) oid (some p))
    (hempty : m.slot p = none) {npcs : List UInt32} {reactors : List Reactor}
    (hslot : slot { m with objectList := list, npcs := npcs, reactors := reactors } =
      Function.update m.slot p (some oid)) (hreactors : m.reactors ⊆ reactors) :
    Whole env { m with objectList := list, npcs := npcs, reactors := reactors } := by
  have hplaced := h.settled.placed
  have hreactor (oid : UInt32) (hr : m.IsReactor oid) :
      IsReactor { m with objectList := list, npcs := npcs, reactors := reactors } oid := by
    obtain ⟨reactor, hmem, hoid⟩ := hr
    exact ⟨reactor, hreactors hmem, hoid⟩
  refine ⟨⟨⟨htracked, ?_, hplaced.window, hplaced.cells, hplaced.droppings, hplaced.fresh⟩,
    h.settled.listed, ?_, ?_⟩, h.counted⟩
  · rw [hslot]
    exact hplace ▸ hplaced.linked.put hnone hempty
  · exact fun id b hb hne => (h.settled.droppers.dropper id b hb hne).imp_right (hreactor _)
  · exact fun id id' b b' hb hb' hne hne' he =>
      (h.settled.droppers.once id id' b b' hb hb' hne hne' he).imp_right (hreactor _)

theorem createNpcs_young (h : Young env m) (hnpcs : m.npcs = []) (alloc : ℕ → Bool) (n : ℕ) :
    Exec.Ensures (m.createNpcs env alloc n) fun m' => Young env m' ∧ m'.reactors = m.reactors := by
  refine Exec.Ensures.mono (Exec.Ensures.foldlM_range
    (I := fun i m' => (Young env m' ∧ m'.reactors = m.reactors) ∧ m'.npcs.length = i)
    ⟨⟨h, rfl⟩, by rw [hnpcs, List.length_nil]⟩ fun i _ m' hm' => ?_) fun m' hm' => hm'.1
  obtain ⟨⟨⟨h', hboss⟩, hreactors⟩, rfl⟩ := hm'
  refine (allocateObject_spec h'.settled.placed.tracks _ _ .npc _ 0).bind fun x hx => ?_
  obtain ⟨oid, m₁⟩ := x
  obtain ⟨hnone, -, list, rfl, htracked, hplace⟩ := hx
  have hempty : m'.slot ⟨.npc, m'.npcs.length, 0⟩ = none := by
    rw [slot, if_pos rfl, List.getElem?_eq_none le_rfl]
  refine .pure ⟨⟨⟨?_, hboss⟩, hreactors⟩, by rw [List.length_append, List.length_singleton]⟩
  exact h'.withObject hnone htracked hplace hempty (slot_withNpc list oid) fun _ h => h

theorem createMonsters_young {env : MapEnv} (h : Young env.toEnv m) (alloc : ℕ → Bool) :
    Exec.Ensures (m.createMonsters env alloc) fun m' => Young env.toEnv m' ∧ m'.reactors = m.reactors := by
  refine Exec.Ensures.foldlM (I := fun m' => Young env.toEnv m' ∧ m'.reactors = m.reactors) ⟨h, rfl⟩ ?_
  rintro ⟨id, i⟩ - m' ⟨hm', hreactors⟩
  refine (hm'.whole.addMonster _ id _ none).mono fun m'' hm'' => ?_
  obtain ⟨hwhole, hboss, hreactors'⟩ := hm''
  exact ⟨⟨hwhole, hboss ▸ hm'.boss⟩, hreactors'.trans hreactors⟩

theorem createReactors_young (h : Young env m) (alloc : ℕ → Bool) (ids : List UInt32) {n : ℕ}
    (hn : m.reactors.length = n) : Exec.Ensures ((ids.zipIdx n).foldlM (fun m (id, i) => do
      let (oid, m) ← m.allocateObject env (alloc (2 * i)) (alloc (2 * i + 1)) .reactor i 0
      return { m with reactors := m.reactors ++ [⟨oid, id⟩] }) m) (Young env) := by
  induction ids generalizing m n with
  | nil => exact .pure h
  | cons id ids ih =>
    obtain ⟨h', hboss⟩ := h
    subst hn
    rw [List.zipIdx_cons, List.foldlM_cons]
    refine .bind (P := fun m' => Young env m' ∧ m'.reactors.length = m.reactors.length + 1) ?_
      fun m' hm' => ih hm'.1 hm'.2
    refine (allocateObject_spec h'.settled.placed.tracks _ _ .reactor _ 0).bind fun x hx => ?_
    obtain ⟨oid, m₁⟩ := x
    obtain ⟨hnone, -, list, rfl, htracked, hplace⟩ := hx
    have hempty : m.slot ⟨.reactor, m.reactors.length, 0⟩ = none := by
      rw [slot, if_pos rfl, List.getElem?_eq_none le_rfl, Option.map_none]
    refine .pure ⟨⟨?_, hboss⟩, by rw [List.length_append, List.length_singleton]⟩
    exact h'.withObject hnone htracked hplace hempty (slot_withReactor list ⟨oid, id⟩)
      (List.subset_append_left ..)

theorem createBoss_whole {env : MapEnv} (h : Young env.toEnv m) (alloc : ℕ → Bool) (boss : Option UInt32) :
    Exec.Ensures (m.createBoss env alloc boss) (Whole env.toEnv) := by
  rcases boss with - | id
  · exact .pure h.whole
  · refine (allocateObject_spec h.whole.settled.placed.tracks (alloc 0) (alloc 1) .boss 0 0).bind fun x hx => ?_
    obtain ⟨oid, m₁⟩ := x
    obtain ⟨hnone, hvalid, list, rfl, htracked, hplace⟩ := hx
    refine .andThen fun hp _ => .pure ?_
    exact h.whole.withBoss h.boss { m.boss with oid := oid, id := id, hp := hp, controller := none }
      hnone hvalid htracked hplace

theorem young_empty (env : Env) (spawners : List UInt32) : Young env (empty spawners) :=
  ⟨⟨settled_empty env spawners 1 0 default fun _ => none, by rintro id b ⟨⟩⟩, rfl⟩

theorem mapCreate_whole (env : MapEnv) (alloc : ℕ → ℕ → Bool) (npcs : ℕ) (spawners reactors : List UInt32)
    (boss : Option UInt32) :
    Exec.Ensures (mapCreate env alloc npcs spawners reactors boss) (Whole env.toEnv) := by
  refine (createNpcs_young (young_empty env.toEnv spawners) rfl (alloc 0) npcs).bind fun m₁ h₁ => ?_
  refine (createMonsters_young h₁.1 (alloc 1)).bind fun m₂ h₂ => ?_
  have hreactors : m₂.reactors = [] := h₂.2.trans h₁.2
  exact (createReactors_young h₂.1 (alloc 2) reactors (n := 0) (by rw [hreactors, List.length_nil])).bind
    fun m₃ h₃ => createBoss_whole h₃ (alloc 3) boss

/-! ### What happens on a map -/

/-- `map_get_drop` finds a drop. -/
theorem placeOf_of_hasDrop {oid : UInt32} (h : mapHasDrop env m oid = true) :
    ∃ p, m.placeOf env oid = some p ∧ (p.type = .drop ∨ p.type = .dropping) := by
  rw [mapHasDrop] at h
  split at h
  · cases h
  · rename_i object hobject
    exact ⟨object.place, by rw [placeOf, hobject, Option.map_some], of_decide_eq_true h⟩

theorem mapDropBatchFromReactor_whole {env : MapEnv} (h : Whole env.toEnv m) (o : Outcomes) (r : PlayerRef)
    (oid : UInt32) : Exec.Ensures (mapDropBatchFromReactor env o m r oid) fun x => Whole env.toEnv x.2 := by
  refine ((mapDropBatchFromReactor_spec h.settled.placed o r oid).and
    (mapDropBatchFromReactor_counted h.counted o r oid)).mono fun x hx => ⟨?_, hx.2⟩
  rcases hx.1 with hdrops | ⟨⟨i, hi⟩, hstarted⟩
  · exact h.settled.of_dropsOnly hdrops
  · have hreactor : m.IsReactor oid := by
      have hslot := (h.settled.placed.linked ..).1 hi
      rw [slot, if_pos rfl, Option.map_eq_some_iff] at hslot
      obtain ⟨reactor, hmem, hoid⟩ := hslot
      exact ⟨reactor, List.mem_of_getElem? hmem, hoid⟩
    exact h.settled.of_started hstarted (.inr hreactor) fun _ _ => hreactor

theorem timer_whole (h : Whole env m) (o : Outcomes) (task : MapTimer) :
    Exec.Ensures (task.run env o m) (Whole env) := by
  cases task with
  | nextDrop id =>
    exact ((onNextDrop_spec h.settled o id).and (onNextDrop_counted h.counted o id)).mono
      fun _ hm' => ⟨hm'.1, hm'.2⟩
  | exclusiveDropTimeExpired =>
    exact ((onExclusiveDropTimeExpired_spec h.settled _).and
      (onExclusiveDropTimeExpired_counted h.counted _)).mono fun _ hm' => ⟨hm'.1, hm'.2⟩
  | dropTimeExpired =>
    exact ((onDropTimeExpired_spec h.settled _).and (onDropTimeExpired_counted h.counted _)).mono
      fun _ hm' => ⟨hm'.1.1, hm'.2⟩

/-- Whatever happens, everything is in its place afterwards. -/
theorem step_whole {env : MapEnv} (h : Whole env.toEnv m) (a : MapAction) :
    Exec.Ensures (a.step env m) (Whole env.toEnv) := by
  cases a with
  | join o client charId => exact (mapJoin_steady o client charId).mono fun _ => h.of_steady
  | leave client =>
    rw [MapAction.step]
    split
    · exact .pure h
    · exact (mapLeave_steady _).bind fun m₁ h₁ => .pure (h.of_steady (h₁.trans ⟨rfl, rfl, le_rfl⟩))
  | spawn grow o id => exact mapSpawn_whole h grow o id
  | damage o client oid hits =>
    refine .andThen fun player _ => ((mapDamageMonsterBy_spec h.settled o player oid hits).and
      (mapDamageMonsterBy_counted h.counted o player oid hits)).bind fun x hx => ?_
    exact .pure ⟨hx.1, hx.2⟩
  | killAll alloc o client =>
    refine .andThen fun player _ => ((mapKillAllBy_spec h.settled alloc o player).and
      (mapKillAllBy_counted h.counted alloc o player)).bind fun x hx => ?_
    exact .pure ⟨hx.1, hx.2⟩
  | dropFromReactor o client oid =>
    exact .andThen fun player _ => (mapDropBatchFromReactor_whole h o player oid).bind fun x hx => .pure hx
  | addPlayerDrop o client item =>
    refine .andThen fun player _ => ((mapAddPlayerDrop_spec h.settled.placed o player item).and
      (mapAddPlayerDrop_counted h.counted o player item)).mono fun m' hm' => ?_
    exact ⟨h.settled.of_dropsOnly hm'.1, hm'.2⟩
  | removeDrop alloc oid =>
    rw [MapAction.step]
    split
    · rename_i hdrop
      obtain ⟨p, hp, ht⟩ := placeOf_of_hasDrop hdrop
      exact ((mapRemoveDrop_spec h.settled.placed alloc hp ht).and
        (mapRemoveDrop_counted h.counted alloc oid)).mono fun m' hm' =>
          ⟨h.settled.of_dropsOnly hm'.1, hm'.2⟩
    · exact .pure h
  | timer o t =>
    rw [MapAction.step]
    split
    · exact .pure h
    · have h₁ : Whole env.toEnv { m with timers := Function.update m.timers t none } :=
        h.of_steady ⟨rfl, rfl, le_rfl⟩
      exact timer_whole h₁ o _
  | respawn grow o => exact onRespawn_whole h grow o
  | respawnBoss o => exact respawnBoss_whole h o

/-! ## Every drop is found -/

theorem dropIn_iff {oid : UInt32} {p : MapPlace} :
    m.DropIn oid p ↔ m.slot p = some oid ∧ (p.type = .drop ∨ p.type = .dropping) := by
  obtain ⟨t, i, j⟩ := p
  rcases t
  case drop =>
    rw [slot_drop_eq_some, and_iff_left (Or.inl rfl)]
    constructor
    · rintro ⟨hi, id, b, d, hid, hb, hj, rfl⟩
      refine ⟨b, batchAt_eq_some.2 ⟨id, cell_eq_some.2 ⟨hi, hid⟩, hb⟩, ?_⟩
      rw [DropBatch.oidAt, hj, Option.map_some]
    · rintro ⟨b, hb, hj⟩
      obtain ⟨id, hc, hb⟩ := batchAt_eq_some.1 hb
      obtain ⟨d, hd, hoid⟩ := Option.map_eq_some_iff.1 hj
      obtain ⟨hi, hid⟩ := cell_eq_some.1 hc
      exact ⟨hi, id, b, d, hid, hb, hd, hoid⟩
  case dropping =>
    rw [slot_dropping_eq_some, and_iff_left (Or.inr rfl)]
    constructor
    · rintro ⟨hi, b, d, hb, hj, hd, rfl⟩
      exact ⟨b, droppingAt_eq_some.2 ⟨_, firsts_eq_some.2 ⟨hi, rfl⟩, hb⟩,
        DroppingBatch.oidAt_eq_some.2 ⟨hj, d, hd, rfl⟩⟩
    · rintro ⟨b, hb, hj⟩
      obtain ⟨id, hc, hb⟩ := droppingAt_eq_some.1 hb
      obtain ⟨hi, rfl⟩ := firsts_eq_some.1 hc
      obtain ⟨hj, d, hd, hoid⟩ := DroppingBatch.oidAt_eq_some.1 hj
      exact ⟨hi, b, d, hb, hj, hd, hoid⟩
  all_goals exact iff_of_false (fun h => h) (by rintro ⟨-, h | h⟩ <;> cases h)

/-- A drop in a place is found there. -/
theorem Placed.found (h : Placed env m) {oid : UInt32} {p : MapPlace} (hp : m.DropIn oid p) :
    objectListGet env m.objectList oid = some ⟨p.type, oid, p.index, p.index2⟩ :=
  Tracked.placeOf_eq_some h.tracks |>.1 ((h.linked ..).2 (dropIn_iff.1 hp).1)

theorem Whole.resolved (h : Whole env m) : Resolved env m := by
  have hplaced := h.settled.placed
  obtain ⟨pos, hpos, hbatch⟩ := hplaced.cells
  refine ⟨fun i id hstart hstop hid => ?_, fun i hi => ?_, fun oid object hobject ht => ?_,
    fun id hid => ?_, fun id hid => ?_⟩
  · have hcell := (hpos ..).2 (cell_eq_some.2 ⟨⟨hstart, hstop⟩, hid⟩)
    obtain ⟨b, hb⟩ := Option.ne_none_iff_exists'.1 fun hnone => by
      rw [(hbatch id).1 hnone] at hcell
      cases hcell
    refine ⟨b, hb, fun j d hd => ?_⟩
    exact hplaced.found (p := ⟨.drop, i, j⟩) ⟨⟨hstart, hstop⟩, id, b, d, hid, hb, hd, rfl⟩
  · obtain ⟨b, hb, hindex⟩ := hplaced.droppings i _ (firsts_eq_some.2 ⟨hi, rfl⟩)
    refine ⟨b, hb, hindex, h.counted _ b hb, fun j d hj hd => ?_⟩
    exact hplaced.found (p := ⟨.dropping, i, j⟩) ⟨hi, b, d, hb, hj, hd, rfl⟩
  · have hplace : m.placeOf env oid = some object.place := by
      rw [placeOf, hobject, Option.map_some]
    refine ⟨dropIn_iff.2 ⟨(hplaced.linked ..).1 hplace, ht⟩, fun p hp => ?_⟩
    have hp := (hplaced.linked ..).2 (dropIn_iff.1 hp).1
    exact Option.some.inj (hp.symm.trans hplace)
  · obtain ⟨i, hi⟩ := Option.ne_none_iff_exists'.1 fun hnone => hid ((hbatch id).2 hnone)
    refine ⟨i, cell_eq_some.1 ((hpos ..).1 hi), fun k hk => ?_⟩
    exact Option.some.inj (((hpos ..).2 (cell_eq_some.2 hk)).symm.trans hi)
  · obtain ⟨b, hb⟩ := Option.ne_none_iff_exists'.1 hid
    have hcell := h.settled.listed id b hb (by simp)
    refine ⟨b.index, firsts_eq_some.1 hcell, fun k hk => ?_⟩
    exact hplaced.dropping_ext (firsts_eq_some.2 hk) hcell

/-- In every run of a map, from when it has been made, every drop is found by its id, in its place, and what
    is found as a drop is one, in one place. -/
theorem drops_resolved {env : MapEnv} {alloc : ℕ → ℕ → Bool} {npcs : ℕ} {spawners reactors : List UInt32}
    {boss : Option UInt32} {m₀ m : Map} (hcreate : mapCreate env alloc npcs spawners reactors boss = .ok m₀)
    (hrun : Machine.Run (MapAction.step env) (fun _ _ => True) m₀ m) : m.Resolved env.toEnv :=
  (hrun.invariant (I := Whole env.toEnv) (mapCreate_whole env alloc npcs spawners reactors boss m₀ hcreate)
    fun a _ _ h _ hstep => step_whole h a _ hstep).resolved

/-- Monsters have ten hit points, and drop mesos twice. -/
def meanEnv : MapEnv where
  toEnv := .ofLists [] [] [] []
  monsterHp _ := some 10
  dropInfo _ := some [⟨0, 5, 5, false, 0, 1000000⟩]
  reactorDropInfo _ := none
  maxSpawnCount _ _ := 0
  maxSpawnCount_le _ _ := Nat.zero_le _

/-- A player joins, drops something, and kills a monster, which drops something at once and will drop
    something more. -/
def killActions : List MapAction :=
  let o := Outcomes.ofAlloc fun _ => true
  [.join o 0 1, .addPlayerDrop o 0 (.meso 20), .damage o 0 0xFFFF0000 [10]]

/-- The drops of the player and of the monster are found. -/
theorem drops_resolved_mesos : ∃ m₀ m, mapCreate meanEnv (fun _ _ => true) 0 [7] [] none = .ok m₀ ∧
    Machine.Run (MapAction.step meanEnv) (fun _ _ => True) m₀ m ∧ m.dropBatchEnd = 1 ∧
      m.droppingBatchCount = 1 ∧ m.Resolved meanEnv.toEnv := by
  have hreturns : (mapCreate meanEnv (fun _ _ => true) 0 [7] [] none).Returns fun m₀ =>
      (killActions.foldlM (fun m a => MapAction.step meanEnv a m) m₀).Returns fun m =>
        m.dropBatchEnd = 1 ∧ m.droppingBatchCount = 1 := by
    decide +kernel
  obtain ⟨m₀, hcreate, hreturns⟩ := Exec.returns_iff.1 hreturns
  obtain ⟨m, hm, hbatches, hdroppings⟩ := Exec.returns_iff.1 hreturns
  have hrun : Machine.Run (MapAction.step meanEnv) (fun _ _ => True) m₀ m :=
    .of_foldlM (fun _ _ _ => trivial) hm
  exact ⟨m₀, m, hcreate, hrun, hbatches, hdroppings, drops_resolved hcreate hrun⟩

/-- In every run, what is found by its id is the thing with this id, in its place, and all things are found; and what
    is still dropping comes from a reactor, or from a dead monster from which nothing else is dropping. -/
theorem things_run {env : MapEnv} {alloc : ℕ → ℕ → Bool} {npcs : ℕ} {spawners reactors : List UInt32}
    {boss : Option UInt32} {m₀ m : Map} (hcreate : mapCreate env alloc npcs spawners reactors boss = .ok m₀)
    (hrun : Machine.Run (MapAction.step env) (fun _ _ => True) m₀ m) :
    (∀ oid p, m.placeOf env.toEnv oid = some p ↔ m.slot p = some oid) ∧ Droppers none m := by
  have h : Whole env.toEnv m := hrun.invariant (mapCreate_whole env alloc npcs spawners reactors boss m₀ hcreate)
    fun a _ _ h _ hstep => step_whole h a _ hstep
  exact ⟨h.settled.placed.linked, h.settled.droppers⟩

theorem things_run_mesos : ∃ m : Map, m.droppingBatchCount = 1 ∧
    (∀ oid p, m.placeOf meanEnv.toEnv oid = some p ↔ m.slot p = some oid) ∧ Droppers none m := by
  have hreturns : (mapCreate meanEnv (fun _ _ => true) 0 [7] [] none).Returns fun m₀ =>
      (killActions.foldlM (fun m a => MapAction.step meanEnv a m) m₀).Returns (·.droppingBatchCount = 1) := by
    decide +kernel
  obtain ⟨m₀, hcreate, hreturns⟩ := Exec.returns_iff.1 hreturns
  obtain ⟨m, hm, hcount⟩ := Exec.returns_iff.1 hreturns
  exact ⟨m, hcount, things_run hcreate (.of_foldlM (fun _ _ _ => trivial) hm)⟩

end Map

end Syrup
