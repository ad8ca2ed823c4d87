import Syrup.Map.Places.Drops

/-!
# The places of new drops

What the functions that put drops onto a map do to the places of objects: a batch is put at the end of
the window, or a dropping batch at the end of its array.
-/

namespace Syrup

open BackLinks

namespace Map

variable {env : Env} {m : Map}

/-! ## New batches -/

/-- A batch is at the end of the window. -/
def withBatch (m : Map) (b : DropBatch) : Map :=
  { m with
    dropBatches := Function.update m.dropBatches m.dropBatchEnd (some m.nextBatch)
    dropBatchEnd := m.dropBatchEnd + 1
    batch := Function.update m.batch m.nextBatch (some b)
    nextBatch := m.nextBatch + 1 }

/-- A dropping batch is at the end of the array. -/
def withDropping (m : Map) (b : DroppingBatch) : Map :=
  { m with
    dropping := Function.update m.dropping m.nextBatch (some b)
    droppingBatches := Function.update m.droppingBatches m.droppingBatchCount m.nextBatch
    droppingBatchCount := m.droppingBatchCount + 1
    nextBatch := m.nextBatch + 1 }

theorem cell_end : m.cell m.dropBatchEnd = none := if_neg fun h => lt_irrefl _ h.2

theorem cell_withBatch (h : m.dropBatchStart ≤ m.dropBatchEnd) (b : DropBatch) :
    (m.withBatch b).cell = Function.update m.cell m.dropBatchEnd (some m.nextBatch) := by
  funext i
  by_cases hi : i = m.dropBatchEnd
  · rw [hi, Function.update_self]
    exact (if_pos ⟨h, Nat.lt_succ_self _⟩).trans (Function.update_self ..)
  · rw [Function.update_of_ne hi]
    refine if_congr (and_congr_right fun _ => ?_) (Function.update_of_ne hi ..) rfl
    change i < m.dropBatchEnd + 1 ↔ i < m.dropBatchEnd
    omega

theorem batchAt_withBatch (h : Placed env m) (b : DropBatch) :
    (m.withBatch b).batchAt = Function.update m.batchAt m.dropBatchEnd (some b) := by
  obtain ⟨pos, hpos, hnone⟩ := h.cells
  funext i
  rw [batchAt, cell_withBatch h.window]
  by_cases hi : i = m.dropBatchEnd
  · rw [hi, Function.update_self, Function.update_self]
    exact Function.update_self ..
  · rw [Function.update_of_ne hi, Function.update_of_ne hi, batchAt]
    cases hc : m.cell i with
    | none => rfl
    | some id =>
      refine Function.update_of_ne ?_ ..
      rintro rfl
      have hid := (hnone m.nextBatch).1 (h.fresh _ le_rfl).1
      rw [(hpos ..).2 hc] at hid
      cases hid

/-- The drops of a new batch have places, and the others keep theirs. -/
theorem slot_withBatch (h : Placed env m) (b : DropBatch) (p : MapPlace) :
    (m.withBatch b).slot p =
      if p.type = .drop ∧ p.index = m.dropBatchEnd then b.oidAt p.index2 else m.slot p := by
  obtain ⟨t, i, j⟩ := p
  by_cases ht : t = .drop
  · subst ht
    change BackLinks.held _ _ (i, j) = _
    rw [batchAt_withBatch h]
    by_cases hi : i = m.dropBatchEnd
    · rw [if_pos ⟨rfl, hi⟩, hi, held_update]
    · rw [if_neg fun h => hi h.2, held_update_of_ne hi]
      rfl
  · rw [if_neg fun h => ht h.1]
    rcases t
    case drop => exact absurd rfl ht
    all_goals rfl

theorem Placed.cells_withBatch (h : Placed env m) (b : DropBatch) :
    ∃ pos, Linked pos (m.withBatch b).cell ∧ ∀ id, (m.withBatch b).batch id = none ↔ pos id = none := by
  obtain ⟨pos, hpos, hnone⟩ := h.cells
  have hid := (hnone m.nextBatch).1 (h.fresh _ le_rfl).1
  refine ⟨Function.update pos m.nextBatch (some m.dropBatchEnd), ?_, fun id => ?_⟩
  · exact cell_withBatch h.window b ▸ hpos.put hid cell_end
  · change Function.update m.batch m.nextBatch (some b) id = none ↔ _
    by_cases he : id = m.nextBatch
    · rw [he, Function.update_self, Function.update_self]
      exact iff_of_false nofun nofun
    · rw [Function.update_of_ne he, Function.update_of_ne he, hnone]

theorem Placed.fresh_withBatch (h : Placed env m) (b : DropBatch) (id : ℕ) (hle : m.nextBatch + 1 ≤ id) :
    (m.withBatch b).batch id = none :=
  (Function.update_of_ne (Nat.ne_of_gt hle) ..).trans (h.fresh id (Nat.le_of_succ_le hle)).1

theorem Placed.withBatch (h : Placed env m) {list : ObjectList} {b : DropBatch}
    (ht : Tracked env { m with objectList := list })
    (hl : Linked (placeOf { m with objectList := list } env) (m.withBatch b).slot) :
    Placed env ({ m with objectList := list }.withBatch b) :=
  ⟨ht, hl, h.window.trans (Nat.le_succ _), h.cells_withBatch b, h.droppings, fun id hle =>
    ⟨h.fresh_withBatch b id hle, (h.fresh id (Nat.le_of_succ_le hle)).2⟩⟩

theorem droppingCell_withDropping (b : DroppingBatch) : (m.withDropping b).droppingCell =
    Function.update m.droppingCell m.droppingBatchCount (some m.nextBatch) := firsts_push

theorem droppingAt_withDropping (h : Placed env m) (b : DroppingBatch) :
    (m.withDropping b).droppingAt =
      Function.update m.droppingAt m.droppingBatchCount (some b) := by
  funext i
  rw [droppingAt, droppingCell_withDropping]
  by_cases hi : i = m.droppingBatchCount
  · rw [hi, Function.update_self, Function.update_self]
    exact Function.update_self ..
  · rw [Function.update_of_ne hi, Function.update_of_ne hi, droppingAt]
    cases hc : m.droppingCell i with
    | none => rfl
    | some id =>
      refine Function.update_of_ne ?_ ..
      rintro rfl
      obtain ⟨b', hb', -⟩ := h.droppings i _ hc
      rw [(h.fresh _ le_rfl).2] at hb'
      cases hb'

/-- The drops of a new dropping batch have places, and the others keep theirs. -/
theorem slot_withDropping (h : Placed env m) (b : DroppingBatch) (p : MapPlace) :
    (m.withDropping b).slot p =
      if p.type = .dropping ∧ p.index = m.droppingBatchCount then b.oidAt p.index2
      else m.slot p := by
  obtain ⟨t, i, j⟩ := p
  by_cases ht : t = .dropping
  · subst ht
    change BackLinks.held _ _ (i, j) = _
    rw [droppingAt_withDropping h]
    by_cases hi : i = m.droppingBatchCount
    · rw [if_pos ⟨rfl, hi⟩, hi, held_update]
    · rw [if_neg fun h => hi h.2, held_update_of_ne hi]
      rfl
  · rw [if_neg fun h => ht h.1]
    rcases t
    case dropping => exact absurd rfl ht
    all_goals rfl

theorem Placed.withDropping (h : Placed env m) {list : ObjectList} {b : DroppingBatch}
    (hindex : b.index = m.droppingBatchCount) (ht : Tracked env { m with objectList := list })
    (hl : Linked (placeOf { m with objectList := list } env) (m.withDropping b).slot) :
    Placed env ({ m with objectList := list }.withDropping b) := by
  obtain ⟨pos, hpos, hnone⟩ := h.cells
  refine ⟨ht, hl, h.window, h.cells, fun i id hi => ?_,
    fun id hle => ⟨(h.fresh id (Nat.le_of_succ_le hle)).1, ?_⟩⟩
  · rw [droppingCell_withDropping] at hi
    change Function.update m.droppingCell m.droppingBatchCount (some m.nextBatch) i = some id at hi
    by_cases he : i = m.droppingBatchCount
    · rw [he, Function.update_self] at hi
      cases hi
      exact ⟨b, Function.update_self .., hindex.trans he.symm⟩
    · rw [Function.update_of_ne he] at hi
      obtain ⟨b', hb', hi'⟩ := h.droppings i id hi
      refine ⟨b', (Function.update_of_ne ?_ ..).trans hb', hi'⟩
      rintro rfl
      rw [(h.fresh _ le_rfl).2] at hb'
      cases hb'
  · exact (Function.update_of_ne (Nat.ne_of_gt hle) ..).trans (h.fresh id (Nat.le_of_succ_le hle)).2

theorem Listed.withDropping {except : Option ℕ} (h : Listed except m) {b : DroppingBatch}
    (hindex : b.index = m.droppingBatchCount) : Listed except (m.withDropping b) := by
  intro id b' hb' hne
  rw [droppingCell_withDropping]
  change Function.update m.dropping m.nextBatch (some b) id = some b' at hb'
  by_cases he : id = m.nextBatch
  · rw [he, Function.update_self] at hb'
    cases hb'
    rw [hindex, Function.update_self, he]
  · rw [Function.update_of_ne he] at hb'
    have hcell := h id b' hb' hne
    rw [Function.update_of_ne, hcell]
    intro hlast
    exact absurd (firsts_eq_some.1 hcell).1 (by omega)

/-! ## Single drops -/

theorem slot_drop_end (j : ℕ) : m.slot ⟨.drop, m.dropBatchEnd, j⟩ = none := by
  change (Option.bind (Option.bind (m.cell m.dropBatchEnd) m.batch)) _ = none
  rw [cell_end]
  rfl

/-- A batch with one drop. -/
theorem slot_withBatch_single (h : Placed env m) {b : DropBatch} {oid : UInt32} {item : DropItem}
    (hb : b.drops = [⟨oid, item⟩]) : (m.withBatch b).slot =
      Function.update m.slot ⟨.drop, m.dropBatchEnd, 0⟩ (some oid) := by
  funext ⟨t, i, j⟩
  rw [slot_withBatch h]
  by_cases hp : t = .drop ∧ i = m.dropBatchEnd
  · obtain ⟨rfl, rfl⟩ := hp
    rw [if_pos ⟨rfl, rfl⟩, DropBatch.oidAt, hb]
    rcases j with - | j
    · rw [Function.update_self]
      rfl
    · rw [Function.update_of_ne (by rintro ⟨⟩), slot_drop_end]
      rfl
  · rw [if_neg hp, Function.update_of_ne]
    rintro ⟨⟩
    exact hp ⟨rfl, rfl⟩

theorem appendBatch_spec (id : ℕ) : Exec.Ensures (m.appendBatch id) fun m' => m' = { m with
    dropBatches := Function.update m.dropBatches m.dropBatchEnd (some id)
    dropBatchEnd := m.dropBatchEnd + 1
    nextBatch := m.nextBatch + 1 } := Exec.within_spec.bind fun _ _ => .pure rfl

theorem addTimer_eq {ok : Bool} {timer : MapTimer} {o : Option ℕ} {m' : Map}
    (h : m.addTimer ok timer = (o, m')) :
    ∃ timers next, m' = { m with timers := timers, nextTimer := next } := by
  rw [addTimer] at h
  split at h <;> cases h <;> exact ⟨_, _, rfl⟩

theorem addBatch_spec (h : Placed env m) (alloc : ℕ → Bool) (r : PlayerRef) (timer : MapTimer)
    (exclusive : Bool) (item : DropItem) :
    Exec.Ensures (m.addBatch env alloc r timer exclusive item) fun x =>
      DropsOnly env m x.2 ∧ ∃ i, x.2.placeOf env x.1 = some ⟨.drop, i, 0⟩ := by
  rw [addBatch]
  split
  · exact .bind .error fun _ (h : False) => h.elim
  · refine (appendBatch_spec m.nextBatch).bind fun m₁ hm₁ => ?_
    rcases htimer : m₁.addTimer (alloc 1) timer with ⟨o, m₂⟩
    obtain ⟨timers, next, hm₂⟩ := addTimer_eq htimer
    have htracked₂ : Tracked env m₂ := by
      rw [hm₂, hm₁]
      exact h.tracks
    refine (allocateObject_spec htracked₂ (alloc 2) (alloc 3) .drop _ 0).bind ?_
    rintro ⟨oid, m₃⟩ ⟨hnone, -, list, rfl, htracked, hplace⟩
    clear htimer
    subst hm₂ hm₁
    refine .andThen fun p hp => MapPlayer.pushDrop_spec.bind fun p' hp' => .pure ?_
    obtain ⟨-, rfl⟩ := hp'
    set b : DropBatch := ⟨o, some r, p.dropCount, p.charId, exclusive, [⟨oid, item⟩]⟩
    refine ⟨⟨?_, ?_, rfl⟩, m.dropBatchEnd, ?_⟩
    · refine (h.withBatch (b := b) htracked ?_).of_things rfl
      rw [slot_withBatch_single h (b := b) rfl]
      exact hplace ▸ h.linked.put hnone (slot_drop_end 0)
    · exact control_setPlayer (congrArg MapPlayer.control (getPlayer_eq_ok.1 hp).2).symm
    · exact congrFun hplace oid |>.trans (Function.update_self ..)

theorem growBatches_eq {alloc : Bool} {m' : Map} (h : m.growBatches alloc = some m') :
    ∃ capacity, m' = { m with dropBatchCapacity := capacity } := by
  rw [growBatches] at h
  split at h
  · split at h
    · exact ⟨_, (Option.some.inj h).symm⟩
    · cases h
  · exact ⟨_, (Option.some.inj h).symm⟩

/-- Where there is room, only the room has been made. -/
theorem growDrops_dropsOnly (h : Placed env m) (alloc : Bool) (r : PlayerRef) :
    Exec.Ensures (m.growDrops alloc r) fun grown => ∀ m', grown = some m' → DropsOnly env m m' := by
  refine (growDrops_spec alloc r).mono fun grown hgrown m' hm' => ?_
  obtain ⟨p, hp, rfl⟩ := hgrown m' hm'
  refine ⟨h.of_things rfl, control_setPlayer ?_, rfl⟩
  rw [MapPlayer.growDrop_control, (getPlayer_eq_ok.1 hp).2]

theorem dropOne_spec (h : Placed env m) (o : Outcomes) (r : PlayerRef) (item : DropItem) :
    Exec.Ensures (m.dropOne env o r item) fun x => DropsOnly env m x.2 := by
  have hm : DropsOnly env m m := ⟨h, rfl, rfl⟩
  rw [dropOne]
  split
  · exact .pure hm
  · rename_i m₁ hgrow
    obtain ⟨capacity, rfl⟩ := growBatches_eq hgrow
    have h₁ : DropsOnly env m { m with dropBatchCapacity := capacity } :=
      ⟨h.setCapacity capacity, rfl, rfl⟩
    refine (growDrops_dropsOnly h₁.placed (o.alloc 1) r).bind fun grown hgrown => ?_
    rcases grown with - | m₂
    · exact .pure h₁
    · have h₂ := h₁.trans (hgrown m₂ rfl)
      refine (addBatch_spec h₂.placed _ r _ true item).bind ?_
      rintro ⟨oid, m₃⟩ ⟨h₃, i, hoid⟩
      have h₃ := h₂.trans h₃
      dsimp only
      split
      · refine (mapRemoveDrop_spec h₃.placed _ hoid (.inl rfl)).bind fun m₄ h₄ => ?_
        exact .pure (h₃.trans h₄)
      · exact .pure h₃

/-- `map_add_player_drop` changes nothing but drops. -/
theorem mapAddPlayerDrop_spec (h : Placed env m) (o : Outcomes) (r : PlayerRef) (item : DropItem) :
    Exec.Ensures (mapAddPlayerDrop env o m r item) (DropsOnly env m) := by
  have hm : DropsOnly env m m := ⟨h, rfl, rfl⟩
  rw [mapAddPlayerDrop]
  split
  · exact .pure hm
  · rename_i m₁ hgrow
    obtain ⟨capacity, rfl⟩ := growBatches_eq hgrow
    have h₁ : DropsOnly env m { m with dropBatchCapacity := capacity } :=
      ⟨h.setCapacity capacity, rfl, rfl⟩
    refine (growDrops_dropsOnly h₁.placed (o.alloc 1) r).bind fun grown hgrown => ?_
    rcases grown with - | m₂
    · exact .pure h₁
    · have h₂ := h₁.trans (hgrown m₂ rfl)
      refine (addBatch_spec h₂.placed _ r _ false item).bind ?_
      rintro ⟨oid, m₃⟩ ⟨h₃, -⟩
      exact .pure (h₂.trans h₃)

/-! ## Several drops -/

theorem slot_dropping_end (j : ℕ) : m.slot ⟨.dropping, m.droppingBatchCount, j⟩ = none := by
  change (Option.bind (Option.bind (m.droppingCell m.droppingBatchCount) m.dropping)) _ = none
  rw [droppingCell, firsts_eq_none.2 le_rfl]
  rfl

/-- A dropping batch of which one drop has been dropped. -/
theorem slot_withDropping_single (h : Placed env m) {b : DroppingBatch} {oid : UInt32}
    {item : DropItem} {rest : List Drop} (hcurrent : b.current = 1)
    (hb : b.drops = ⟨oid, item⟩ :: rest) : (m.withDropping b).slot =
      Function.update m.slot ⟨.dropping, m.droppingBatchCount, 0⟩ (some oid) := by
  funext ⟨t, i, j⟩
  rw [slot_withDropping h]
  by_cases hp : t = .dropping ∧ i = m.droppingBatchCount
  · obtain ⟨rfl, rfl⟩ := hp
    rw [if_pos ⟨rfl, rfl⟩, DroppingBatch.oidAt, hb, hcurrent]
    rcases j with - | j
    · rw [Function.update_self]
      rfl
    · rw [Function.update_of_ne (by rintro ⟨⟩), slot_dropping_end, if_neg (Nat.not_lt.2 (Nat.le_add_left ..))]
  · rw [if_neg hp, Function.update_of_ne]
    rintro ⟨⟩
    exact hp ⟨rfl, rfl⟩

/-- A batch that starts dropping is new, and everything else is as it was. -/
structure Started (env : Env) (m : Map) (oid : UInt32) (m' : Map) : Prop where
  placed : Placed env m'
  control : m'.control = m.control
  droppers : ∃ b, b.dropperOid = oid ∧ b.index = m.droppingBatchCount ∧
    m'.droppers = (m.withDropping b).droppers

/-- What has just been dropped may be picked up. -/
theorem Started.pickUp {m' : Map} {dropperOid oid : UInt32} (h : Started env m dropperOid m')
    (hoid : m'.placeOf env oid = some ⟨.dropping, m.droppingBatchCount, 0⟩) (picksUp : Bool)
    (alloc : ℕ → Bool) : Exec.Ensures (if picksUp then do
        let m ← mapRemoveDrop env alloc m' oid
        return (true, m)
      else return (true, m')) fun x : Bool × Map => Started env m dropperOid x.2 := by
  split
  · refine (mapRemoveDrop_spec h.placed _ hoid (.inr rfl)).bind fun m₁ h₁ => .pure ?_
    obtain ⟨b, hdropper, hindex, hb⟩ := h.droppers
    exact ⟨h₁.placed, h₁.control.trans h.control, b, hdropper, hindex, h₁.droppers.trans hb⟩
  · exact .pure h

theorem dropMany_spec (h : Placed env m) (o : Outcomes) (r : PlayerRef) (dropperOid : UInt32)
    (first : DropItem) (rest : List DropItem) :
    Exec.Ensures (m.dropMany env o r dropperOid first rest) fun x =>
      DropsOnly env m x.2 ∨ Started env m dropperOid x.2 := by
  rw [dropMany]
  split
  · exact .pure (.inl ⟨h, rfl, rfl⟩)
  · dsimp only
    obtain ⟨capacity, hcapacity⟩ : ∃ c, (if m.droppingBatchCount = m.droppingBatchCapacity then
      { m with droppingBatchCapacity := m.droppingBatchCapacity * 2 } else m) =
        { m with droppingBatchCapacity := c } := by
      split <;> exact ⟨_, rfl⟩
    rw [hcapacity]
    refine .andThen fun p hp => ?_
    have hcontrol : p.control = (m.players r.index).control :=
      congrArg MapPlayer.control (getPlayer_eq_ok.1 hp).2.symm
    split
    · exact .pure (.inl ⟨h.of_things rfl, rfl, rfl⟩)
    · obtain ⟨p', hp'⟩ : ∃ p', p' = if p.droppingCount = p.droppingCapacity then
        { p with
          droppingCapacity := p.droppingCapacity * 2, droppingSize := p.droppingCapacity * 2 }
        else p := ⟨_, rfl⟩
      have hcontrol' : p'.control = p.control := by
        rw [hp']
        split <;> rfl
      rw [← hp']
      split
      · exact .pure (.inl ⟨h.of_things rfl, control_setPlayer (hcontrol'.trans hcontrol), rfl⟩)
      · set m₁ : Map := { m with droppingBatchCapacity := capacity }.setPlayer r p' with hm₁
        have h₁ : Placed env m₁ := h.of_things rfl
        rcases htimer : m₁.addTimer (o.alloc 3) (.nextDrop m₁.nextBatch) with ⟨t, m₂⟩
        obtain ⟨timers, next, hm₂⟩ := addTimer_eq htimer
        clear htimer
        have htracked₂ : Tracked env m₂ := by
          rw [hm₂]
          exact h₁.tracks
        dsimp only
        refine (allocateObject_spec htracked₂ (o.alloc 4) (o.alloc 5) .dropping _ 0).bind ?_
        rintro ⟨oid, m₃⟩ ⟨hnone, -, list, rfl, htracked, hplace⟩
        refine Exec.within_spec.bind fun _ _ => MapPlayer.pushDropping_spec.bind fun p'' hp'' => ?_
        obtain ⟨-, rfl⟩ := hp''
        subst hm₂
        set b : DroppingBatch := ⟨m₁.droppingBatchCount, 1, t, some r, p'.droppingCount, p'.charId,
          dropperOid, ⟨oid, first⟩ :: rest.map (Drop.mk 0)⟩
        refine (Started.pickUp (m := m) ⟨?_, ?_, ?_⟩ ?_ _ _).mono fun x hx => Or.inr hx
        · refine (h₁.withDropping (b := b) rfl htracked ?_).of_things rfl
          rw [slot_withDropping_single h₁ (b := b) rfl rfl]
          exact hplace ▸ h₁.linked.put hnone (slot_dropping_end 0)
        · have hpushed : MapPlayer.control { p' with
              droppings := Function.update p'.droppings p'.droppingCount m₁.nextBatch
              droppingCount := p'.droppingCount + 1 } =
                (Function.update m.players r.index p' r.index).control := by
            rw [Function.update_self]
            rfl
          exact (control_setPlayer hpushed).trans (control_setPlayer (hcontrol'.trans hcontrol))
        · exact ⟨b, rfl, rfl, rfl⟩
        · exact (congrFun hplace oid).trans (Function.update_self ..)

/-! ## Drop tables -/

theorem mapDropBatchFromMapObject_spec (h : Placed env m) (o : Outcomes) (r : PlayerRef)
    (dropperOid : UInt32) (drops : List DropItem) :
    Exec.Ensures (mapDropBatchFromMapObject env o m r dropperOid drops) fun x =>
      DropsOnly env m x.2 ∨ drops.length ≠ 1 ∧ Started env m dropperOid x.2 := by
  rcases drops with - | ⟨first, - | ⟨second, rest⟩⟩
  · exact .pure (.inl ⟨h, rfl, rfl⟩)
  · exact (dropOne_spec h o r first).mono fun _ => .inl
  · exact (dropMany_spec h o r dropperOid first (second :: rest)).mono fun x hx =>
      hx.imp_right fun hx => ⟨by rw [List.length_cons, List.length_cons]; omega, hx⟩

/-- A reactor drops something. -/
theorem mapDropBatchFromReactor_spec {env : MapEnv} (h : Placed env.toEnv m) (o : Outcomes)
    (r : PlayerRef) (oid : UInt32) :
    Exec.Ensures (mapDropBatchFromReactor env o m r oid) fun x => DropsOnly env.toEnv m x.2 ∨
      (∃ i, m.placeOf env.toEnv oid = some ⟨.reactor, i, 0⟩) ∧ Started env.toEnv m oid x.2 := by
  rw [mapDropBatchFromReactor]
  split
  · exact .pure (.inl ⟨h, rfl, rfl⟩)
  · rename_i object hobject
    split
    · exact .pure (.inl ⟨h, rfl, rfl⟩)
    · rename_i ht
      have hoid := Tracked.oid_eq h.tracks hobject
      have hplace : m.placeOf env.toEnv oid = some object.place := by
        rw [placeOf, hobject, Option.map_some]
      refine .andThen fun reactor _ => .andThen fun info _ => .andThen fun drops _ => ?_
      refine (mapDropBatchFromMapObject_spec h o r object.oid drops).mono fun x hx => ?_
      refine hx.imp_right fun hx => ⟨⟨object.index, ?_⟩, hoid ▸ hx.2⟩
      have hslot := (h.linked ..).1 hplace
      obtain ⟨t, oid', i, j⟩ := object
      obtain rfl : t = .reactor := not_not.1 ht
      by_cases hj : j = 0
      · rw [hplace, MapObject.place, hj]
      · exact absurd hslot (by rw [MapObject.place, slot, if_neg hj]; simp)

end Map

end Syrup
