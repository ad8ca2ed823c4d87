import Syrup.Map.Places.Monsters

/-!
# The places of drops that wait

What the timers of a map do to the places of objects: a dropping batch drops the next one, and becomes
a batch when there is nothing left to drop; and batches expire.
-/

namespace Syrup

open BackLinks

namespace Map

variable {env : Env} {m : Map}

/-! ## From a dropping batch to a batch -/

/-- The last dropping batch takes the place of one that is taken out. -/
theorem removeDroppingBatch_spec (h : Tracked env m) (alloc : Bool) (index : ℕ) :
    Exec.Ensures (m.removeDroppingBatch env alloc index) fun m' => 0 < m.droppingBatchCount ∧
      ∃ moved, m.dropping (m.droppingBatches (m.droppingBatchCount - 1)) = some moved ∧
        ∃ capacity list, m' = { m with
          objectList := list
          droppingBatchCapacity := capacity
          droppingBatchCount := m.droppingBatchCount - 1
          droppingBatches := Function.update m.droppingBatches index
            (m.droppingBatches (m.droppingBatchCount - 1))
          dropping := Function.update m.dropping (m.droppingBatches (m.droppingBatchCount - 1))
            (some { moved with index := index }) } ∧
          Tracked env m' ∧ ∀ oid, m'.placeOf env oid =
            if oid ∈ (moved.drops.take moved.current).map Drop.oid then
              (m.placeOf env oid).map fun p => { p with index := index }
            else m.placeOf env oid := by
  refine Exec.last_spec.bind fun last hlast => Exec.within_spec.bind fun _ _ => ?_
  obtain ⟨hpos, rfl⟩ := hlast
  refine .bind (.deref fun moved h => h) fun moved hmoved => ?_
  refine Exec.Ensures.bind (rewriteObjects_spec (f := fun o => .ok { o with index := index })
    (g := fun p => { p with index := index }) ?_ (fun o => .ok ⟨rfl, rfl⟩) (fun p => rfl)
    (moved.drops.take moved.current)) ?_
  · exact h
  rintro m' ⟨list, rfl, htracked, hplace⟩
  refine .pure ⟨hpos, moved, hmoved, ?_⟩
  split
  · exact ⟨_, list, rfl, htracked, hplace⟩
  · exact ⟨_, list, rfl, htracked, hplace⟩

/-- Where an object is when a dropping batch has become a batch. -/
def promoted (m : Map) (index : ℕ) (p : MapPlace) : MapPlace :=
  if p.type = .dropping ∧ p.index = index then ⟨.drop, m.dropBatchEnd, p.index2⟩
  else if p.type = .dropping ∧ p.index = m.droppingBatchCount - 1 then { p with index := index }
  else p

/-- An object of the last dropping batch is told its new place, and then one of the batch. -/
theorem map_promoted {o : Option MapPlace} {index : ℕ} {A B : Prop} [Decidable A] [Decidable B]
    (hA : A ↔ ∃ j, o = some ⟨.dropping, m.droppingBatchCount - 1, j⟩)
    (hB : B ↔ ∃ j, o = some ⟨.dropping, index, j⟩) :
    (if B then (if A then o.map fun p => { p with index := index } else o).map fun p =>
        { p with type := .drop, index := m.dropBatchEnd }
      else if A then o.map fun p => { p with index := index } else o) =
    o.map (m.promoted index) := by
  by_cases hb : B
  · obtain ⟨j, rfl⟩ := hB.1 hb
    have hself : m.promoted index ⟨.dropping, index, j⟩ = ⟨.drop, m.dropBatchEnd, j⟩ :=
      if_pos ⟨rfl, rfl⟩
    rw [if_pos hb, Option.map_some, Option.map_some, hself]
    split <;> rfl
  · rw [if_neg hb]
    by_cases ha : A
    · obtain ⟨j, rfl⟩ := hA.1 ha
      rw [if_pos ha, Option.map_some, Option.map_some, promoted, if_neg, if_pos ⟨rfl, rfl⟩]
      rintro ⟨-, he⟩
      exact hb (hB.2 ⟨j, by rw [← he]⟩)
    · rw [if_neg ha]
      cases o with
      | none => rfl
      | some p =>
        rw [Option.map_some, promoted, if_neg, if_neg]
        · rintro ⟨ht, he⟩
          exact ha (hA.2 ⟨p.index2, by rw [← ht, ← he]⟩)
        · rintro ⟨ht, he⟩
          exact hb (hB.2 ⟨p.index2, by rw [← ht, ← he]⟩)

/-- The dropping batches when the last one has taken the place of another one. -/
def promotedDroppings (m : Map) (index : ℕ) : ℕ → Option DroppingBatch :=
  Function.update m.dropping (m.droppingBatches (m.droppingBatchCount - 1))
    ((m.dropping (m.droppingBatches (m.droppingBatchCount - 1))).map fun moved =>
      { moved with index := index })

/-- A batch is at the end of the window, and the last dropping batch is in the place of another one. -/
def withPromoted (m : Map) (index : ℕ) (b : DropBatch) : Map :=
  { m.withBatch b with
    droppingBatchCount := m.droppingBatchCount - 1
    droppingBatches := Function.update m.droppingBatches index
      (m.droppingBatches (m.droppingBatchCount - 1))
    dropping := m.promotedDroppings index }

section Promoted

variable {index : ℕ} (hindex : index < m.droppingBatchCount)
include hindex

theorem droppingCell_withPromoted (b : DropBatch) : (m.withPromoted index b).droppingCell =
    Function.update (Function.update m.droppingCell index
      (some (m.droppingBatches (m.droppingBatchCount - 1)))) (m.droppingBatchCount - 1) none :=
  firsts_fill hindex

theorem droppingCell_last :
    m.droppingCell (m.droppingBatchCount - 1) = some (m.droppingBatches (m.droppingBatchCount - 1)) :=
  firsts_of_lt (by omega)

/-- Where the drops of the dropping batches are afterwards. -/
theorem slot_dropping_withPromoted (h : Placed env m) (b : DropBatch) (i j : ℕ) :
    (m.withPromoted index b).slot ⟨.dropping, i, j⟩ =
      if i < m.droppingBatchCount - 1 then
        m.slot ⟨.dropping, if i = index then m.droppingBatchCount - 1 else i, j⟩
      else none := by
  change Option.bind (Option.bind (droppingCell _ i) _) _ = _
  rw [droppingCell_withPromoted hindex]
  split
  · rename_i hi
    rw [Function.update_of_ne (by omega)]
    split
    · rename_i he
      rw [he, Function.update_self, Option.bind_some]
      change Option.bind (Function.update m.dropping _ _ _) _ =
        Option.bind (Option.bind (m.droppingCell (m.droppingBatchCount - 1)) m.dropping) _
      rw [Function.update_self, droppingCell_last hindex, Option.bind_some, Option.bind_map]
      rfl
    · rename_i he
      rw [Function.update_of_ne he]
      change _ = Option.bind (Option.bind (m.droppingCell i) m.dropping) _
      cases hc : m.droppingCell i with
      | none => rfl
      | some id =>
        rw [Option.bind_some, Option.bind_some]
        refine congrArg (Option.bind · _) (Function.update_of_ne ?_ ..)
        rintro rfl
        have := h.dropping_ext hc (droppingCell_last hindex)
        omega
  · rename_i hi
    by_cases he : i = m.droppingBatchCount - 1
    · rw [he, Function.update_self]
      rfl
    · rw [Function.update_of_ne he, Function.update_of_ne (by omega), droppingCell,
        firsts_eq_none.2 (by omega)]
      rfl

omit hindex in
theorem slot_withPromoted (h : Placed env m) (b : DropBatch) {p : MapPlace} (hp : p.type ≠ .dropping) :
    (m.withPromoted index b).slot p =
      if p.type = .drop ∧ p.index = m.dropBatchEnd then b.oidAt p.index2 else m.slot p := by
  rw [← slot_withBatch h b]
  obtain ⟨t, i, j⟩ := p
  rcases t
  case dropping => exact absurd rfl hp
  all_goals rfl

end Promoted

theorem Placed.promote (h : Placed env m) {index id : ℕ} {batch : DroppingBatch} {b : DropBatch}
    (hi : m.droppingCell index = some id) (hid : m.dropping id = some batch)
    (hcurrent : batch.drops.length ≤ batch.current) (hb : b.drops = batch.drops) {list : ObjectList}
    (ht : Tracked env { m with objectList := list })
    (hplace : ∀ oid, placeOf { m with objectList := list } env oid =
      (m.placeOf env oid).map (m.promoted index)) :
    Placed env { m.withPromoted index b with objectList := list } := by
  have hindex : index < m.droppingBatchCount := (firsts_eq_some.1 hi).1
  have hoid (j : ℕ) : b.oidAt j = m.slot ⟨.dropping, index, j⟩ := by
    change _ = Option.bind (Option.bind (m.droppingCell index) m.dropping) _
    rw [hi, Option.bind_some, hid, Option.bind_some, DropBatch.oidAt, hb, DroppingBatch.oidAt]
    split
    · rfl
    · rw [List.getElem?_eq_none (by omega)]
      rfl
  refine ⟨ht, h.linked.relocate (m.promoted index) hplace ?_, h.window.trans (Nat.le_succ _),
    h.cells_withBatch b, fun i id' hi' => ?_, fun id' hle => ⟨h.fresh_withBatch b id' hle, ?_⟩⟩
  · change ∀ q x, (m.withPromoted index b).slot q = some x ↔ _
    rintro ⟨t, i, j⟩ x
    constructor
    · intro hq
      by_cases ht : t = .dropping
      · subst ht
        rw [slot_dropping_withPromoted hindex h] at hq
        split at hq
        · rename_i hlt
          refine ⟨_, hq, ?_⟩
          split
          · rename_i he
            rw [promoted, if_neg fun h => (he ▸ hlt : index < _).ne' h.2, if_pos ⟨rfl, rfl⟩, he]
          · rename_i he
            rw [promoted, if_neg fun h => he h.2, if_neg fun h => absurd h.2 (Nat.ne_of_lt hlt)]
        · cases hq
      · rw [slot_withPromoted h b ht] at hq
        split at hq
        · rename_i hp
          obtain ⟨rfl, rfl⟩ := hp
          exact ⟨_, (hoid j).symm.trans hq, if_pos ⟨rfl, rfl⟩⟩
        · exact ⟨_, hq, by rw [promoted, if_neg fun h => ht h.1, if_neg fun h => ht h.1]⟩
    · rintro ⟨⟨t', i', j'⟩, hp, he⟩
      by_cases ht : t' = .dropping
      · subst ht
        have hi' : i' < m.droppingBatchCount := by
          obtain ⟨b', hb', -⟩ := slot_dropping_eq_some.1 hp
          obtain ⟨id', hc, -⟩ := droppingAt_eq_some.1 hb'
          exact (firsts_eq_some.1 hc).1
        rw [promoted] at he
        split at he
        · rename_i hk
          obtain rfl : i' = index := hk.2
          cases he
          rw [slot_withPromoted h b (by rintro ⟨⟩), if_pos ⟨rfl, rfl⟩]
          exact (hoid j').trans hp
        · rename_i hk
          have hne : i' ≠ index := fun h => hk ⟨rfl, h⟩
          split at he
          · rename_i hl
            obtain rfl : i' = m.droppingBatchCount - 1 := hl.2
            cases he
            rw [slot_dropping_withPromoted hindex h, if_pos (by omega), if_pos rfl]
            exact hp
          · rename_i hl
            have hlast : i' ≠ m.droppingBatchCount - 1 := fun h => hl ⟨rfl, h⟩
            cases he
            rw [slot_dropping_withPromoted hindex h, if_pos (by omega), if_neg hne]
            exact hp
      · rw [promoted, if_neg fun h => ht h.1, if_neg fun h => ht h.1] at he
        cases he
        rw [slot_withPromoted h b ht, if_neg]
        · exact hp
        · rintro ⟨rfl, rfl⟩
          rw [slot_drop_end] at hp
          cases hp
  · change (m.withPromoted index b).droppingCell i = some id' at hi'
    rw [droppingCell_withPromoted hindex] at hi'
    obtain ⟨moved, hmoved, hlast⟩ := h.droppings _ _ (droppingCell_last hindex)
    by_cases hl : i = m.droppingBatchCount - 1
    · rw [hl, Function.update_self] at hi'
      cases hi'
    · rw [Function.update_of_ne hl] at hi'
      by_cases he : i = index
      · rw [he, Function.update_self] at hi'
        cases hi'
        refine ⟨{ moved with index := index }, ?_, he.symm⟩
        exact (Function.update_self ..).trans (by rw [hmoved, Option.map_some])
      · rw [Function.update_of_ne he] at hi'
        obtain ⟨b', hb', rfl⟩ := h.droppings i id' hi'
        refine ⟨b', (Function.update_of_ne ?_ ..).trans hb', rfl⟩
        rintro rfl
        exact hl (h.dropping_ext hi' (droppingCell_last hindex))
  · have hnone := (h.fresh id' (Nat.le_of_succ_le hle)).2
    by_cases he : id' = m.droppingBatches (m.droppingBatchCount - 1)
    · subst he
      exact (Function.update_self ..).trans (by rw [hnone, Option.map_none])
    · exact (Function.update_of_ne he ..).trans hnone

/-- The drops of a dropping batch that have been dropped are those whose objects tell its place. -/
theorem Placed.mem_dropped (h : Placed env m) {i : ℕ} {b : DroppingBatch}
    (hb : m.droppingAt i = some b) {oid : UInt32} :
    oid ∈ (b.drops.take b.current).map Drop.oid ↔
      ∃ j, m.placeOf env oid = some ⟨.dropping, i, j⟩ := by
  rw [List.mem_iff_getElem?]
  refine exists_congr fun j => ?_
  rw [h.linked, slot_dropping_eq_some, List.getElem?_map, List.getElem?_take]
  have hj : Option.map Drop.oid (if j < b.current then b.drops[j]? else none) = b.oidAt j := by
    rw [DroppingBatch.oidAt]
    split <;> rfl
  rw [hj]
  constructor
  · intro hj
    exact ⟨b, hb, hj⟩
  · rintro ⟨b', hb', hj⟩
    obtain rfl := Option.some.inj (hb.symm.trans hb')
    exact hj

/-- The dropping batches but for the one that goes are where they tell. -/
theorem Listed.withPromoted (h : Placed env m) (hlisted : Listed none m) {index id : ℕ}
    (hi : m.droppingCell index = some id) (b : DropBatch) :
    Listed (some id) (m.withPromoted index b) := by
  have hindex : index < m.droppingBatchCount := (firsts_eq_some.1 hi).1
  have hlast := droppingCell_last hindex
  obtain ⟨moved, hmoved, -⟩ := h.droppings _ _ hlast
  intro id' b' hb' hne
  rw [droppingCell_withPromoted hindex]
  have hne' : id' ≠ id := fun he => hne (congrArg some he)
  change Function.update m.dropping _ _ id' = some b' at hb'
  by_cases he : id' = m.droppingBatches (m.droppingBatchCount - 1)
  · subst he
    rw [Function.update_self, hmoved] at hb'
    cases hb'
    have hil : index ≠ m.droppingBatchCount - 1 := by
      intro he
      exact hne' (Option.some.inj (hlast.symm.trans ((congrArg m.droppingCell he.symm).trans hi)))
    rw [Function.update_of_ne hil, Function.update_self]
  · rw [Function.update_of_ne he] at hb'
    have hcell := hlisted id' b' hb' nofun
    rw [Function.update_of_ne, Function.update_of_ne, hcell]
    · intro hk
      rw [hk, hi] at hcell
      exact hne' (Option.some.inj hcell).symm
    · intro hk
      rw [hk, hlast] at hcell
      exact he (Option.some.inj hcell).symm

/-- What a dropping batch has become: a batch of the drops that it has dropped. -/
structure HasPromoted (env : Env) (m : Map) (id : ℕ) (batch : DroppingBatch) (m' : Map) : Prop where
  placed : Placed env m'
  control : m'.control = m.control
  listed : Listed (some id) m'
  gone : ∀ i, m'.droppingCell i ≠ some id
  droppers : ∀ id', (m'.dropping id').map (fun b => (b.dropperOid, b.timer)) =
    (m.dropping id').map fun b => (b.dropperOid, b.timer)
  place : ∀ j d, batch.drops[j]? = some d →
    m'.placeOf env d.oid = some ⟨.drop, m.dropBatchEnd, j⟩

/-- A place has been made in the window. -/
def withCell (m : Map) (timers : ℕ → Option MapTimer) (next : ℕ) : Map :=
  { m with
    dropBatches := Function.update m.dropBatches m.dropBatchEnd (some m.nextBatch)
    dropBatchEnd := m.dropBatchEnd + 1
    nextBatch := m.nextBatch + 1
    timers := timers
    nextTimer := next }

section Promote

variable {id : ℕ} {batch : DroppingBatch} (h : Placed env m) (hlisted : Listed none m)
  (hid : m.dropping id = some batch) (hcurrent : batch.drops.length ≤ batch.current)
include h hlisted hid hcurrent

/-- The objects of a dropping batch that becomes a batch. -/
theorem promote_objects (timers : ℕ → Option MapTimer) (next : ℕ) (alloc : Bool) :
    Exec.Ensures (((m.withCell timers next).removeDroppingBatch env alloc batch.index) >>= fun m' =>
      m'.rewriteObjects env
        (fun object => .ok { object with type := .drop, index := m'.dropBatchEnd - 1 }) batch.drops)
      fun m' => ∃ capacity list, m' = { m.withCell timers next with
        objectList := list
        droppingBatchCapacity := capacity
        droppingBatchCount := m.droppingBatchCount - 1
        droppingBatches := Function.update m.droppingBatches batch.index
          (m.droppingBatches (m.droppingBatchCount - 1))
        dropping := m.promotedDroppings batch.index } ∧ Tracked env m' ∧
          ∀ oid, m'.placeOf env oid = (m.placeOf env oid).map (m.promoted batch.index) := by
  have hcell : m.droppingCell batch.index = some id := hlisted id batch hid nofun
  refine Exec.Ensures.bind (removeDroppingBatch_spec (by exact h.tracks) alloc batch.index) ?_
  rintro m₁ ⟨-, moved, hmoved, capacity, list₁, rfl, htracked₁, hplace₁⟩
  refine Exec.Ensures.mono (rewriteObjects_spec
    (f := fun o => .ok { o with type := .drop, index := m.dropBatchEnd + 1 - 1 })
    (g := fun p => { p with type := .drop, index := m.dropBatchEnd }) htracked₁
    (fun o => .ok ⟨rfl, rfl⟩) (fun p => rfl) batch.drops) ?_
  rintro m₂ ⟨list, rfl, htracked, hplace⟩
  refine ⟨capacity, list, ?_, htracked, fun oid => ?_⟩
  · have hdropping : m.promotedDroppings batch.index = Function.update m.dropping
        (m.droppingBatches (m.droppingBatchCount - 1)) (some { moved with index := batch.index }) :=
      congrArg (Function.update _ _) (congrArg _ hmoved)
    rw [hdropping]
    rfl
  · have hlast : m.droppingAt (m.droppingBatchCount - 1) = some moved :=
      droppingAt_eq_some.2 ⟨_, droppingCell_last (firsts_eq_some.1 hcell).1, hmoved⟩
    have hmem₁ : oid ∈ _ ↔ _ := h.mem_dropped hlast
    have hmem₂ : oid ∈ _ ↔ _ := h.mem_dropped (droppingAt_eq_some.2 ⟨id, hcell, hid⟩)
    rw [List.take_of_length_le hcurrent] at hmem₂
    rw [hplace, hplace₁]
    exact map_promoted hmem₁ hmem₂

/-- The batch is put into its place. -/
theorem promote_setBatch {timers : ℕ → Option MapTimer} {next capacity : ℕ} {list : ObjectList}
    {m' : Map} (hm' : m' = { m.withCell timers next with
      objectList := list
      droppingBatchCapacity := capacity
      droppingBatchCount := m.droppingBatchCount - 1
      droppingBatches := Function.update m.droppingBatches batch.index
        (m.droppingBatches (m.droppingBatchCount - 1))
      dropping := m.promotedDroppings batch.index }) (htracked : Tracked env m')
    (hplace : ∀ oid, m'.placeOf env oid = (m.placeOf env oid).map (m.promoted batch.index))
    {b : DropBatch} (hb : b.drops = batch.drops) :
    HasPromoted env m id batch (m'.setBatch m.nextBatch (some b)) := by
  have hcell : m.droppingCell batch.index = some id := hlisted id batch hid nofun
  have hindex : batch.index < m.droppingBatchCount := (firsts_eq_some.1 hcell).1
  obtain ⟨moved, hmoved, -⟩ := h.droppings _ _ (droppingCell_last hindex)
  subst hm'
  refine ⟨(h.promote hcell hid hcurrent hb htracked hplace).of_things rfl, rfl,
    Listed.withPromoted h hlisted hcell b, fun i hi => ?_, fun id' => ?_,
    fun j d hd => (hplace d.oid).trans ?_⟩
  · change (m.withPromoted batch.index b).droppingCell i = some id at hi
    rw [droppingCell_withPromoted hindex] at hi
    have hlast := droppingCell_last hindex
    by_cases hl : i = m.droppingBatchCount - 1
    · rw [hl, Function.update_self] at hi
      cases hi
    · rw [Function.update_of_ne hl] at hi
      by_cases he : i = batch.index
      · rw [he, Function.update_self] at hi
        rw [Option.some.inj hi] at hlast
        exact hl (he.trans (h.dropping_ext hcell hlast))
      · rw [Function.update_of_ne he] at hi
        exact he (h.dropping_ext hi hcell)
  · change (m.promotedDroppings batch.index id').map _ = _
    rw [promotedDroppings]
    by_cases he : id' = m.droppingBatches (m.droppingBatchCount - 1)
    · rw [he, Function.update_self, hmoved]
      rfl
    · rw [Function.update_of_ne he]
  · have hj : j < batch.current := by
      have := (List.getElem?_eq_some_iff.1 hd).1
      omega
    have hslot : m.slot ⟨.dropping, batch.index, j⟩ = some d.oid :=
      slot_dropping_eq_some.2 ⟨batch, droppingAt_eq_some.2 ⟨id, hcell, hid⟩,
        DroppingBatch.oidAt_eq_some.2 ⟨hj, d, hd, rfl⟩⟩
    rw [(h.linked ..).2 hslot, Option.map_some, promoted, if_pos ⟨rfl, rfl⟩]

end Promote

/-- A map that differs only in whose the dropping batches are. -/
theorem HasPromoted.of_unlisted {id : ℕ} {batch batch' : DroppingBatch} {m₁ m₂ : Map}
    (h : HasPromoted env m₁ id batch' m₂) (hdrops : batch.drops = batch'.drops)
    (hthings : m₁.things = m.things) (hcontrol : m₁.control = m.control)
    (hdroppers : m₁.droppers = m.droppers) : HasPromoted env m id batch m₂ := by
  refine ⟨h.placed, h.control.trans hcontrol, h.listed, h.gone, fun id' => ?_, fun j d hd => ?_⟩
  · have hid' : (m₁.dropping id').map DroppingBatch.dropper =
        (m.dropping id').map DroppingBatch.dropper := congrFun (congrArg Prod.fst hdroppers) id'
    have hmap := congrArg (Option.map fun d : UInt32 × Option ℕ × ℕ => (d.1, d.2.1)) hid'
    rw [Option.map_map, Option.map_map] at hmap
    exact (h.droppers id').trans hmap
  · have hend : m₁.dropBatchEnd = m.dropBatchEnd := congrArg (fun m => m.dropBatchEnd) hthings
    rw [← hend]
    exact h.place j d (hdrops ▸ hd)

theorem promote_spec (h : Placed env m) (hlisted : Listed none m) (alloc : ℕ → Bool) {id : ℕ}
    {batch : DroppingBatch} (hid : m.dropping id = some batch)
    (hcurrent : batch.drops.length ≤ batch.current) :
    Exec.Ensures (m.promote env alloc batch) (HasPromoted env m id batch) := by
  rw [promote]
  split
  · exact .bind .error fun _ (h : False) => h.elim
  · refine (appendBatch_spec m.nextBatch).bind fun m₁ hm₁ => ?_
    rcases htimer : m₁.addTimer (alloc 1) .exclusiveDropTimeExpired with ⟨t, m₂⟩
    obtain ⟨timers, next, hm₂⟩ := addTimer_eq htimer
    clear htimer
    refine (unlistDropping_eq (alloc 2) batch).bind fun m₃ hm₃ => ?_
    obtain ⟨dropping, players, hm₃, hbare, hdropper, hcontrol⟩ := hm₃
    -- What there would be if only the list of the owner were written to.
    obtain ⟨m', hm'⟩ : ∃ m' : Map, m' = { m with dropping := dropping, players := players } :=
      ⟨_, rfl⟩
    have hm₃' : m₃ = m'.withCell timers next := by
      rw [hm₃, hm₂, hm₁, hm']
      rfl
    have hthings : m'.things = m.things := by
      rw [hm₂, hm₁] at hbare
      rw [hm']
      change ({ m.things with dropping := fun id => (dropping id).map DroppingBatch.bare } : Map) = _
      rw [hbare]
      rfl
    have hcontrol' : m'.control = m.control := by
      rw [hm₂, hm₁] at hcontrol
      rw [hm']
      change ({ m.control with players := fun i => (players i).control } : Map) = _
      rw [hcontrol]
      rfl
    have hdroppers : m'.droppers = m.droppers := by
      rw [hm₂, hm₁] at hdropper
      rw [hm']
      exact congrArg (fun f => (f, m.droppingBatchCount, m.droppingBatches)) hdropper
    clear hm₁ hm₂ hm₃ hbare hdropper hcontrol hm'
    subst hm₃'
    obtain ⟨batch', hid', hbare⟩ := dropping_of_things hthings hid
    have hdrops : batch'.drops = batch.drops := (congrArg DroppingBatch.drops hbare :)
    have hcurrent' : batch'.current = batch.current := (congrArg DroppingBatch.current hbare :)
    have hindex : batch'.index = batch.index := (congrArg DroppingBatch.index hbare :)
    have h' := h.of_things hthings
    have hlisted' : Listed none m' := hlisted.of_droppers hdroppers
    have hnext : m'.nextBatch = m.nextBatch := congrArg (fun m => m.nextBatch) hthings
    rw [← hdrops, ← hcurrent'] at hcurrent
    rw [← bind_assoc, ← hindex, ← hdrops, ← hnext]
    refine (promote_objects h' hlisted' hid' hcurrent timers next (alloc 3)).bind fun m₅ hm₅ => ?_
    obtain ⟨capacity, list, hm₅, htracked, hplace⟩ := hm₅
    have hdone (k : ℕ) := (promote_setBatch h' hlisted' hid' hcurrent hm₅ htracked hplace
      (b := ⟨t, batch.owner, k, batch.ownerId, true, batch'.drops⟩) rfl).of_unlisted hdrops.symm
        hthings hcontrol' hdroppers
    dsimp only
    split
    · exact .pure (hdone 0)
    · refine .andThen fun p hp => MapPlayer.pushDrop_spec.bind fun p' hp' => .pure ?_
      obtain ⟨-, rfl⟩ := hp'
      have hset := hdone p.dropCount
      refine ⟨hset.placed.of_things rfl, ?_, hset.listed, hset.gone, hset.droppers, hset.place⟩
      refine (control_setPlayer ?_).trans hset.control
      exact (congrArg MapPlayer.control (getPlayer_eq_ok.1 hp).2.symm :)

end Map

end Syrup
