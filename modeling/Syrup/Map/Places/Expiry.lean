import Syrup.Map.Places.Damage

/-!
# Timers keep everything in its place

A map that is `Settled` stays so when a timer expires.
-/

namespace Syrup

open BackLinks

namespace Map

variable {env : Env} {m m' : Map}

/-! ## The next drop -/

/-- The next drop of a batch has been dropped. -/
theorem oidAt_next {b : DroppingBatch} {d : Drop} (hd : b.drops[b.current]? = some d) (oid : UInt32) :
    DroppingBatch.oidAt { b with
      drops := b.drops.set b.current { d with oid := oid }, current := b.current + 1 } =
      Function.update b.oidAt b.current (some oid) := by
  have hlt := (List.getElem?_eq_some_iff.1 hd).1
  funext j
  rw [DroppingBatch.oidAt]
  dsimp only
  by_cases hj : j = b.current
  · rw [hj, if_pos (Nat.lt_succ_self _), List.getElem?_set_self hlt, Function.update_self]
    rfl
  · rw [Function.update_of_ne hj, List.getElem?_set_ne (Ne.symm hj), DroppingBatch.oidAt]
    refine if_congr ?_ rfl rfl
    omega

/-- A dropping batch is changed, but neither where it is nor what it drops from. -/
theorem Settled.setDropping (h : Settled env m) {id : ℕ} {b b' : DroppingBatch}
    (hb : m.dropping id = some b) (hindex : b'.index = b.index)
    (hdropper : b'.dropperOid = b.dropperOid) {list : ObjectList}
    (hplaced : Placed env ({ m with objectList := list }.setDropping id (some b'))) :
    Settled env ({ m with objectList := list }.setDropping id (some b')) := by
  refine ⟨hplaced, fun id' b'' hb'' _ => ?_, h.droppers.mono
    (fun id' _ hne => ⟨hne, ?_⟩) (fun _ _ _ _ hc => hc) rfl⟩
  · change Function.update m.dropping id (some b') id' = some b'' at hb''
    by_cases he : id' = id
    · subst he
      rw [Function.update_self] at hb''
      cases hb''
      rw [hindex]
      exact h.listed id' b hb nofun
    · rw [Function.update_of_ne he] at hb''
      exact h.listed id' b'' hb'' nofun
  · refine congrFun (view_update (Option.map DroppingBatch.dropperOid) ?_) id'
    rw [hb]
    exact congrArg some hdropper

/-- The owner of a batch may pick up a drop at once. -/
theorem pickUpOwned_spec (h : Placed env m) (picksUp : Bool) (alloc : ℕ → Bool)
    (owner : Option PlayerRef) {oid : UInt32} {p : MapPlace} (hp : m.placeOf env oid = some p)
    (ht : p.type = .drop ∨ p.type = .dropping) :
    Exec.Ensures (m.pickUpOwned env picksUp alloc owner oid) (DropsOnly env m) := by
  rcases owner with - | r
  · exact .pure ⟨h, rfl, rfl⟩
  · refine .andThen fun _ _ => ?_
    split
    · exact mapRemoveDrop_spec h alloc hp ht
    · exact .pure ⟨h, rfl, rfl⟩

/-- What has dropped everything goes. -/
theorem removeDropper_spec {except : Option ℕ} {oid : UInt32} (h : Placed env m)
    (hd : Droppers except m) (alloc : Bool) (hdropper : m.Corpse oid ∨ m.IsReactor oid)
    (honly : ∀ id, m.dropperOf id = some oid → some id = except ∨ m.IsReactor oid) :
    Exec.Ensures (m.removeDropper env alloc oid) (Killed env except m) := by
  refine (getObject_spec h.tracks oid).bind fun object hobject => ?_
  obtain ⟨-, hplace⟩ := hobject
  split
  · exact .pure ⟨h, hd, rfl, fun _ _ => rfl⟩
  · rename_i ht
    have hreactor : ¬m.IsReactor oid := by
      intro hr
      obtain ⟨i, hi⟩ := h.reactor hr
      exact ht (congrArg MapPlace.type (Option.some.inj (hplace.symm.trans hi)))
    have ht' : object.place.type = .monster ∨ object.place.type = .boss := by
      rcases h.corpse (hdropper.resolve_right hreactor) with ⟨i, hi, -⟩ | ⟨hb, -⟩
      · exact .inl (congrArg MapPlace.type (Option.some.inj (hplace.symm.trans hi)))
      · exact .inr (congrArg MapPlace.type (Option.some.inj (hplace.symm.trans hb)))
    exact mapKillMonster_spec h hd alloc hplace ht' fun id hid => (honly id hid).resolve_right hreactor

/-- A dropping batch that is in no place any more is freed. -/
theorem Placed.freeDropping (h : Placed env m) {id : ℕ} (hgone : ∀ i, m.droppingCell i ≠ some id) :
    Placed env (m.setDropping id none) := by
  have hat : (m.setDropping id none).droppingAt = m.droppingAt := by
    funext i
    change (m.droppingCell i).bind (Function.update m.dropping id none) = (m.droppingCell i).bind _
    cases hc : m.droppingCell i with
    | none => rfl
    | some id' =>
      refine Function.update_of_ne ?_ ..
      rintro rfl
      exact hgone i hc
  have hslot : (m.setDropping id none).slot = m.slot := by
    funext ⟨t, i, j⟩
    rcases t
    case dropping => exact congrArg (fun f => BackLinks.held f DroppingBatch.oidAt (i, j)) hat
    all_goals rfl
  refine ⟨h.tracks, hslot ▸ h.linked, h.window, h.cells, fun i id' hi => ?_, fun id' hle => ?_⟩
  · obtain ⟨b, hb, hi'⟩ := h.droppings i id' hi
    refine ⟨b, (Function.update_of_ne ?_ ..).trans hb, hi'⟩
    rintro rfl
    exact hgone i hi
  · refine ⟨(h.fresh id' hle).1, ?_⟩
    by_cases he : id' = id
    · subst he
      exact Function.update_self ..
    · exact (Function.update_of_ne he ..).trans (h.fresh id' hle).2

/-- A map that has what all its dropping batches but one drop from has what all drop from without it. -/
theorem Settled.freeDropping {id : ℕ} (h : Placed env m) (hlisted : Listed (some id) m)
    (hd : Droppers (some id) m) (hgone : ∀ i, m.droppingCell i ≠ some id) :
    Settled env (m.setDropping id none) := by
  have hsame {id' : ℕ} (he : id' ≠ id) : Function.update m.dropping id none id' = m.dropping id' :=
    Function.update_of_ne he ..
  refine ⟨h.freeDropping hgone, fun id' b hb _ => ?_, hd.mono (fun id' hid' _ => ?_)
    (fun _ _ _ _ hc => hc) rfl⟩
  · change Function.update m.dropping id none id' = some b at hb
    by_cases he : id' = id
    · rw [he, Function.update_self] at hb
      cases hb
    · rw [hsame he] at hb
      exact hlisted id' b hb fun h => he (Option.some.inj h)
  · by_cases he : id' = id
    · subst he
      refine absurd ?_ hid'
      change (Function.update m.dropping id' none id').map _ = none
      rw [Function.update_self]
      rfl
    · refine ⟨fun h => he (Option.some.inj h), ?_⟩
      change (Function.update m.dropping id none id').map _ = _
      rw [hsame he, dropperOf]

/-- What a dropping batch has dropped from goes when the batch has become one of drops, which stay where they
    are. -/
theorem removeDropper_promoted (h : Settled env m) {id : ℕ} {batch : DroppingBatch}
    (hid : m.dropping id = some batch) (h₁ : HasPromoted env m id batch m') (alloc : Bool) :
    Exec.Ensures (m'.removeDropper env alloc batch.dropperOid) fun m₂ => Killed env (some id) m' m₂ ∧
      ∀ j d, batch.drops[j]? = some d → m₂.placeOf env d.oid = some ⟨.drop, m.dropBatchEnd, j⟩ := by
  have hof (id' : ℕ) : m'.dropperOf id' = m.dropperOf id' := by
    have hmap := congrArg (Option.map Prod.fst) (h₁.droppers id')
    rwa [Option.map_map, Option.map_map] at hmap
  have hcontrol (oid : UInt32) (hc : m.Corpse oid ∨ m.IsReactor oid) :
      m'.Corpse oid ∨ m'.IsReactor oid := by
    have hcontrol : m'.control.Corpse oid ∨ m'.control.IsReactor oid := h₁.control ▸ hc
    exact hcontrol
  have hreactors : m'.reactors = m.reactors := congrArg (fun m => m.reactors) h₁.control
  have hd₁ : Droppers (some id) m' := h.droppers.mono (fun id' _ _ => ⟨nofun, hof id'⟩)
    (fun id' oid _ _ hc => by
      have hcorpse : m'.control.Corpse oid := h₁.control ▸ hc
      exact hcorpse) hreactors
  refine (removeDropper_spec h₁.placed hd₁ _ (hcontrol _ (h.droppers.dropper id batch hid nofun))
    fun id' hid' => ?_).mono fun m₂ h₂ => ⟨h₂, fun j d hd => ?_⟩
  · rw [hof] at hid'
    refine ((droppers_iff.1 h.droppers).2 id' id _ hid' (dropperOf_eq_some hid) nofun nofun).imp
      (congrArg some) fun hr => ?_
    rwa [IsReactor, hreactors]
  · rw [h₂.placed.linked, h₂.drop, ← h₁.placed.linked]
    exact h₁.place j d hd

/-- Everything has been dropped: there is a batch, and what has dropped goes. -/
theorem finishDropping_room (h : Settled env m) (o : Outcomes) {id : ℕ} {batch : DroppingBatch}
    (hid : m.dropping id = some batch) (hcurrent : batch.drops.length ≤ batch.current) {j : ℕ}
    {d : Drop} (hd : batch.drops[j]? = some d) : Exec.Ensures (do
      let m ← m.promote env (fun n => o.alloc (n + 4)) batch
      let m ← m.removeDropper env (o.alloc 8) batch.dropperOid
      let m ← m.pickUpOwned env o.picksUp (fun n => o.alloc (n + 9)) batch.owner d.oid
      return m.setDropping id none) (Settled env) := by
  refine (promote_spec h.placed h.listed _ hid hcurrent).bind fun m₁ h₁ => ?_
  refine (removeDropper_promoted h hid h₁ _).bind fun m₂ hm₂ => ?_
  obtain ⟨h₂, hplace⟩ := hm₂
  refine (pickUpOwned_spec h₂.placed _ _ _ (hplace j d hd) (.inl rfl)).bind fun m₃ h₃ => .pure ?_
  have hsame := h₃.droppers.trans h₂.same
  refine Settled.freeDropping h₃.placed (h₁.listed.of_droppers hsame)
    (h₂.droppers.of_dropsOnly h₃) fun i hi => h₁.gone i ?_
  have hcell : m₃.droppingCell = m₁.droppingCell :=
    congrArg (fun d : _ × ℕ × (ℕ → ℕ) => firsts d.2.1 d.2.2) hsame
  rw [← hcell, hi]

theorem finishDropping_spec (h : Settled env m) (o : Outcomes) {id : ℕ} {batch : DroppingBatch}
    (hid : m.dropping id = some batch) (hcurrent : batch.drops.length ≤ batch.current) {j : ℕ}
    {d : Drop} (hd : batch.drops[j]? = some d) :
    Exec.Ensures (m.finishDropping env o id batch d.oid) (Settled env) := by
  rw [finishDropping]
  split
  · exact .pure h
  · rename_i m₁ hgrow
    obtain ⟨capacity, rfl⟩ := growBatches_eq hgrow
    have h₁ : Settled env { m with dropBatchCapacity := capacity } :=
      h.of_dropsOnly ⟨h.placed.setCapacity capacity, rfl, rfl⟩
    split
    · exact finishDropping_room h₁ o hid hcurrent hd
    · rename_i r _
      refine ((growDrops_spec (o.alloc 3) r).and (growDrops_dropsOnly h₁.placed _ r)).bind
        fun grown hgrown => ?_
      rcases grown with - | m₂
      · exact .pure h₁
      · obtain ⟨p, -, rfl⟩ := hgrown.1 m₂ rfl
        exact finishDropping_room (h₁.of_dropsOnly (hgrown.2 _ rfl)) o hid hcurrent hd

/-- What is not about places does not matter. -/
theorem Settled.setTimers (h : Settled env m) (timers : ℕ → Option MapTimer) (next : ℕ) :
    Settled env { m with timers := timers, nextTimer := next } :=
  ⟨h.placed.of_things rfl, h.listed, ⟨h.droppers.dropper, h.droppers.once⟩⟩

theorem onNextDrop_spec (h : Settled env m) (o : Outcomes) (id : ℕ) :
    Exec.Ensures (onNextDrop env o m id) (Settled env) := by
  refine .bind (.deref fun batch h => h) fun batch hbatch => .bind (.deref fun drop h => h)
    fun drop hdrop => ?_
  refine (allocateObject_spec h.placed.tracks (o.alloc 0) (o.alloc 1) .dropping _ _).bind ?_
  rintro ⟨oid, m₁⟩ ⟨hnone, -, list, rfl, htracked, hplace⟩
  have hcell : m.droppingCell batch.index = some id := h.listed id batch hbatch nofun
  have hget := oidAt_next hdrop oid
  have hlt := (List.getElem?_eq_some_iff.1 hdrop).1
  have hnext : (batch.drops.set batch.current { drop with oid := oid })[batch.current]? =
      some { drop with oid := oid } := List.getElem?_set_self hlt
  obtain ⟨batch', hbatch'⟩ : ∃ b : DroppingBatch, b = { batch with
    drops := batch.drops.set batch.current { drop with oid := oid }
    current := batch.current + 1 } := ⟨_, rfl⟩
  rw [← hbatch'] at hget
  have hset : Settled env ({ m with objectList := list }.setDropping id (some batch')) := by
    refine h.setDropping hbatch (by rw [hbatch']) (by rw [hbatch']) ?_
    refine h.placed.setDropping hbatch (by rw [hbatch']) htracked ?_
    have hget' : batch'.oidAt = Function.update (Function.update batch.oidAt batch.current (some oid))
        batch.current (some oid) := by
      rw [hget, Function.update_idem]
    rw [slot_setDropping h.placed hcell hbatch hget', Function.update_idem]
    refine hplace ▸ h.placed.linked.put hnone ?_
    change Option.bind (Option.bind (m.droppingCell batch.index) m.dropping) _ = none
    rw [hcell, Option.bind_some, hbatch, Option.bind_some]
    exact if_neg (lt_irrefl _)
  have hoid : placeOf { m with objectList := list } env oid =
      some ⟨.dropping, batch.index, batch.current⟩ := by
    rw [hplace, Function.update_self]
  dsimp only
  subst hbatch'
  split
  · refine (pickUpOwned_spec hset.placed _ _ _ hoid (.inr rfl)).bind fun m₂ hm₂ => ?_
    have h₂ := hset.of_dropsOnly hm₂
    rcases htimer : m₂.addTimer (o.alloc 2) (.nextDrop id) with ⟨t, m₃⟩
    obtain ⟨timers, next, rfl⟩ := addTimer_eq htimer
    refine .bind (.deref fun b h => h) fun b hb => .pure ?_
    have h₃ := h₂.setTimers timers next
    obtain ⟨b', hb'⟩ : ∃ b' : DroppingBatch, b' = { b with timer := t } := ⟨_, rfl⟩
    dsimp only
    rw [← hb']
    exact h₃.setDropping hb (by rw [hb']) (by rw [hb'])
      (h₃.placed.of_things (things_setDropping hb (by rw [hb']; rfl)))
  · rename_i hlast
    refine finishDropping_spec (d := { drop with oid := oid }) hset o (Function.update_self ..) ?_
      (j := batch.current) ?_
    · exact not_lt.1 hlast
    · exact hnext

/-! ## Batches that expire -/

/-- A batch is told whose it is, or when it will expire. -/
theorem Settled.of_setBatch (h : Settled env m) {m' : Map} (hthings : m'.things = m.things)
    (hcontrol : m'.control = m.control) (hdroppers : m'.droppers = m.droppers) : Settled env m' :=
  h.of_dropsOnly ⟨h.placed.of_things hthings, hcontrol, hdroppers⟩

theorem onExclusiveDropTimeExpired_spec (h : Settled env m) (alloc : Bool) :
    Exec.Ensures (onExclusiveDropTimeExpired alloc m) (Settled env) := by
  refine .andThen fun id _ => ?_
  rcases htimer : m.addTimer alloc .dropTimeExpired with ⟨t, m₁⟩
  obtain ⟨timers, next, rfl⟩ := addTimer_eq htimer
  refine .bind (.deref fun b h => h) fun b hb => .pure ?_
  exact (h.setTimers timers next).of_setBatch (things_setBatch hb rfl) rfl rfl

/-- The first drops of a batch that expires have been freed. -/
structure Freed (env : Env) (m : Map) (drops : List Drop) (n : ℕ) (m' : Map) : Prop where
  eq : ∃ list, m' = { m with objectList := list }
  tracked : Tracked env m'
  place : ∀ oid, m'.placeOf env oid =
    if oid ∈ (drops.take n).map Drop.oid then none else m.placeOf env oid

/-- The next drop of a batch that expires is freed. -/
theorem Freed.step {drops : List Drop} {n : ℕ} (hm' : Freed env m drops n m') (alloc : Bool) :
    Exec.Ensures (do
      let drop ← Exec.deref drops[n]?
      let object ← m'.getObject env drop.oid
      if object.type = .drop then m'.freeObject env alloc drop.oid else .error .assertion)
      (Freed env m drops (n + 1)) := by
  obtain ⟨list, rfl⟩ := hm'.eq
  refine .bind (.deref fun d h => h) fun d hd => (getObject_spec hm'.tracked d.oid).bind
    fun object hobject => ?_
  split
  · refine (freeObject_spec hm'.tracked alloc hobject.2).mono ?_
    rintro m₂ ⟨list₂, rfl, htracked, hplace⟩
    refine ⟨⟨list₂, rfl⟩, htracked, fun oid => ?_⟩
    have htake : oid ∈ (drops.take (n + 1)).map Drop.oid ↔
        oid ∈ (drops.take n).map Drop.oid ∨ oid = d.oid := by
      rw [List.take_add_one, hd, Option.toList_some, List.map_append, List.mem_append,
        List.map_singleton, List.mem_singleton]
    rw [hplace]
    by_cases he : oid = d.oid
    · rw [if_pos (htake.2 (.inr he)), he, Function.update_self]
    · rw [Function.update_of_ne he, hm'.place]
      exact if_congr ((or_iff_left he).symm.trans htake.symm) rfl rfl
  · exact .error

/-- All drops of a batch have been freed. -/
theorem Freed.placed (h : Placed env m) {id i : ℕ} {b : DropBatch} (hi : m.cell i = some id)
    (hb : m.batch id = some b) (hm' : Freed env m b.drops b.drops.length m') :
    Placed env (m'.setBatch id (some { b with drops := [] })) := by
  obtain ⟨list, rfl⟩ := hm'.eq
  obtain ⟨pos, hpos, -⟩ := h.cells
  refine h.setBatch (by rw [hb]; exact nofun) hm'.tracked ?_
  refine h.linked.clear (fun p => p.type = .drop ∧ p.index = i) (fun oid p => ?_) fun p oid => ?_
  · rw [hm'.place, List.take_length]
    have hmem : oid ∈ _ ↔ _ := h.mem_oids (batchAt_eq_some.2 ⟨id, hi, hb⟩)
    split
    · rename_i ho
      obtain ⟨j, hj⟩ := hmem.1 ho
      refine iff_of_false nofun ?_
      rintro ⟨hp, hne⟩
      rw [hj] at hp
      cases hp
      exact hne ⟨rfl, rfl⟩
    · rename_i ho
      refine (and_iff_left_of_imp fun hp => ?_).symm
      rintro ⟨ht, he⟩
      refine ho (hmem.2 ⟨p.index2, ?_⟩)
      rw [hp, ← ht, ← he]
  · obtain ⟨t, k, j⟩ := p
    by_cases ht : t = .drop
    · subst ht
      rw [slot_drop_eq_some, batchAt_setBatch hpos hi]
      by_cases hk : k = i
      · rw [hk, Function.update_self]
        refine iff_of_false ?_ fun h => h.2 ⟨rfl, rfl⟩
        rintro ⟨b', hb', hj⟩
        cases hb'
        cases hj
      · rw [Function.update_of_ne hk, slot_drop_eq_some]
        exact (and_iff_left fun h => hk h.2).symm
    · rw [and_iff_left fun h => ht h.1]
      rcases t
      case drop => exact absurd rfl ht
      all_goals exact Iff.rfl

/-- The batch that expires is the first one of the window. -/
theorem Placed.cell_start (h : Placed env m) {id : ℕ} (hid : m.dropBatches m.dropBatchStart = some id)
    (hb : m.batch id ≠ none) : m.cell m.dropBatchStart = some id := by
  obtain ⟨pos, hpos, hnone⟩ := h.cells
  obtain ⟨i, hi⟩ := Option.ne_none_iff_exists'.1 fun he => hb ((hnone id).2 he)
  have hwindow := (cell_eq_some.1 ((hpos ..).1 hi)).1
  exact cell_eq_some.2 ⟨⟨le_rfl, hwindow.1.trans_lt hwindow.2⟩, hid⟩

theorem onDropTimeExpired_spec (h : Settled env m) (alloc : ℕ → Bool) :
    Exec.Ensures (onDropTimeExpired env alloc m) fun m' => Settled env m' ∧ m'.control = m.control := by
  refine Exec.within_spec.bind fun _ _ => .bind (.deref fun id h => h) fun id hid =>
    .bind (.deref fun b h => h) fun b hb => ?_
  have hcell := h.placed.cell_start hid (by rw [hb]; exact nofun)
  have hstart : Freed env m b.drops 0 m := ⟨⟨_, rfl⟩, h.placed.tracks, fun oid => rfl⟩
  refine (Exec.Ensures.foldlM_range hstart fun n _ m' hm' => hm'.step (alloc n)).bind fun m₁ hm₁ => ?_
  have hplaced := hm₁.placed h.placed hcell hb
  obtain ⟨list, rfl⟩ := hm₁.eq
  have h₁ : Settled env ({ m with objectList := list }.setBatch id (some { b with drops := [] })) :=
    h.of_dropsOnly ⟨hplaced, rfl, rfl⟩
  refine ((unlistBatch_things _ _ _).and ((unlistBatch_control _ _ _).and
    (unlistBatch_droppers _ _ _))).bind fun m₂ hm₂ => ?_
  obtain ⟨hthings, hcontrol, hdroppers⟩ := hm₂
  have h₂ := h₁.of_setBatch hthings hcontrol hdroppers
  have hstart₂ : m₂.dropBatchStart = m.dropBatchStart := congrArg (fun m => m.dropBatchStart) hthings
  have hcell₂ : m₂.cell m₂.dropBatchStart = some id := by
    rw [hstart₂]
    exact (congrArg (fun m' => m'.cell m.dropBatchStart) hthings).trans hcell
  obtain ⟨b₂, hb₂, hbare⟩ := batch_of_things hthings (Function.update_self ..)
  have hremove := h₂.placed.removeBatch hcell₂ hb₂ (congrArg DropBatch.drops hbare :)
  refine Exec.Ensures.mono (skipHoles_spec hremove _ _) ?_
  rintro m₃ ⟨hplaced₃, _, _, _, _, _, rfl⟩
  exact ⟨h₂.of_dropsOnly ⟨hplaced₃, rfl, rfl⟩, hcontrol⟩

end Map

end Syrup
