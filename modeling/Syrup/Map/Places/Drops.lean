import Syrup.Map.Lists
import Syrup.Map.Places

/-!
# The places of drops

What the functions for drops do to the places of objects: drops that are taken away, batches that move
when the window is moved to the front of the array, and drops that come. Each of them keeps a map
`Placed`.
-/

namespace Syrup

open BackLinks

namespace Map

variable {env : Env} {m : Map}

/-! ## Objects that are rewritten -/

/-- The objects of drops are written to: each of them tells another place. -/
theorem rewriteObjects_spec {f : MapObject → Exec MapObject} {g : MapPlace → MapPlace}
    (h : Tracked env m)
    (hf : ∀ o, Exec.Ensures (f o) fun o' => o'.oid = o.oid ∧ o'.place = g o.place)
    (hg : ∀ p, g (g p) = g p) (drops : List Drop) :
    Exec.Ensures (m.rewriteObjects env f drops) fun m' => ∃ list, m' = { m with objectList := list } ∧
      Tracked env m' ∧ ∀ oid, m'.placeOf env oid =
        if oid ∈ drops.map Drop.oid then (m.placeOf env oid).map g else m.placeOf env oid := by
  induction drops generalizing m with
  | nil => exact .pure ⟨m.objectList, rfl, h, fun oid => rfl⟩
  | cons drop drops ih =>
    rw [rewriteObjects, List.foldlM_cons]
    refine Exec.Ensures.bind (P := fun m₁ => ∃ list, m₁ = { m with objectList := list } ∧
      Tracked env m₁ ∧ m₁.placeOf env = Function.update (m.placeOf env) drop.oid
        ((m.placeOf env drop.oid).map g)) ?_ ?_
    · refine (getObject_spec h drop.oid).bind fun o ho => (hf o).bind fun o' ho' => .pure ?_
      obtain ⟨htracked, hplace⟩ := setObject_spec h ho.2 (ho'.1.trans ho.1)
      refine ⟨_, rfl, htracked, ?_⟩
      rw [hplace, ho.2, ho'.2, Option.map_some]
    · rintro m₁ ⟨list₁, rfl, h₁, hplace₁⟩
      refine (ih h₁).mono ?_
      rintro m₂ ⟨list₂, rfl, h₂, hplace₂⟩
      refine ⟨list₂, rfl, h₂, fun oid => ?_⟩
      rw [hplace₂, hplace₁, List.map_cons]
      by_cases he : oid = drop.oid
      · subst he
        rw [Function.update_self, if_pos List.mem_cons_self, Option.map_map]
        have hgg : g ∘ g = g := funext hg
        rw [hgg, ite_self]
      · rw [Function.update_of_ne he]
        simp only [List.mem_cons, he, false_or]

/-- The objects of the drops of a batch are told another place of the batch. -/
theorem rewriteObjects_atIndex (h : Tracked env m) (i : ℕ) (drops : List Drop) :
    Exec.Ensures (m.rewriteObjects env (atIndex i) drops) fun m' =>
      ∃ list, m' = { m with objectList := list } ∧ Tracked env m' ∧ ∀ oid, m'.placeOf env oid =
        if oid ∈ drops.map Drop.oid then (m.placeOf env oid).map fun p => { p with index := i }
        else m.placeOf env oid := by
  refine rewriteObjects_spec (g := fun p => { p with index := i }) h (fun o => ?_) (fun p => rfl) drops
  rw [atIndex]
  split
  · exact .ok ⟨rfl, rfl⟩
  · exact .error

/-! ## The window -/

/-- A place of the window is a place of the array. -/
theorem cell_eq_some {i id : ℕ} : m.cell i = some id ↔
    (m.dropBatchStart ≤ i ∧ i < m.dropBatchEnd) ∧ m.dropBatches i = some id := by
  rw [cell]
  split
  · rename_i hi
    exact (and_iff_right hi).symm
  · rename_i hi
    exact iff_of_false nofun fun h => hi h.1

/-- The drops of a batch are those whose objects tell its place. -/
theorem Placed.mem_oids (h : Placed env m) {i : ℕ} {b : DropBatch} (hb : m.batchAt i = some b)
    {oid : UInt32} : oid ∈ b.drops.map Drop.oid ↔ ∃ j, m.placeOf env oid = some ⟨.drop, i, j⟩ := by
  rw [List.mem_iff_getElem?]
  refine exists_congr fun j => ?_
  rw [h.linked, slot_drop_eq_some, List.getElem?_map]
  constructor
  · intro hj
    exact ⟨b, hb, hj⟩
  · rintro ⟨b', hb', hj⟩
    obtain rfl := Option.some.inj (hb.symm.trans hb')
    exact hj

/-- Only the window has been moved, and the objects of the batches in it. -/
def WindowMoved (m m' : Map) : Prop := ∃ list capacity start stop cells, m' = { m with
  objectList := list
  dropBatchCapacity := capacity
  dropBatchStart := start
  dropBatchEnd := stop
  dropBatches := cells }

theorem WindowMoved.refl (m : Map) : WindowMoved m m := ⟨_, _, _, _, _, rfl⟩

theorem WindowMoved.trans {m₁ m₂ : Map} (h : WindowMoved m m₁) (h' : WindowMoved m₁ m₂) :
    WindowMoved m m₂ := by
  obtain ⟨_, _, _, _, _, rfl⟩ := h
  obtain ⟨list, capacity, start, stop, cells, rfl⟩ := h'
  exact ⟨list, capacity, start, stop, cells, rfl⟩

/-- The place of a drop in the window after the first batches of it have been moved. -/
def shifted (start n : ℕ) (p : MapPlace) : MapPlace :=
  if p.type = .drop ∧ p.index < start + n then { p with index := p.index - start } else p

/-- The first batches of the window have been moved to the front of the array. -/
structure Shifting (env : Env) (m : Map) (n : ℕ) (m' : Map) : Prop where
  eq : ∃ list cells, m' = { m with objectList := list, dropBatches := cells }
  tracked : Tracked env m'
  front : ∀ i < n, m'.dropBatches i = m.dropBatches (i + m.dropBatchStart)
  rest : ∀ i, n ≤ i → m'.dropBatches i = m.dropBatches i
  place : ∀ oid, m'.placeOf env oid = (m.placeOf env oid).map (shifted m.dropBatchStart n)

/-- The next batch of the window is moved. -/
theorem Shifting.step (h : Placed env m) {n : ℕ} {m' : Map} (hn : m.dropBatchStart + n < m.dropBatchEnd)
    (hm' : Shifting env m n m') :
    Exec.Ensures (m'.moveBatch env m.dropBatchStart (m.dropBatchStart + n))
      (Shifting env m (n + 1)) := by
  obtain ⟨list, cells, rfl⟩ := hm'.eq
  obtain ⟨i, hi⟩ : ∃ i, i = m.dropBatchStart + n := ⟨_, rfl⟩
  have hsub : i - m.dropBatchStart = n := by rw [hi, Nat.add_sub_cancel_left]
  rw [← hi] at hn ⊢
  rw [moveBatch, hsub]
  dsimp only
  obtain ⟨cells', hcells'⟩ : ∃ c, c = Function.update cells n (cells i) := ⟨_, rfl⟩
  rw [← hcells']
  -- What is in the array does not depend on the objects.
  have hcell : cells' n = m.dropBatches i := by
    rw [hcells', Function.update_self]
    exact hm'.rest i (by omega)
  have hfront : ∀ k < n + 1, cells' k = m.dropBatches (k + m.dropBatchStart) := by
    intro k hk
    by_cases he : k = n
    · rw [he, hcell, hi, Nat.add_comm]
    · rw [hcells', Function.update_of_ne he]
      exact hm'.front k (by omega)
  have hrest : ∀ k, n + 1 ≤ k → cells' k = m.dropBatches k := by
    intro k hk
    rw [hcells', Function.update_of_ne (by omega)]
    exact hm'.rest k (by omega)
  -- A drop is at another place now if it is in the batch that is moved.
  have hshift (p : MapPlace) (hp : ¬(p.type = .drop ∧ p.index = i)) :
      shifted m.dropBatchStart (n + 1) p = shifted m.dropBatchStart n p := by
    rw [shifted, shifted]
    refine if_congr (and_congr_right fun ht => ?_) rfl rfl
    have : p.index ≠ i := fun he => hp ⟨ht, he⟩
    omega
  have hdrop (j : ℕ) : shifted m.dropBatchStart (n + 1) ⟨.drop, i, j⟩ = ⟨.drop, n, j⟩ := by
    have hlt : i < m.dropBatchStart + (n + 1) := by omega
    rw [shifted, if_pos ⟨rfl, hlt⟩, hsub]
  have hstay (j : ℕ) : shifted m.dropBatchStart n ⟨.drop, i, j⟩ = ⟨.drop, i, j⟩ :=
    if_neg fun h => absurd h.2 (by rw [hi]; exact lt_irrefl _)
  cases hid : cells' n with
  | none =>
    refine .pure ⟨⟨list, _, rfl⟩, hm'.tracked, hfront, hrest, fun oid => ?_⟩
    refine (hm'.place oid).trans ?_
    cases hp : m.placeOf env oid with
    | none => rfl
    | some p =>
      rw [Option.map_some, Option.map_some, hshift]
      rintro ⟨ht, he⟩
      obtain ⟨t, k, j⟩ := p
      obtain rfl : t = .drop := ht
      obtain rfl : k = i := he
      obtain ⟨b, hb, -⟩ := slot_drop_eq_some.1 ((h.linked ..).1 hp)
      obtain ⟨id, hc, -⟩ := batchAt_eq_some.1 hb
      rw [hcell, (cell_eq_some.1 hc).2] at hid
      cases hid
  | some id =>
    refine .bind (.deref fun b hb => hb) fun b hb => ?_
    have hat : m.batchAt i = some b :=
      batchAt_eq_some.2 ⟨id, cell_eq_some.2 ⟨⟨by omega, hn⟩, hcell ▸ hid⟩, hb⟩
    refine (rewriteObjects_atIndex (by exact hm'.tracked) n b.drops).mono ?_
    rintro m₂ ⟨list₂, rfl, htracked, hplace⟩
    refine ⟨⟨list₂, _, rfl⟩, htracked, hfront, hrest, fun oid => ?_⟩
    rw [hplace oid]
    change (if oid ∈ b.drops.map Drop.oid then
      Option.map _ (placeOf { m with objectList := list, dropBatches := cells } env oid)
      else placeOf { m with objectList := list, dropBatches := cells } env oid) = _
    rw [hm'.place]
    split
    · rename_i hmem
      obtain ⟨j, hj⟩ := (h.mem_oids hat).1 hmem
      rw [hj, Option.map_some, Option.map_some, Option.map_some, hdrop, hstay]
    · rename_i hmem
      cases hp : m.placeOf env oid with
      | none => rfl
      | some p =>
        rw [Option.map_some, Option.map_some, hshift]
        rintro ⟨ht, he⟩
        refine hmem ((h.mem_oids hat).2 ⟨p.index2, ?_⟩)
        rw [hp, ← ht, ← he]

/-- A place of the window is the one it has come from. -/
theorem Shifting.cell_eq {m' : Map} (hm' : Shifting env m (m.dropBatchEnd - m.dropBatchStart) m')
    (i : ℕ) : cell { m' with dropBatchEnd := m.dropBatchEnd - m.dropBatchStart, dropBatchStart := 0 } i =
      m.cell (i + m.dropBatchStart) := by
  refine if_ctx_congr ?_ (fun hi => hm'.front i ?_) fun _ => rfl
  · change 0 ≤ i ∧ i < m.dropBatchEnd - m.dropBatchStart ↔
      m.dropBatchStart ≤ i + m.dropBatchStart ∧ i + m.dropBatchStart < m.dropBatchEnd
    omega
  · exact Nat.lt_sub_of_add_lt hi.2

/-- The whole window has been moved. -/
theorem Shifting.placed (h : Placed env m) {m' : Map}
    (hm' : Shifting env m (m.dropBatchEnd - m.dropBatchStart) m') : Placed env
      { m' with dropBatchEnd := m.dropBatchEnd - m.dropBatchStart, dropBatchStart := 0 } := by
  obtain ⟨list, cells, rfl⟩ := hm'.eq
  have hcell := hm'.cell_eq
  have hsub : m.dropBatchStart + (m.dropBatchEnd - m.dropBatchStart) = m.dropBatchEnd :=
    Nat.add_sub_cancel' h.window
  obtain ⟨pos, hpos, hnone⟩ := h.cells
  refine ⟨hm'.tracked, ?_, Nat.zero_le _, ⟨fun id => (pos id).map (· - m.dropBatchStart), ?_, ?_⟩,
    h.droppings, h.fresh⟩
  · refine h.linked.relocate _ hm'.place ?_
    rintro ⟨t, i, j⟩ oid
    by_cases ht : t = .drop
    · subst ht
      have hslot : m.slot ⟨.drop, i + m.dropBatchStart, j⟩ = some oid ↔
          slot { m with
            objectList := list
            dropBatchEnd := m.dropBatchEnd - m.dropBatchStart
            dropBatchStart := 0
            dropBatches := cells } ⟨.drop, i, j⟩ = some oid := by
        rw [slot_drop_eq_some, slot_drop_eq_some, batchAt, batchAt]
        simp only [← hcell]
      rw [← hslot]
      constructor
      · intro hi
        refine ⟨_, hi, ?_⟩
        obtain ⟨b, hb, -⟩ := slot_drop_eq_some.1 hi
        obtain ⟨id, hc, -⟩ := batchAt_eq_some.1 hb
        have hlt := (cell_eq_some.1 hc).1.2
        rw [shifted, if_pos ⟨rfl, hlt.trans_eq hsub.symm⟩, Nat.add_sub_cancel]
      · rintro ⟨⟨t, k, l⟩, hp, he⟩
        by_cases ht : t = .drop
        · subst ht
          obtain ⟨b, hb, -⟩ := slot_drop_eq_some.1 hp
          obtain ⟨id, hc, -⟩ := batchAt_eq_some.1 hb
          have hk := (cell_eq_some.1 hc).1
          rw [shifted, if_pos ⟨rfl, hk.2.trans_eq hsub.symm⟩] at he
          cases he
          rwa [Nat.sub_add_cancel hk.1]
        · rw [shifted, if_neg fun h => ht h.1] at he
          cases he
          exact absurd rfl ht
    · have hslot : slot { m with
            objectList := list
            dropBatchEnd := m.dropBatchEnd - m.dropBatchStart
            dropBatchStart := 0
            dropBatches := cells } ⟨t, i, j⟩ = m.slot ⟨t, i, j⟩ := by
        rcases t
        case drop => exact absurd rfl ht
        all_goals rfl
      rw [hslot]
      constructor
      · intro hi
        exact ⟨_, hi, if_neg fun h => ht h.1⟩
      · rintro ⟨⟨t', k, l⟩, hp, he⟩
        rw [shifted] at he
        split at he
        · rename_i ht'
          cases he
          exact absurd ht'.1 ht
        · cases he
          exact hp
  · refine hpos.relocate _ (fun id => rfl) fun i id => ?_
    rw [hcell]
    constructor
    · intro hi
      exact ⟨_, hi, Nat.add_sub_cancel ..⟩
    · rintro ⟨k, hk, rfl⟩
      rwa [Nat.sub_add_cancel (cell_eq_some.1 hk).1.1]
  · intro id
    exact (hnone id).trans Option.map_eq_none_iff.symm

/-- The size of the array of batches does not matter. -/
theorem Placed.setCapacity (h : Placed env m) (capacity : ℕ) :
    Placed env { m with dropBatchCapacity := capacity } := h.of_things rfl

/-- Nothing of the window has been moved. -/
theorem Shifting.start (h : Placed env m) : Shifting env m 0 m := by
  refine ⟨⟨_, _, rfl⟩, h.tracks, fun i hi => absurd hi (Nat.not_lt_zero i), fun _ _ => rfl, fun oid => ?_⟩
  cases hp : m.placeOf env oid with
  | none => rfl
  | some p =>
    refine congrArg some (if_neg ?_).symm
    rintro ⟨ht, hlt⟩
    obtain ⟨t, i, j⟩ := p
    obtain rfl : t = .drop := ht
    obtain ⟨b, hb, -⟩ := slot_drop_eq_some.1 ((h.linked ..).1 hp)
    obtain ⟨id, hc, -⟩ := batchAt_eq_some.1 hb
    exact absurd (cell_eq_some.1 hc).1.1 (not_le.2 hlt)

/-- The loop of `compact`. -/
theorem Shifting.loop (h : Placed env m) :
    Exec.Ensures ((List.range' m.dropBatchStart (m.dropBatchEnd - m.dropBatchStart)).foldlM
      (fun m' i => m'.moveBatch env m.dropBatchStart i) m)
      (Shifting env m (m.dropBatchEnd - m.dropBatchStart)) := by
  rw [List.range'_eq_map_range, List.foldlM_map]
  exact .foldlM_range (.start h) fun n hn m' hm' => Shifting.step h (by omega) hm'

theorem compact_spec (h : Placed env m) (alloc : Bool) :
    Exec.Ensures (m.compact env alloc) fun m' => Placed env m' ∧ WindowMoved m m' := by
  have hsize (m' : Map) (hm' : Placed env m' ∧ WindowMoved m m') : Exec.Ensures
      (return if alloc then { m' with dropBatchCapacity := m'.dropBatchCapacity / 2 } else m')
      fun m' => Placed env m' ∧ WindowMoved m m' := by
    refine .pure ?_
    split
    · exact ⟨hm'.1.setCapacity _, hm'.2.trans ⟨_, _, _, _, _, rfl⟩⟩
    · exact hm'
  rw [compact]
  split
  · refine (Shifting.loop h).bind fun m' hm' => hsize _ ?_
    have hplaced := hm'.placed h
    obtain ⟨list, cells, rfl⟩ := hm'.eq
    exact ⟨hplaced, _, _, _, _, _, rfl⟩
  · exact hsize m ⟨h, .refl m⟩

/-- A hole at the front of the window is left out. -/
theorem Placed.skip (h : Placed env m) (hlt : m.dropBatchStart < m.dropBatchEnd)
    (hnone : m.dropBatches m.dropBatchStart = none) :
    Placed env { m with dropBatchStart := m.dropBatchStart + 1 } := by
  have hcell : cell { m with dropBatchStart := m.dropBatchStart + 1 } = m.cell := by
    funext i
    by_cases hi : i = m.dropBatchStart
    · rw [hi, cell, cell, if_neg fun h => absurd h.1 (Nat.not_succ_le_self _), hnone, ite_self]
    · refine if_congr (and_congr_left' ?_) rfl rfl
      change m.dropBatchStart + 1 ≤ i ↔ m.dropBatchStart ≤ i
      omega
  refine ⟨h.tracks, ?_, hlt, hcell ▸ h.cells, h.droppings, h.fresh⟩
  have hslot : slot { m with dropBatchStart := m.dropBatchStart + 1 } = m.slot := by
    funext ⟨t, i, j⟩
    rcases t
    case drop =>
      change Option.bind (Option.bind (cell _ i) m.batch) _ = Option.bind (Option.bind (m.cell i) _) _
      rw [hcell]
    all_goals rfl
  exact hslot ▸ h.linked

theorem skipHoles_spec (h : Placed env m) (alloc : ℕ → Bool) (n : ℕ) :
    Exec.Ensures (m.skipHoles env alloc n) fun m' => Placed env m' ∧ WindowMoved m m' := by
  induction n generalizing m with
  | zero => exact .pure ⟨h, .refl m⟩
  | succ n ih =>
    rw [skipHoles]
    split
    · rename_i hhole
      have hskip := h.skip hhole.1 hhole.2
      have hmoved : WindowMoved m { m with dropBatchStart := m.dropBatchStart + 1 } :=
        ⟨_, _, _, _, _, rfl⟩
      have hrest (m' : Map) (hm' : Placed env m' ∧ WindowMoved m m') :
          Exec.Ensures (m'.skipHoles env alloc n) fun m' => Placed env m' ∧ WindowMoved m m' :=
        (ih hm'.1).mono fun m'' hm'' => ⟨hm''.1, hm'.2.trans hm''.2⟩
      dsimp only
      split
      · exact (compact_spec hskip (alloc n)).bind fun m' hm' =>
          hrest m' ⟨hm'.1, hmoved.trans hm'.2⟩
      · exact hrest _ ⟨hskip, hmoved⟩
    · exact .pure ⟨h, .refl m⟩

/-! ## Drops that are taken away -/

/-- The object of the last drop is told the index that it gets. -/
theorem replaceDrop_spec (h : Tracked env m) (type : MapObjectType) (drops : List Drop) (i last : ℕ) :
    Exec.Ensures (m.replaceDrop env type drops i last) fun r => i < drops.length ∧
      ∃ d, drops[last]? = some d ∧ r.1 = drops.set i d ∧ ∃ list, r.2 = { m with objectList := list } ∧
        Tracked env r.2 ∧ (i = last → r.2.placeOf env = m.placeOf env) ∧
          (i ≠ last → ∃ p, m.placeOf env d.oid = some p ∧
            r.2.placeOf env = Function.update (m.placeOf env) d.oid (some { p with index2 := i })) := by
  refine Exec.within_spec.bind fun _ hi => .bind (.deref fun d hd => hd) fun d hd => ?_
  dsimp only
  split
  · rename_i hne
    refine (getObject_spec h d.oid).bind fun o ho => ?_
    split
    · obtain ⟨htracked, hplace⟩ :=
        setObject_spec (o := { o with index2 := i }) h ho.2 ho.1
      exact .pure ⟨hi, d, hd, rfl, _, rfl, htracked, fun he => absurd he hne,
        fun _ => ⟨o.place, ho.2, hplace⟩⟩
    · exact .error
  · rename_i he
    exact .pure ⟨hi, d, hd, rfl, _, rfl, h, fun _ => rfl, fun hne => absurd (not_not.1 he) hne⟩

/-- A drop has been freed, and the last drop has been told its place. -/
theorem placeOf_fill {m₁ m₂ : Map} (h : Linked (m.placeOf env) m.slot) {x y : UInt32}
    {t : MapObjectType} {i j last : ℕ} (hx : m.placeOf env x = some ⟨t, i, j⟩)
    (hy : m.placeOf env y = some ⟨t, i, last⟩)
    (h₁ : m₁.placeOf env = Function.update (m.placeOf env) x none)
    (heq : j = last → m₂.placeOf env = m₁.placeOf env)
    (hne : j ≠ last → ∃ p, m₁.placeOf env y = some p ∧
      m₂.placeOf env = Function.update (m₁.placeOf env) y (some { p with index2 := j })) :
    m₂.placeOf env =
      Function.update (Function.update (m.placeOf env) y (some ⟨t, i, j⟩)) x none := by
  by_cases hj : j = last
  · subst hj
    obtain rfl := h.ext hx hy
    rw [heq rfl, h₁, Function.update_idem]
  · have hxy : y ≠ x := by
      rintro rfl
      rw [hx] at hy
      cases hy
      exact hj rfl
    obtain ⟨p, hp, h₂⟩ := hne hj
    rw [h₁, Function.update_of_ne hxy, hy] at hp
    cases hp
    rw [h₂, h₁, Function.update_comm hxy.symm]

/-- The batch in a cell of the window is changed. -/
theorem batchAt_setBatch {pos : ℕ → Option ℕ} (h : Linked pos m.cell) {i id : ℕ}
    (hi : m.cell i = some id) (b : DropBatch) :
    (m.setBatch id (some b)).batchAt = Function.update m.batchAt i (some b) := by
  funext k
  change (m.cell k).bind (Function.update m.batch id (some b)) = _
  by_cases hk : k = i
  · rw [hk, hi, Option.bind_some, Function.update_self, Function.update_self]
  · rw [Function.update_of_ne hk, batchAt]
    cases hc : m.cell k with
    | none => rfl
    | some id' =>
      rw [Option.bind_some, Option.bind_some, Function.update_of_ne]
      rintro rfl
      exact hk (h.symm.ext hc hi)

/-- The dropping batch in a cell is changed. -/
theorem droppingAt_setDropping (h : Placed env m) {i id : ℕ} (hi : m.droppingCell i = some id)
    (b : DroppingBatch) :
    (m.setDropping id (some b)).droppingAt = Function.update m.droppingAt i (some b) := by
  funext k
  change (m.droppingCell k).bind (Function.update m.dropping id (some b)) = _
  by_cases hk : k = i
  · rw [hk, hi, Option.bind_some, Function.update_self, Function.update_self]
  · rw [Function.update_of_ne hk, droppingAt]
    cases hc : m.droppingCell k with
    | none => rfl
    | some id' =>
      rw [Option.bind_some, Option.bind_some, Function.update_of_ne]
      rintro rfl
      exact hk (h.dropping_ext hc hi)

/-- A drop that is taken out of a batch or put into it. -/
theorem slot_setBatch {pos : ℕ → Option ℕ} (h : Linked pos m.cell) {i id : ℕ} {b b' : DropBatch}
    (hi : m.cell i = some id) (hb : m.batch id = some b) {j k : ℕ} {o o' : Option UInt32}
    (hget : b'.oidAt = Function.update (Function.update b.oidAt j o) k o') :
    (m.setBatch id (some b')).slot =
      Function.update (Function.update m.slot ⟨.drop, i, j⟩ o) ⟨.drop, i, k⟩ o' := by
  funext ⟨t, i', j'⟩
  by_cases ht : t = .drop
  · subst ht
    change BackLinks.held _ _ (i', j') = _
    have hat : m.batchAt i = some b := batchAt_eq_some.2 ⟨id, hi, hb⟩
    rw [batchAt_setBatch h hi, held_set_set hat hget]
    simp only [Function.update_apply, Prod.mk.injEq, MapPlace.mk.injEq, true_and]
    rfl
  · have hne (k : ℕ) : (⟨t, i', j'⟩ : MapPlace) ≠ ⟨.drop, i, k⟩ := by
      rintro ⟨⟩
      exact ht rfl
    rw [Function.update_of_ne (hne k), Function.update_of_ne (hne j)]
    rcases t
    case drop => exact absurd rfl ht
    all_goals rfl

/-- A drop that is taken out of a dropping batch or put into it. -/
theorem slot_setDropping (h : Placed env m) {i id : ℕ} {b b' : DroppingBatch}
    (hi : m.droppingCell i = some id) (hb : m.dropping id = some b) {j k : ℕ}
    {o o' : Option UInt32} (hget : b'.oidAt = Function.update (Function.update b.oidAt j o) k o') :
    (m.setDropping id (some b')).slot =
      Function.update (Function.update m.slot ⟨.dropping, i, j⟩ o) ⟨.dropping, i, k⟩ o' := by
  funext ⟨t, i', j'⟩
  by_cases ht : t = .dropping
  · subst ht
    change BackLinks.held _ _ (i', j') = _
    have hat : m.droppingAt i = some b := Option.bind_eq_some_iff.2 ⟨id, hi, hb⟩
    rw [droppingAt_setDropping h hi, held_set_set hat hget]
    simp only [Function.update_apply, Prod.mk.injEq, MapPlace.mk.injEq, true_and]
    rfl
  · have hne (k : ℕ) : (⟨t, i', j'⟩ : MapPlace) ≠ ⟨.dropping, i, k⟩ := by
      rintro ⟨⟩
      exact ht rfl
    rw [Function.update_of_ne (hne k), Function.update_of_ne (hne j)]
    rcases t
    case dropping => exact absurd rfl ht
    all_goals rfl

/-- What is left of a batch. -/
theorem oidAt_dropLast {b : DropBatch} {i : ℕ} (d : Drop) (hi : i < b.drops.length) :
    DropBatch.oidAt { b with drops := (b.drops.set i d).dropLast } =
      Function.update (Function.update b.oidAt i (some d.oid)) (b.drops.length - 1) none := by
  funext k
  change Option.map Drop.oid ((b.drops.set i d).dropLast[k]?) = _
  rw [List.getElem?_dropLast, List.length_set]
  by_cases hk : k = b.drops.length - 1
  · rw [hk, if_neg (lt_irrefl _), Function.update_self, Option.map_none]
  · rw [Function.update_of_ne hk]
    by_cases hlt : k < b.drops.length - 1
    · rw [if_pos hlt, List.getElem?_set, Function.update_apply]
      by_cases he : k = i
      · rw [if_pos he.symm, if_pos hi, if_pos he, Option.map_some]
      · rw [if_neg (Ne.symm he), if_neg he]
        rfl
    · rw [if_neg hlt, Function.update_of_ne (by omega), DropBatch.oidAt,
        List.getElem?_eq_none (by omega)]

/-- What is left of a dropping batch. -/
theorem oidAt_dropped {b : DroppingBatch} {i : ℕ} {d e : Drop} (hi : i < b.current)
    (hd : b.drops[b.current - 1]? = some d) :
    DroppingBatch.oidAt { b with
      drops := ((b.drops.set i d).set (b.current - 1) e).dropLast, current := b.current - 1 } =
      Function.update (Function.update b.oidAt i (some d.oid)) (b.current - 1) none := by
  have hlen : b.current - 1 < b.drops.length := (List.getElem?_eq_some_iff.1 hd).1
  funext k
  rw [DroppingBatch.oidAt]
  dsimp only
  by_cases hk : k = b.current - 1
  · rw [hk, if_neg (lt_irrefl _), Function.update_self]
  · rw [Function.update_of_ne hk]
    by_cases hlt : k < b.current - 1
    · rw [if_pos hlt, List.getElem?_dropLast, List.length_set, List.length_set, if_pos (by omega),
        List.getElem?_set_ne (Ne.symm hk), List.getElem?_set, Function.update_apply]
      by_cases he : k = i
      · rw [if_pos he.symm, if_pos (by omega), if_pos he, Option.map_some]
      · rw [if_neg (Ne.symm he), if_neg he, DroppingBatch.oidAt, if_pos (by omega)]
    · rw [if_neg hlt, Function.update_of_ne (by omega), DroppingBatch.oidAt, if_neg (by omega)]

/-- A batch is changed. -/
theorem Placed.setBatch (h : Placed env m) {id : ℕ} (hid : m.batch id ≠ none) {list : ObjectList}
    {b : DropBatch} (ht : Tracked env { m with objectList := list })
    (hl : Linked (placeOf { m with objectList := list } env) (m.setBatch id (some b)).slot) :
    Placed env ({ m with objectList := list }.setBatch id (some b)) := by
  obtain ⟨pos, hpos, hnone⟩ := h.cells
  refine ⟨ht, hl, h.window, ⟨pos, hpos, fun id' => ?_⟩, h.droppings, fun id' hid' => ?_⟩
  · rw [← hnone, setBatch_batch]
    by_cases he : id' = id
    · rw [he, Function.update_self]
      exact iff_of_false nofun hid
    · rw [Function.update_of_ne he]
  · have he : id' ≠ id := by
      rintro rfl
      exact hid (h.fresh id' hid').1
    exact ⟨(Function.update_of_ne he ..).trans (h.fresh id' hid').1, (h.fresh id' hid').2⟩

/-- A dropping batch is changed. -/
theorem Placed.setDropping (h : Placed env m) {id : ℕ} {b b' : DroppingBatch}
    (hid : m.dropping id = some b) (hindex : b'.index = b.index) {list : ObjectList}
    (ht : Tracked env { m with objectList := list })
    (hl : Linked (placeOf { m with objectList := list } env) (m.setDropping id (some b')).slot) :
    Placed env ({ m with objectList := list }.setDropping id (some b')) := by
  refine ⟨ht, hl, h.window, h.cells, fun i id' hi => ?_, fun id' hid' => ?_⟩
  · obtain ⟨b₀, hb₀, hi₀⟩ := h.droppings i id' hi
    by_cases he : id' = id
    · subst he
      obtain rfl := Option.some.inj (hid.symm.trans hb₀)
      exact ⟨b', Function.update_self .., hindex.trans hi₀⟩
    · exact ⟨b₀, (Function.update_of_ne he ..).trans hb₀, hi₀⟩
  · have he : id' ≠ id := by
      rintro rfl
      rw [(h.fresh id' hid').2] at hid
      cases hid
    exact ⟨(h.fresh id' hid').1, (Function.update_of_ne he ..).trans (h.fresh id' hid').2⟩

/-- A batch without drops goes. -/
theorem Placed.removeBatch (h : Placed env m) {i id : ℕ} {b : DropBatch} (hi : m.cell i = some id)
    (hb : m.batch id = some b) (hdrops : b.drops = []) : Placed env { m.setBatch id none with
      dropBatches := Function.update m.dropBatches i none } := by
  obtain ⟨pos, hpos, hnone⟩ := h.cells
  have hcell : cell { m.setBatch id none with
      dropBatches := Function.update m.dropBatches i none } = Function.update m.cell i none := by
    funext k
    by_cases hk : k = i
    · rw [hk, Function.update_self, cell]
      dsimp only
      rw [Function.update_self, ite_self]
    · rw [Function.update_of_ne hk]
      exact if_congr Iff.rfl (Function.update_of_ne hk ..) rfl
  have hslot : slot { m.setBatch id none with
      dropBatches := Function.update m.dropBatches i none } = m.slot := by
    funext ⟨t, k, j⟩
    rcases t
    case drop =>
      change Option.bind (Option.bind (cell _ k) (Function.update m.batch id none)) _ =
        Option.bind (Option.bind (m.cell k) m.batch) _
      rw [hcell]
      by_cases hk : k = i
      · rw [hk, Function.update_self, hi, Option.bind_some, hb, Option.bind_none, Option.bind_some,
          DropBatch.oidAt, hdrops]
        rfl
      · rw [Function.update_of_ne hk]
        cases hc : m.cell k with
        | none => rfl
        | some id' =>
          rw [Option.bind_some, Option.bind_some, Function.update_of_ne]
          rintro rfl
          exact hk (hpos.symm.ext hc hi)
    all_goals rfl
  refine ⟨h.tracks, hslot ▸ h.linked, h.window,
    ⟨Function.update pos id none, hcell ▸ hpos.take ((hpos ..).2 hi), fun id' => ?_⟩, h.droppings,
    fun id' hid' => ⟨?_, (h.fresh id' hid').2⟩⟩
  · change Function.update m.batch id none id' = none ↔ _
    by_cases he : id' = id
    · rw [he, Function.update_self, Function.update_self]
      exact iff_of_true rfl rfl
    · rw [Function.update_of_ne he, Function.update_of_ne he, hnone]
  · change Function.update m.batch id none id' = none
    by_cases he : id' = id
    · rw [he, Function.update_self]
    · rw [Function.update_of_ne he]
      exact (h.fresh id' hid').1

/-- Only drops have come, moved or gone, and the map is `Placed`. -/
structure DropsOnly (env : Env) (m m' : Map) : Prop where
  placed : Placed env m'
  control : m'.control = m.control
  droppers : m'.droppers = m.droppers

theorem DropsOnly.trans {m₁ m₂ : Map} (h : DropsOnly env m m₁) (h' : DropsOnly env m₁ m₂) :
    DropsOnly env m m₂ :=
  ⟨h'.placed, h'.control.trans h.control, h'.droppers.trans h.droppers⟩

theorem removeDropped_spec (h : Placed env m) (alloc : ℕ → Bool) {object : MapObject}
    (ho : m.placeOf env object.oid = some ⟨.drop, object.index, object.index2⟩) :
    Exec.Ensures (m.removeDropped env alloc object) (DropsOnly env m) := by
  obtain ⟨pos, hpos, -⟩ := h.cells
  refine Exec.within_spec.bind fun _ _ => .bind (.deref fun id hid => hid) fun id hid =>
    .bind (.deref fun b hb => hb) fun b hb => ?_
  have hcell : m.cell object.index = some id := by
    obtain ⟨b', hb', -⟩ := slot_drop_eq_some.1 ((h.linked ..).1 ho)
    obtain ⟨id', hc, -⟩ := batchAt_eq_some.1 hb'
    rwa [(cell_eq_some.1 hc).2.symm.trans hid] at hc
  refine (freeObject_spec h.tracks (alloc 0) ho).bind ?_
  rintro m₁ ⟨list₁, rfl, htracked₁, hplace₁⟩
  refine Exec.last_spec.bind fun last hlast => ?_
  obtain ⟨-, rfl⟩ := hlast
  refine (replaceDrop_spec htracked₁ .drop b.drops object.index2 _).bind ?_
  rintro ⟨drops, m₂⟩ ⟨hlt, d, hd, rfl, list₂, rfl, htracked₂, heq, hne⟩
  have hy : m.placeOf env d.oid = some ⟨.drop, object.index, b.drops.length - 1⟩ := by
    refine (h.linked ..).2 (slot_drop_eq_some.2 ⟨b, batchAt_eq_some.2 ⟨id, hcell, hb⟩, ?_⟩)
    rw [DropBatch.oidAt, hd, Option.map_some]
  have hplaced := h.setBatch (b := { b with drops := (b.drops.set object.index2 d).dropLast })
    (by rw [hb]; exact nofun) htracked₂ <| by
      rw [slot_setBatch hpos hcell hb (oidAt_dropLast d hlt),
        placeOf_fill h.linked ho hy hplace₁ heq hne]
      exact h.linked.fill ho hy
  have hskip (m' : Map) (hm' : DropsOnly env m m') :
      Exec.Ensures (m'.skipHoles env (fun n => alloc (n + 2)) (m'.dropBatchEnd - m'.dropBatchStart))
        (DropsOnly env m) := by
    refine (skipHoles_spec hm'.placed _ _).mono ?_
    rintro m'' ⟨hplaced, _, _, _, _, _, rfl⟩
    exact ⟨hplaced, hm'.control, hm'.droppers⟩
  dsimp only
  split
  · rename_i hdrops
    refine ((unlistBatch_things _ _ _).and ((unlistBatch_control _ _ _).and
      (unlistBatch_droppers _ _ _))).bind fun m₄ hm₄ => ?_
    obtain ⟨hthings, hcontrol, hdroppers⟩ := hm₄
    refine (stopTimer_spec _).bind fun m₅ hm₅ => ?_
    obtain ⟨timers, rfl⟩ := hm₅
    refine hskip _ ⟨?_, hcontrol, hdroppers⟩
    have hplaced₄ := hplaced.of_things hthings
    have hcell₄ : m₄.cell object.index = some id :=
      (congrArg (fun m => m.cell object.index) hthings).trans hcell
    obtain ⟨b₄, hb₄, hbare⟩ := batch_of_things hthings (Function.update_self ..)
    have hdrops₄ : b₄.drops = [] := (congrArg DropBatch.drops hbare).trans hdrops
    exact (hplaced₄.removeBatch hcell₄ hb₄ hdrops₄).of_things rfl
  · exact hskip _ ⟨hplaced, rfl, rfl⟩

theorem removeDropping_spec (h : Placed env m) (alloc : ℕ → Bool) {object : MapObject}
    (ho : m.placeOf env object.oid = some ⟨.dropping, object.index, object.index2⟩) :
    Exec.Ensures (m.removeDropping env alloc object) (DropsOnly env m) := by
  obtain ⟨b, hat, hoid⟩ := slot_dropping_eq_some.1 ((h.linked ..).1 ho)
  obtain ⟨hj, -⟩ := DroppingBatch.oidAt_eq_some.1 hoid
  obtain ⟨id, hcell, hb⟩ := droppingAt_eq_some.1 hat
  have hid : m.droppingBatches object.index = id := (firsts_eq_some.1 hcell).2
  refine Exec.within_spec.bind fun _ _ => ?_
  dsimp only
  rw [hid, hb]
  refine (freeObject_spec h.tracks (alloc 0) ho).bind ?_
  rintro m₁ ⟨list₁, rfl, htracked₁, hplace₁⟩
  refine Exec.last_spec.bind fun last hlast => ?_
  obtain ⟨-, rfl⟩ := hlast
  refine (replaceDrop_spec htracked₁ .dropping b.drops object.index2 _).bind ?_
  rintro ⟨drops, m₂⟩ ⟨-, d, hd, rfl, list₂, rfl, htracked₂, heq, hne⟩
  refine .bind (.deref fun e he => he) fun e _ => .pure ?_
  have hy : m.placeOf env d.oid = some ⟨.dropping, object.index, b.current - 1⟩ :=
    (h.linked ..).2 (slot_dropping_eq_some.2
      ⟨b, hat, DroppingBatch.oidAt_eq_some.2 ⟨by omega, d, hd, rfl⟩⟩)
  refine ⟨h.setDropping hb (by rfl) htracked₂ ?_, rfl, droppers_setDropping hb rfl⟩
  rw [slot_setDropping h hcell hb (oidAt_dropped hj hd),
    placeOf_fill h.linked ho hy hplace₁ heq hne]
  exact h.linked.fill ho hy

/-- A drop is taken away. -/
theorem mapRemoveDrop_spec (h : Placed env m) (alloc : ℕ → Bool) {oid : UInt32} {p : MapPlace}
    (ho : m.placeOf env oid = some p) (hp : p.type = .drop ∨ p.type = .dropping) :
    Exec.Ensures (mapRemoveDrop env alloc m oid) (DropsOnly env m) := by
  refine (getObject_spec h.tracks oid).bind fun object hobject => ?_
  obtain ⟨rfl, hplace⟩ := hobject
  rw [ho] at hplace
  obtain rfl := Option.some.inj hplace
  split
  · rename_i ht
    have ho' : m.placeOf env object.oid = some ⟨.drop, object.index, object.index2⟩ :=
      ho.trans (congrArg some (by rw [MapObject.place, ht]))
    exact removeDropped_spec h alloc ho'
  · rename_i ht
    have ht' : object.type = .dropping := hp.resolve_left ht
    have ho' : m.placeOf env object.oid = some ⟨.dropping, object.index, object.index2⟩ :=
      ho.trans (congrArg some (by rw [MapObject.place, ht']))
    exact removeDropping_spec h alloc ho'

end Map

end Syrup
