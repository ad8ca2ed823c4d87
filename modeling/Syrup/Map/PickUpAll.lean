import Syrup.Lib.SwapRemove
import Syrup.Map.Exchange
import Syrup.Map.Places.Drops

/-!
# `map_pick_up_all`

A player picks up all that lies on the map for him, when his pet is to do so. The function tries the drops of each
batch that he owns, and then what the batches have dropped that are still dropping. Each drop that is picked up
changes what the loops go through: `map_remove_drop` puts the last drop of the batch into its place, and, when the
batch is gone, the last batch of the player into the place of the batch. So the indices go back by one, for which
they may go below zero: they are `size_t`, and come back by the next `++`.

What a client makes of a drop is an argument, and so are the outcomes of the allocations when it is removed. The
loops are given a number of rounds; they do not end if it is not enough.
-/

namespace Syrup

variable {σ : Type}

/-- `do_client_auto_pickup`: whether the drop has been picked up. -/
def doClientAutoPickup (env : Env) (takes : Drop → σ → Exec (Bool × σ)) (removal : UInt32 → ℕ → Bool) (m : Map)
    (s : σ) (drop : Drop) : Exec (Bool × Map × σ) := do
  let (taken, s) ← takes drop s
  if taken then
    let m ← mapRemoveDrop env (removal drop.oid) m drop.oid
    return (true, m, s)
  else return (false, m, s)

/-- What a client makes of a drop, with the outcomes of the allocations for each drop: it takes the drop if it
    gains it. -/
def clientTakes (env : ExchangeEnv) (alloc : UInt32 → Bool) (room : UInt32 → ℕ) (drop : Drop) (c : Client) :
    Exec (Bool × Client) := do
  let (result, c) ← pickUpDrop env (alloc drop.oid) (room drop.oid) c drop.item
  return (decide (result = some .success), c)

namespace Map

/-- The loop over the drops of a batch. The index `i` of the batch goes back if the batch goes. -/
def pickUpBatch (env : Env) (takes : Drop → σ → Exec (Bool × σ)) (removal : UInt32 → ℕ → Bool) (id : ℕ) :
    ℕ → UInt64 → UInt64 → UInt64 → Map → σ → Exec (UInt64 × Map × σ)
  | 0, _, _, _, _, _ => .error .divergence
  | n + 1, i, j, count, m, s =>
    if j < count then do
      let batch ← Exec.deref (m.batch id)
      let drop ← Exec.deref batch.drops[j.toNat]?
      -- With its last drop the batch goes, and another one takes its place.
      let i := if batch.drops.length = 1 then i - 1 else i
      let (taken, m, s) ← doClientAutoPickup env takes removal m s drop
      if taken then pickUpBatch env takes removal id n i (j - 1 + 1) (count - 1) m s
      else do
        -- It has not gone, as the drop is still there.
        let batch ← Exec.deref (m.batch id)
        let i := if batch.drops.length = 1 then i + 1 else i
        pickUpBatch env takes removal id n i (j + 1) count m s
    else .ok (i, m, s)

/-- The loop over the batches of a player; the loops over their drops have so many rounds each. -/
def pickUpBatches (env : Env) (takes : Drop → σ → Exec (Bool × σ)) (removal : UInt32 → ℕ → Bool) (r : PlayerRef)
    (rounds : ℕ) : ℕ → UInt64 → Map → σ → Exec (Map × σ)
  | 0, _, _, _ => .error .divergence
  | n + 1, i, m, s => do
    let player ← m.getPlayer r
    if i.toNat < player.dropCount then do
      let id ← player.readDrop i.toNat
      let batch ← Exec.deref (m.batch id)
      let (i, m, s) ←
        pickUpBatch env takes removal id rounds i 0 (UInt64.ofNat batch.drops.length) m s
      pickUpBatches env takes removal r rounds n (i + 1) m s
    else return (m, s)

/-- The loop over what a batch has dropped that is still dropping. -/
def pickUpDropped (env : Env) (takes : Drop → σ → Exec (Bool × σ)) (removal : UInt32 → ℕ → Bool) (id : ℕ) :
    ℕ → UInt64 → UInt64 → Map → σ → Exec (Map × σ)
  | 0, _, _, _, _ => .error .divergence
  | n + 1, j, current, m, s =>
    if j < current then do
      let batch ← Exec.deref (m.dropping id)
      let drop ← Exec.deref batch.drops[j.toNat]?
      let (taken, m, s) ← doClientAutoPickup env takes removal m s drop
      if taken then pickUpDropped env takes removal id n (j - 1 + 1) (current - 1) m s
      else pickUpDropped env takes removal id n (j + 1) current m s
    else .ok (m, s)

/-- The loop over the dropping batches of a player. -/
def pickUpDroppings (env : Env) (takes : Drop → σ → Exec (Bool × σ)) (removal : UInt32 → ℕ → Bool) (r : PlayerRef)
    (rounds : ℕ) : ℕ → UInt64 → Map → σ → Exec (Map × σ)
  | 0, _, _, _ => .error .divergence
  | n + 1, i, m, s => do
    let player ← m.getPlayer r
    if i.toNat < player.droppingCount then do
      let id ← player.readDropping i.toNat
      let batch ← Exec.deref (m.dropping id)
      let (m, s) ← pickUpDropped env takes removal id rounds 0 (UInt64.ofNat batch.current) m s
      pickUpDroppings env takes removal r rounds n (i + 1) m s
    else return (m, s)

end Map

/-- `map_pick_up_all`, where no loop has more than so many rounds. -/
def mapPickUpAll (env : Env) (takes : Drop → σ → Exec (Bool × σ)) (removal : UInt32 → ℕ → Bool) (rounds : ℕ)
    (m : Map) (r : PlayerRef) (s : σ) : Exec (Map × σ) := do
  let (m, s) ← Map.pickUpBatches env takes removal r rounds rounds 0 m s
  Map.pickUpDroppings env takes removal r rounds rounds 0 m s

end Syrup

/-!
## Drops of a player that are removed

What `map_remove_drop` does for a drop that a player owns: it returns, as long as the lists of the player and the
window of batches are in order (`Owned`), and keeps them so. What changes is the batch of the drop, in which the
last drop takes its place; and a batch without drops is taken out of the list of the player, where the last batch
takes its place (`Owned.removeOne`, `Owned.removeLast`, `Owned.removeDropping`).
-/

namespace Syrup

open BackLinks SwapRemove

/-! ## The list of batches -/

/-- The list of batches of a player has room for them, and is as large as it is said to be, unless it is empty. -/
structure MapPlayer.InList (p : MapPlayer) : Prop where
  fits : p.dropCount ≤ p.dropSize
  size : 0 < p.dropCount → p.dropSize = p.dropCapacity

namespace MapPlayer

variable {p : MapPlayer} {keeps alloc : Bool} {k : ℕ}

theorem unlistDrop_dropCount : (p.unlistDrop keeps alloc k).dropCount = p.dropCount - 1 := by
  simp only [unlistDrop]
  split_ifs <;> rfl

theorem unlistDrop_drops : (p.unlistDrop keeps alloc k).drops =
    Function.update p.drops k (p.drops (p.dropCount - 1)) := by
  simp only [unlistDrop]
  split_ifs <;> rfl

theorem unlistDrop_dropCapacity : (p.unlistDrop false alloc k).dropCapacity =
    if p.dropCount - 1 < p.dropCapacity / 4 then p.dropCapacity / 2 else p.dropCapacity := by
  simp only [unlistDrop, Bool.false_eq_true, if_false]
  split_ifs <;> rfl

theorem unlistDrop_droppings (p : MapPlayer) (keeps alloc : Bool) (k : ℕ) :
    (p.unlistDrop keeps alloc k).droppings = p.droppings ∧
    (p.unlistDrop keeps alloc k).droppingCount = p.droppingCount ∧
    (p.unlistDrop keeps alloc k).droppingSize = p.droppingSize := by
  simp only [unlistDrop]
  split_ifs <;> exact ⟨rfl, rfl, rfl⟩

/-- The list is lost if it is to be made smaller and cannot, unless nothing is left in it. -/
theorem unlistDrop_inList (h : p.InList) (hpos : 0 < p.dropCount) : (p.unlistDrop false alloc k).InList ↔
    (p.dropCount - 1 < p.dropCapacity / 4 → alloc = false → p.dropCount - 1 = 0) := by
  have hfits := h.fits
  have hsize := h.size hpos
  simp only [unlistDrop, Bool.false_eq_true, if_false]
  split_ifs with hfew halloc
  · refine iff_of_true ⟨?_, fun _ => ?_⟩ fun _ he => by simp [he] at halloc
    · change p.dropCount - 1 ≤ p.dropSize / 2
      omega
    · change p.dropSize / 2 = p.dropCapacity / 2
      rw [hsize]
  · constructor
    · intro hlist _ _
      exact Nat.le_zero.1 hlist.fits
    · intro hzero
      have hzero := hzero hfew (Bool.not_eq_true _ ▸ halloc)
      refine ⟨hzero.le, fun hlt => ?_⟩
      change 0 < p.dropCount - 1 at hlt
      omega
  · refine iff_of_true ⟨?_, fun _ => hsize⟩ fun hlt => absurd hlt hfew
    change p.dropCount - 1 ≤ p.dropSize
    omega

/-- Nothing can be read from a list that is lost. -/
theorem unlistDrop_lost (h : p.InList) (hpos : 0 < p.dropCount) (hlost : ¬(p.unlistDrop false alloc k).InList) :
    (p.unlistDrop false alloc k).dropSize = 0 := by
  rw [unlistDrop_inList h hpos] at hlost
  push Not at hlost
  obtain ⟨hfew, rfl, -⟩ := hlost
  simp only [unlistDrop, Bool.false_eq_true, if_false, if_pos hfew]

end MapPlayer

namespace Map

variable {env : Env} {m m' : Map}

/-! ## Objects -/

theorem getObject_returns (h : Tracked env m) {oid : UInt32} {p : MapPlace}
    (hp : m.placeOf env oid = some p) : (m.getObject env oid).Returns fun o => o.oid = oid ∧ o.place = p := by
  rw [getObject, h.placeOf_eq_some.1 hp]
  exact ⟨rfl, rfl⟩

theorem freeObject_total (h : Tracked env m) (alloc : Bool) {oid : UInt32} {p : MapPlace}
    (hp : m.placeOf env oid = some p) : ∃ m', m.freeObject env alloc oid = .ok m' := by
  have hne : objectListGet env m.objectList oid ≠ none := by
    rw [h.placeOf_eq_some.1 hp]
    exact nofun
  obtain ⟨list, hcall, -⟩ := Tracks.free h alloc hne
  rw [freeObject, hcall, Exec.ok_bind]
  exact ⟨_, rfl⟩

/-- Objects of drops can be told another place. -/
theorem rewriteObjects_total (h : Tracked env m) (i : ℕ) {drops : List Drop}
    (hdrops : ∀ d ∈ drops, ∃ p, m.placeOf env d.oid = some p ∧ p.type = .drop) :
    ∃ m', m.rewriteObjects env (atIndex i) drops = .ok m' := by
  induction drops generalizing m with
  | nil => exact ⟨m, rfl⟩
  | cons drop drops ih =>
    obtain ⟨⟨p, hp, ht⟩, hrest⟩ := List.forall_mem_cons.1 hdrops
    obtain ⟨o, ho, hoid, hplace⟩ := Exec.returns_iff.1 (getObject_returns h hp)
    have htype : o.type = .drop := by
      rw [← ht, ← hplace]
      rfl
    obtain ⟨htracked, hplaces⟩ := setObject_spec (o := { o with index := i }) h hp hoid
    have hnext : ∀ d ∈ drops, ∃ p, (m.setObject env drop.oid { o with index := i }).placeOf env d.oid = some p ∧
        p.type = .drop := by
      intro d hd
      rw [hplaces]
      by_cases he : d.oid = drop.oid
      · rw [he, Function.update_self]
        exact ⟨_, rfl, htype⟩
      · rw [Function.update_of_ne he]
        exact hrest d hd
    obtain ⟨m', hm'⟩ := ih htracked hnext
    refine ⟨m', ?_⟩
    rw [rewriteObjects, List.foldlM_cons]
    simp only [ho, Exec.ok_bind, atIndex, if_pos htype]
    exact hm'

theorem replaceDrop_total (h : Tracked env m) {type : MapObjectType} {drops : List Drop} {i last : ℕ} {d : Drop}
    (hi : i < drops.length) (hd : drops[last]? = some d)
    (hp : i ≠ last → ∃ p, m.placeOf env d.oid = some p ∧ p.type = type) :
    ∃ a, m.replaceDrop env type drops i last = .ok a := by
  rw [replaceDrop, Exec.within, if_pos hi, Exec.ok_bind, hd]
  change ∃ a, (if i ≠ last then _ else _) = _
  split
  · rename_i hne
    obtain ⟨p, hp, ht⟩ := hp hne
    obtain ⟨o, ho, -, hplace⟩ := Exec.returns_iff.1 (getObject_returns h hp)
    have htype : o.type = type := by
      rw [← ht, ← hplace]
      rfl
    rw [ho, Exec.ok_bind, if_pos htype]
    exact ⟨_, rfl⟩
  · exact ⟨_, rfl⟩

/-- The object of a drop is freed, and the last drop, whose object is told, takes its place. -/
theorem Placed.refill (h : Placed env m) (alloc : Bool) {type : MapObjectType} {drops : List Drop} {k i last : ℕ}
    {oid : UInt32} {d : Drop} (hi : i < drops.length) (hd : drops[last]? = some d)
    (hx : m.placeOf env oid = some ⟨type, k, i⟩) (hy : m.placeOf env d.oid = some ⟨type, k, last⟩) :
    ∃ list₁ list₂, m.freeObject env alloc oid = .ok { m with objectList := list₁ } ∧
      replaceDrop env type drops i last { m with objectList := list₁ } =
        .ok (drops.set i d, { m with objectList := list₂ }) ∧
      Tracked env { m with objectList := list₂ } ∧ { m with objectList := list₂ }.placeOf env =
        Function.update (Function.update (m.placeOf env) d.oid (some ⟨type, k, i⟩)) oid none := by
  obtain ⟨m₁, hfree⟩ := freeObject_total h.tracks alloc hx
  obtain ⟨list₁, rfl, htracked₁, hplace₁⟩ := freeObject_spec h.tracks alloc hx _ hfree
  obtain ⟨⟨drops', m₂⟩, hreplace⟩ :
      ∃ a, replaceDrop env type drops i last { m with objectList := list₁ } = .ok a := by
    refine replaceDrop_total htracked₁ hi hd fun hne => ?_
    rw [hplace₁, Function.update_of_ne, hy]
    · exact ⟨_, rfl, rfl⟩
    · -- The drop is not the one that is freed.
      intro he
      rw [he, hx] at hy
      exact hne (congrArg MapPlace.index2 (Option.some.inj hy))
  obtain ⟨-, d', hd', hset, list₂, hm₂, htracked₂, heq, hne⟩ :=
    replaceDrop_spec htracked₁ type drops i last _ hreplace
  cases hd.symm.trans hd'
  dsimp only at hset hm₂ heq hne htracked₂
  subst hset hm₂
  exact ⟨list₁, list₂, hfree, hreplace, htracked₂, placeOf_fill h.linked hx hy hplace₁ heq hne⟩

/-! ## The window -/

/-- There is a batch in a place of the window that holds one. -/
theorem Placed.exists_batch (h : Placed env m) {i id : ℕ} (hi : m.cell i = some id) :
    ∃ b, m.batch id = some b := by
  obtain ⟨pos, hpos, hnone⟩ := h.cells
  refine Option.ne_none_iff_exists'.1 fun hb => ?_
  cases ((hnone id).1 hb).symm.trans ((hpos ..).2 hi)

/-- A batch is in the window, and its drops are known to be there. -/
theorem Placed.placeOf_drop (h : Placed env m) {id j : ℕ} {b : DropBatch} {d : Drop} (hb : m.batch id = some b)
    (hd : b.drops[j]? = some d) : ∃ i, m.cell i = some id ∧ m.placeOf env d.oid = some ⟨.drop, i, j⟩ := by
  obtain ⟨pos, hpos, hnone⟩ := h.cells
  obtain ⟨i, hi⟩ := Option.ne_none_iff_exists'.1 fun hno => by
    cases hb.symm.trans ((hnone id).2 hno)
  have hcell : m.cell i = some id := (hpos ..).1 hi
  refine ⟨i, hcell, (h.linked ..).2 (slot_drop_eq_some.2 ⟨b, batchAt_eq_some.2 ⟨id, hcell, hb⟩, ?_⟩)⟩
  rw [DropBatch.oidAt, hd, Option.map_some]

/-- The next batch of the window can be moved. -/
theorem Shifting.total (h : Placed env m) {n : ℕ} (hn : m.dropBatchStart + n < m.dropBatchEnd)
    (hm' : Shifting env m n m') :
    (m'.moveBatch env m.dropBatchStart (m.dropBatchStart + n)).Returns fun _ => True := by
  obtain ⟨list, cells, rfl⟩ := hm'.eq
  have hcell : cells (m.dropBatchStart + n) = m.dropBatches (m.dropBatchStart + n) :=
    hm'.rest _ (Nat.le_add_left ..)
  rw [moveBatch, Nat.add_sub_cancel_left]
  dsimp only
  rw [Function.update_self, hcell]
  cases hid : m.dropBatches (m.dropBatchStart + n) with
  | none => exact trivial
  | some id =>
    have hc : m.cell (m.dropBatchStart + n) = some id := cell_eq_some.2 ⟨⟨Nat.le_add_right .., hn⟩, hid⟩
    obtain ⟨b, hb⟩ := h.exists_batch hc
    change Exec.Returns (Exec.deref (m.batch id) >>= _) _
    rw [hb]
    refine .of_ensures (rewriteObjects_total (by exact hm'.tracked) n fun d hd => ?_) fun _ _ => trivial
    obtain ⟨j, hj⟩ := (h.mem_oids (batchAt_eq_some.2 ⟨id, hc, hb⟩)).1 (List.mem_map_of_mem hd)
    refine ⟨_, (hm'.place d.oid).trans (by rw [hj, Option.map_some]), ?_⟩
    rw [shifted]
    split <;> rfl

theorem compact_returns (h : Placed env m) (alloc : Bool) (hstart : m.dropBatchStart ≠ 0)
    (hroom : m.dropBatchEnd - m.dropBatchStart < m.dropBatchCapacity / 4) :
    (m.compact env alloc).Returns fun m' =>
      Placed env m' ∧ WindowMoved m m' ∧ m'.dropBatchEnd ≤ m'.dropBatchCapacity := by
  have hloop : ((List.range' m.dropBatchStart (m.dropBatchEnd - m.dropBatchStart)).foldlM
      (fun (m' : Map) i => m'.moveBatch env m.dropBatchStart i) m).Returns
        (Shifting env m (m.dropBatchEnd - m.dropBatchStart)) := by
    rw [List.range'_eq_map_range, List.foldlM_map]
    refine .foldlM_range (.start h) fun n hn m' hm' => ?_
    exact .of_ensures (hm'.total h (by omega)).total (hm'.step h (by omega))
  have hplaced := compact_spec h alloc
  rw [compact, if_pos hstart] at hplaced ⊢
  dsimp only at hplaced ⊢
  obtain ⟨m', hm', hshifted⟩ := Exec.returns_iff.1 hloop
  rw [hm'] at hplaced ⊢
  obtain ⟨list, cells, rfl⟩ := hshifted.eq
  obtain ⟨hplaced, hmoved⟩ := hplaced _ rfl
  refine ⟨hplaced, hmoved, ?_⟩
  cases alloc
  · change m.dropBatchEnd - m.dropBatchStart ≤ m.dropBatchCapacity
    omega
  · change m.dropBatchEnd - m.dropBatchStart ≤ m.dropBatchCapacity / 2
    omega

theorem skipHoles_returns (h : Placed env m) (hroom : m.dropBatchEnd ≤ m.dropBatchCapacity) (alloc : ℕ → Bool)
    (n : ℕ) : (m.skipHoles env alloc n).Returns fun m' =>
      Placed env m' ∧ WindowMoved m m' ∧ m'.dropBatchEnd ≤ m'.dropBatchCapacity := by
  induction n generalizing m with
  | zero => exact ⟨h, .refl m, hroom⟩
  | succ n ih =>
    rw [skipHoles]
    split
    · rename_i hhole
      have hskip := h.skip hhole.1 hhole.2
      have hmoved : WindowMoved m { m with dropBatchStart := m.dropBatchStart + 1 } := ⟨_, _, _, _, _, rfl⟩
      have hrest (m' : Map) (hm' : Placed env m' ∧ WindowMoved m m' ∧ m'.dropBatchEnd ≤ m'.dropBatchCapacity) :
          (m'.skipHoles env alloc n).Returns fun m' =>
            Placed env m' ∧ WindowMoved m m' ∧ m'.dropBatchEnd ≤ m'.dropBatchCapacity :=
        (ih hm'.1 hm'.2.2).mono fun m'' hm'' => ⟨hm''.1, hm'.2.1.trans hm''.2.1, hm''.2.2⟩
      dsimp only
      split
      · rename_i hfew
        exact (compact_returns hskip (alloc n) (Nat.succ_ne_zero _) hfew).bind fun m' hm' =>
          hrest m' ⟨hm'.1, hmoved.trans hm'.2.1, hm'.2.2⟩
      · exact hrest _ ⟨hskip, hmoved, hroom⟩
    · exact ⟨h, .refl m, hroom⟩

/-! ## The lists of a player -/

/-- A batch in a place of the list of a player. -/
structure OwnBatch (timers : ℕ → Option MapTimer) (r : PlayerRef) (i : ℕ) (b : DropBatch) : Prop where
  owner : b.owner = some r
  index : b.indexInPlayer = i
  nonempty : b.drops ≠ []
  few : b.drops.length < 2 ^ 64
  timer : ∃ t, b.timer = some t ∧ timers t ≠ none

/-- A dropping batch in a place of the list of a player. -/
structure OwnDropping (cell : ℕ → Option ℕ) (id i : ℕ) (b : DroppingBatch) : Prop where
  cell : cell b.index = some id
  index : b.indexInPlayer = i
  current : b.current ≤ b.drops.length
  few : b.drops.length < 2 ^ 64

/-- The lists of a player are in order: each batch knows its place in them, and has drops and a timer of its own. -/
structure OwnLists (m : Map) (r : PlayerRef) (p : MapPlayer) : Prop where
  player : m.getPlayer r = .ok p
  few : p.dropCount < 2 ^ 64
  batches : ∀ i < p.dropCount, ∃ b, m.batch (p.drops i) = some b ∧ OwnBatch m.timers r i b
  timers : ∀ i < p.dropCount, ∀ j < p.dropCount, ∀ b b', m.batch (p.drops i) = some b →
    m.batch (p.drops j) = some b' → b.timer = b'.timer → i = j
  fewDropping : p.droppingCount < 2 ^ 64
  fits : p.droppingCount ≤ p.droppingSize
  droppings : ∀ i < p.droppingCount, ∃ b, m.dropping (p.droppings i) = some b ∧
    OwnDropping m.droppingCell (p.droppings i) i b
  room : m.droppingBatchCount ≤ m.droppingBatchCapacity

/-- The drops of a player are where they are said to be, and his lists are in order. -/
structure Owned (env : Env) (m : Map) (r : PlayerRef) (p : MapPlayer) : Prop where
  placed : Placed env m
  room : m.dropBatchEnd ≤ m.dropBatchCapacity
  lists : OwnLists m r p

/-- What is in a batch. -/
def dropsIn (m : Map) (id : ℕ) : List Drop := (m.batch id).elim [] DropBatch.drops

/-- The drops of the batches of a player. -/
def batchesOf (m : Map) (p : MapPlayer) : List (List Drop) :=
  (List.range p.dropCount).map fun i => m.dropsIn (p.drops i)

/-- What a batch that is dropping has dropped. -/
def droppedIn (m : Map) (id : ℕ) : List Drop := (m.dropping id).elim [] fun b => b.drops.take b.current

/-- What the dropping batches of a player have dropped. -/
def droppedOf (m : Map) (p : MapPlayer) : List (List Drop) :=
  (List.range p.droppingCount).map fun i => m.droppedIn (p.droppings i)

variable {r : PlayerRef} {p : MapPlayer} {k : ℕ} {b : DropBatch}

theorem dropsIn_eq {id : ℕ} (hb : m.batch id = some b) : m.dropsIn id = b.drops := by
  rw [dropsIn, hb, Option.elim_some]

theorem droppedIn_eq {id : ℕ} {b : DroppingBatch} (hb : m.dropping id = some b) :
    m.droppedIn id = b.drops.take b.current := by
  rw [droppedIn, hb, Option.elim_some]

theorem getElem?_batchesOf (hk : k < p.dropCount) : (m.batchesOf p)[k]? = some (m.dropsIn (p.drops k)) := by
  rw [batchesOf, List.getElem?_map, List.getElem?_range hk, Option.map_some]

theorem getElem?_droppedOf (hk : k < p.droppingCount) :
    (m.droppedOf p)[k]? = some (m.droppedIn (p.droppings k)) := by
  rw [droppedOf, List.getElem?_map, List.getElem?_range hk, Option.map_some]

theorem batchesOf_congr (hm : m'.batch = m.batch) : m'.batchesOf p = m.batchesOf p := by
  simp only [batchesOf, dropsIn, hm]

theorem droppedOf_congr {p' : MapPlayer} (hm : m'.dropping = m.dropping)
    (hcount : p'.droppingCount = p.droppingCount) (hp : p'.droppings = p.droppings) :
    m'.droppedOf p' = m.droppedOf p := by
  simp only [droppedOf, droppedIn, hm, hcount, hp]

namespace OwnLists

/-- A batch is in one place of the list. -/
theorem ext (h : OwnLists m r p) {i j : ℕ} (hi : i < p.dropCount) (hj : j < p.dropCount)
    (he : p.drops i = p.drops j) : i = j := by
  obtain ⟨b, hb, hown⟩ := h.batches i hi
  obtain ⟨b', hb', hown'⟩ := h.batches j hj
  rw [he, hb'] at hb
  cases hb
  exact hown.index.symm.trans hown'.index

theorem dropping_ext (h : OwnLists m r p) {i j : ℕ} (hi : i < p.droppingCount) (hj : j < p.droppingCount)
    (he : p.droppings i = p.droppings j) : i = j := by
  obtain ⟨b, hb, hown⟩ := h.droppings i hi
  obtain ⟨b', hb', hown'⟩ := h.droppings j hj
  rw [he, hb'] at hb
  cases hb
  exact hown.index.symm.trans hown'.index

theorem of_windowMoved (h : OwnLists m r p) (hm : WindowMoved m m') : OwnLists m' r p := by
  obtain ⟨_, _, _, _, _, rfl⟩ := hm
  exact ⟨h.player, h.few, h.batches, h.timers, h.fewDropping, h.fits, h.droppings, h.room⟩

/-- Another batch has other drops. -/
theorem setDrops (h : OwnLists m r p) (hk : k < p.dropCount) (hb : m.batch (p.drops k) = some b) {drops : List Drop}
    (hne : drops ≠ []) (hfew : drops.length < 2 ^ 64) :
    OwnLists (m.setBatch (p.drops k) (some { b with drops := drops })) r p := by
  obtain ⟨b₀, hb₀, hown⟩ := h.batches k hk
  cases hb.symm.trans hb₀
  have hbatch (i : ℕ) (hi : i < p.dropCount) : ∃ b₁ b₂, m.batch (p.drops i) = some b₁ ∧
      Function.update m.batch (p.drops k) (some { b with drops := drops }) (p.drops i) = some b₂ ∧
      b₂.timer = b₁.timer ∧ OwnBatch m.timers r i b₂ := by
    rcases eq_or_ne i k with rfl | hik
    · rw [Function.update_self]
      exact ⟨b, _, hb, rfl, rfl, hown.owner, hown.index, hne, hfew, hown.timer⟩
    · obtain ⟨b₁, hb₁, hown₁⟩ := h.batches i hi
      rw [Function.update_of_ne fun he => hik (h.ext hi hk he)]
      exact ⟨b₁, b₁, hb₁, hb₁, rfl, hown₁⟩
  refine ⟨h.player, h.few, fun i hi => ?_, fun i hi j hj b₁ b₂ hb₁ hb₂ ht => ?_, h.fewDropping, h.fits,
    h.droppings, h.room⟩
  · obtain ⟨_, b₂, -, hb₂, -, hown₂⟩ := hbatch i hi
    exact ⟨b₂, hb₂, hown₂⟩
  · obtain ⟨c₁, d₁, hc₁, hd₁, ht₁, -⟩ := hbatch i hi
    obtain ⟨c₂, d₂, hc₂, hd₂, ht₂, -⟩ := hbatch j hj
    cases hd₁.symm.trans hb₁
    cases hd₂.symm.trans hb₂
    exact h.timers i hi j hj c₁ c₂ hc₁ hc₂ (ht₁.symm.trans (ht.trans ht₂))

/-- The last batch of the list takes the place of one that goes. -/
theorem unlist (h : OwnLists m r p) (hk : k < p.dropCount) (hb : m.batch (p.drops k) = some b) {b₁ b' : DropBatch}
    {alloc : Bool} {t : ℕ} (ht : b.timer = some t)
    (hlast : Function.update m.batch (p.drops k) (some b₁) (p.drops (p.dropCount - 1)) = some b') {m₁ : Map}
    (hm₁ : m₁ = { (((m.setBatch (p.drops k) (some b₁)).setBatch (p.drops (p.dropCount - 1))
      (some { b' with indexInPlayer := k })).setPlayer r (p.unlistDrop false alloc k)).setBatch
        (p.drops k) none with
          timers := Function.update m.timers t none }) :
    OwnLists m₁ r (p.unlistDrop false alloc k) ∧
      m₁.batchesOf (p.unlistDrop false alloc k) = swapRemove (m.batchesOf p) k := by
  -- Where a batch that stays in the list has been before.
  obtain ⟨place, hplace⟩ : ∃ place : ℕ → ℕ, place = fun i => if i = k then p.dropCount - 1 else i := ⟨_, rfl⟩
  have hlt (i : ℕ) (hi : i < p.dropCount - 1) : place i < p.dropCount ∧ place i ≠ k := by
    rw [hplace]
    dsimp only
    split <;> omega
  have hinj (i j : ℕ) (hi : i < p.dropCount - 1) (hj : j < p.dropCount - 1) (he : place i = place j) : i = j := by
    rw [hplace] at he
    dsimp only at he
    split at he <;> split at he <;> omega
  have hdrops (i : ℕ) : (p.unlistDrop false alloc k).drops i = p.drops (place i) := by
    rw [MapPlayer.unlistDrop_drops, hplace, Function.update_apply, apply_ite p.drops]
  have hbatch (i : ℕ) (hi : i < p.dropCount - 1) : ∃ c, m.batch (p.drops (place i)) = some c ∧
      m₁.batch ((p.unlistDrop false alloc k).drops i) = some { c with indexInPlayer := i } ∧
        OwnBatch m.timers r (place i) c := by
    obtain ⟨hi', hik⟩ := hlt i hi
    obtain ⟨c, hc, hown⟩ := h.batches _ hi'
    have hne : p.drops (place i) ≠ p.drops k := fun he => hik (h.ext hi' hk he)
    refine ⟨c, hc, ?_, hown⟩
    subst hm₁
    rw [hdrops]
    change Function.update (Function.update (Function.update m.batch _ _) _ _) _ _ _ = _
    rw [Function.update_of_ne hne]
    by_cases he : i = k
    · -- The batch that has been the last one.
      have hp : place i = p.dropCount - 1 := by rw [hplace]; exact if_pos he
      rw [hp] at hc hne ⊢
      rw [Function.update_of_ne hne, hc] at hlast
      cases hlast
      rw [Function.update_self, he]
    · have hp : place i = i := by rw [hplace]; exact if_neg he
      rw [hp] at hc hne hown ⊢
      have hil : p.drops i ≠ p.drops (p.dropCount - 1) := fun he' => by
        have := h.ext (by omega) (by omega) he'
        omega
      rw [Function.update_of_ne hil, Function.update_of_ne hne, hc, hown.index.symm]
  have htimer (i : ℕ) (hi : i < p.dropCount - 1) {c : DropBatch} (hc : m.batch (p.drops (place i)) = some c) :
      c.timer ≠ some t := fun he =>
    (hlt i hi).2 (h.timers _ (hlt i hi).1 k hk c b hc hb (he.trans ht.symm))
  have hcount : (p.unlistDrop false alloc k).dropCount = p.dropCount - 1 := MapPlayer.unlistDrop_dropCount
  obtain ⟨hdroppings, hdroppingCount, hdroppingSize⟩ := p.unlistDrop_droppings false alloc k
  refine ⟨⟨?_, ?_, fun i hi => ?_, fun i hi j hj c c' hc hc' he => ?_, ?_, ?_, fun i hi => ?_, ?_⟩, ?_⟩
  · subst hm₁
    exact getPlayer_eq_ok.2 ⟨(getPlayer_eq_ok.1 h.player).1, Function.update_self ..⟩
  · rw [hcount]
    exact (Nat.sub_le ..).trans_lt h.few
  · rw [hcount] at hi
    obtain ⟨c, hc, hc', hown⟩ := hbatch i hi
    obtain ⟨t', ht', hlive⟩ := hown.timer
    refine ⟨_, hc', hown.owner, rfl, hown.nonempty, hown.few, t', ht', ?_⟩
    subst hm₁
    change Function.update m.timers t none t' ≠ none
    rwa [Function.update_of_ne fun he => htimer i hi hc (ht'.trans (congrArg some he))]
  · rw [hcount] at hi hj
    obtain ⟨d, hd, hd', -⟩ := hbatch i hi
    obtain ⟨e, he₁, he₂, -⟩ := hbatch j hj
    cases hd'.symm.trans hc
    cases he₂.symm.trans hc'
    exact hinj i j hi hj (h.timers _ (hlt i hi).1 _ (hlt j hj).1 d e hd he₁ he)
  · rw [hdroppingCount]
    exact h.fewDropping
  · rw [hdroppingCount, hdroppingSize]
    exact h.fits
  · rw [hdroppingCount] at hi
    obtain ⟨c, hc, hown⟩ := h.droppings i hi
    rw [hdroppings]
    subst hm₁
    exact ⟨c, hc, hown⟩
  · subst hm₁
    exact h.room
  · rw [batchesOf, batchesOf, swapRemove_map_range _ hk, hcount]
    refine List.map_congr_left fun i hi => ?_
    obtain ⟨c, hc, hc', -⟩ := hbatch i (List.mem_range.1 hi)
    rw [dropsIn_eq hc', ← dropsIn_eq hc, hplace]

/-- What a dropping batch has dropped changes. -/
theorem setDropped (h : OwnLists m r p) (hk : k < p.droppingCount) {b b' : DroppingBatch}
    (hb : m.dropping (p.droppings k) = some b) (hb' : OwnDropping m.droppingCell (p.droppings k) k b') :
    OwnLists (m.setDropping (p.droppings k) (some b')) r p := by
  refine ⟨h.player, h.few, h.batches, h.timers, h.fewDropping, h.fits, fun i hi => ?_, h.room⟩
  · change ∃ c, Function.update m.dropping (p.droppings k) (some b') (p.droppings i) = some c ∧ _
    rcases eq_or_ne i k with rfl | hne
    · rw [Function.update_self]
      exact ⟨b', rfl, hb'⟩
    · obtain ⟨c, hc, hown⟩ := h.droppings i hi
      rw [Function.update_of_ne fun he => hne (h.dropping_ext hi hk he)]
      exact ⟨c, hc, hown⟩

end OwnLists

/-! ## Removals -/

theorem unlistBatch_returns (keeps alloc : Bool) (batch : DropBatch) {b : DropBatch} (howner : batch.owner = some r)
    (hplayer : m.getPlayer r = .ok p) (hpos : 0 < p.dropCount) (hfits : p.dropCount ≤ p.dropSize)
    (hindex : batch.indexInPlayer < p.dropCount) (hlast : m.batch (p.drops (p.dropCount - 1)) = some b) :
    (m.unlistBatch keeps alloc batch).Returns fun m' =>
      m' = (m.setBatch (p.drops (p.dropCount - 1))
        (some { b with indexInPlayer := batch.indexInPlayer })).setPlayer r
          (p.unlistDrop keeps alloc batch.indexInPlayer) := by
  have hread : p.readDrop (p.dropCount - 1) = .ok (p.drops (p.dropCount - 1)) := by
    rw [MapPlayer.readDrop, Exec.within, if_pos (by omega)]
    rfl
  have hwrite (id : ℕ) : p.writeDrop batch.indexInPlayer id =
      .ok { p with drops := Function.update p.drops batch.indexInPlayer id } := by
    rw [MapPlayer.writeDrop, Exec.within, if_pos (by omega)]
    rfl
  rw [unlistBatch, howner]
  dsimp only
  rw [hplayer, Exec.ok_bind, Exec.last, if_neg (by omega), Exec.ok_bind, hread, Exec.ok_bind, hwrite, Exec.ok_bind,
    hlast]
  exact rfl

theorem stopTimer_returns {timer : Option ℕ} {t : ℕ} (ht : timer = some t) (hlive : m.timers t ≠ none) :
    (m.stopTimer timer).Returns fun m' => m' = { m with timers := Function.update m.timers t none } := by
  obtain ⟨task, htask⟩ := Option.ne_none_iff_exists'.1 hlive
  rw [stopTimer, ht]
  change (Exec.deref (m.timers t) >>= _).Returns _
  rw [htask]
  exact rfl

/-- What is left of the map, but for the window, when a drop has been removed from a batch of the player. -/
def AfterRemoval (m : Map) (r : PlayerRef) (p : MapPlayer) (k : ℕ) (b : DropBatch) (drops : List Drop)
    (alloc : Bool) (m₁ : Map) : Prop :=
  (drops ≠ [] ∧ m₁ = m.setBatch (p.drops k) (some { b with drops := drops })) ∨
    (drops = [] ∧ ∃ b' t, b.timer = some t ∧
      Function.update m.batch (p.drops k) (some { b with drops := drops }) (p.drops (p.dropCount - 1)) = some b' ∧
      m₁ = { (((m.setBatch (p.drops k) (some { b with drops := drops })).setBatch (p.drops (p.dropCount - 1))
        (some { b' with indexInPlayer := k })).setPlayer r (p.unlistDrop false alloc k)).setBatch
          (p.drops k) none with
            timers := Function.update m.timers t none })

theorem Owned.removeDropped (h : Owned env m r p) (hp : p.InList) (hk : k < p.dropCount)
    (hb : m.batch (p.drops k) = some b) (alloc : ℕ → Bool) {object : MapObject}
    (ho : m.placeOf env object.oid = some ⟨.drop, object.index, object.index2⟩)
    (hcell : m.cell object.index = some (p.drops k)) (hj : object.index2 < b.drops.length) :
    (m.removeDropped env alloc object).Returns fun m' => Placed env m' ∧ m'.dropBatchEnd ≤ m'.dropBatchCapacity ∧
      ∃ m₁, AfterRemoval m r p k b (swapRemove b.drops object.index2) (alloc 1) m₁ ∧ WindowMoved m₁ m' := by
  obtain ⟨pos, hpos, -⟩ := h.placed.cells
  obtain ⟨b₀, hb₀, hown⟩ := h.lists.batches k hk
  cases hb.symm.trans hb₀
  have hat := cell_eq_some.1 hcell
  have hsub : b.drops.length - 1 < b.drops.length := by omega
  obtain ⟨d, hd⟩ : ∃ d, b.drops[b.drops.length - 1]? = some d := ⟨_, List.getElem?_eq_getElem hsub⟩
  have hdrops : (b.drops.set object.index2 d).dropLast = swapRemove b.drops object.index2 := by
    rw [swapRemove, List.getLast?_eq_getElem?, hd, Option.elim_some]
  have hy : m.placeOf env d.oid = some ⟨.drop, object.index, b.drops.length - 1⟩ := by
    refine (h.placed.linked ..).2 (slot_drop_eq_some.2 ⟨b, batchAt_eq_some.2 ⟨_, hcell, hb⟩, ?_⟩)
    rw [DropBatch.oidAt, hd, Option.map_some]
  obtain ⟨list₁, list₂, hfree, hreplace, htracked₂, hplace₂⟩ := h.placed.refill (alloc 0) hj hd ho hy
  have hplaced := h.placed.setBatch (b := { b with drops := (b.drops.set object.index2 d).dropLast })
    (by rw [hb]; simp) htracked₂ <| by
      rw [slot_setBatch hpos hcell hb (oidAt_dropLast d hj), hplace₂]
      exact h.placed.linked.fill ho hy
  rw [hdrops] at hplaced
  -- What is done with the window, when the drop is gone.
  have hskip (m' : Map) (hm' : Placed env m') (hroom : m'.dropBatchEnd ≤ m'.dropBatchCapacity) {m₁ : Map}
      (hm₁ : AfterRemoval m r p k b (swapRemove b.drops object.index2) (alloc 1) m₁) (hmoved : WindowMoved m₁ m') :
      (m'.skipHoles env (fun n => alloc (n + 2)) (m'.dropBatchEnd - m'.dropBatchStart)).Returns fun m' =>
        Placed env m' ∧ m'.dropBatchEnd ≤ m'.dropBatchCapacity ∧
          ∃ m₁, AfterRemoval m r p k b (swapRemove b.drops object.index2) (alloc 1) m₁ ∧ WindowMoved m₁ m' :=
    (skipHoles_returns hm' hroom _ _).mono fun m'' hm'' =>
      ⟨hm''.1, hm''.2.2, m₁, hm₁, hmoved.trans hm''.2.1⟩
  rw [Map.removeDropped, Exec.within, if_pos (hat.1.2.trans_le h.room), Exec.ok_bind, hat.2]
  change (Exec.deref (m.batch (p.drops k)) >>= _).Returns _
  rw [hb]
  change (m.freeObject env (alloc 0) object.oid >>= _).Returns _
  rw [hfree, Exec.ok_bind, Exec.last, if_neg (by omega), Exec.ok_bind, hreplace, Exec.ok_bind]
  dsimp only
  rw [hdrops]
  split
  · -- The batch goes: out of the list of its owner, then its timer, and then out of the window.
    rename_i hempty
    obtain ⟨t, ht, hlive⟩ := hown.timer
    obtain ⟨b', hlast⟩ : ∃ b', Function.update m.batch (p.drops k)
        (some { b with drops := swapRemove b.drops object.index2 }) (p.drops (p.dropCount - 1)) = some b' := by
      rcases eq_or_ne (p.drops (p.dropCount - 1)) (p.drops k) with he | hne
      · rw [he, Function.update_self]
        exact ⟨_, rfl⟩
      · obtain ⟨c, hc, -⟩ := h.lists.batches (p.dropCount - 1) (by omega)
        rw [Function.update_of_ne hne]
        exact ⟨c, hc⟩
    obtain ⟨m₄, hunlist, hm₄⟩ := Exec.returns_iff.1 <| unlistBatch_returns
      (m := { m with objectList := list₂ }.setBatch (p.drops k)
        (some { b with drops := swapRemove b.drops object.index2 }))
      false (alloc 1) { b with drops := swapRemove b.drops object.index2 } hown.owner (by exact h.lists.player)
      (by omega) hp.fits (by rw [hown.index]; exact hk) hlast
    have hthings := unlistBatch_things _ _ _ _ hunlist
    rw [hunlist, Exec.ok_bind]
    refine (stopTimer_returns (t := t) ht (by rw [hm₄]; exact hlive)).bind ?_
    rintro _ rfl
    refine hskip _ ?_ (by rw [hm₄]; exact h.room) (.inr ⟨hempty, b', t, ht, hlast, rfl⟩) ?_
    · have hplaced₄ := hplaced.of_things hthings
      have hcell₄ : m₄.cell object.index = some (p.drops k) :=
        (congrArg (fun m => m.cell object.index) hthings).trans hcell
      obtain ⟨b₄, hb₄, hbare⟩ := batch_of_things hthings (Function.update_self ..)
      have hdrops₄ : b₄.drops = [] := (congrArg DropBatch.drops hbare).trans hempty
      exact (hplaced₄.removeBatch hcell₄ hb₄ hdrops₄).of_things rfl
    · rw [hm₄, hown.index]
      exact ⟨_, _, _, _, _, rfl⟩
  · rename_i hmore
    exact hskip _ hplaced h.room (.inl ⟨hmore, rfl⟩) ⟨_, _, _, _, _, rfl⟩

/-- The object of a drop in a batch is found. -/
theorem Placed.mapRemoveDrop_eq (h : Placed env m) (alloc : ℕ → Bool) {id j : ℕ} {d : Drop}
    (hb : m.batch id = some b) (hd : b.drops[j]? = some d) : ∃ object : MapObject, object.index2 = j ∧
      m.cell object.index = some id ∧
      m.placeOf env object.oid = some ⟨.drop, object.index, object.index2⟩ ∧
      mapRemoveDrop env alloc m d.oid = m.removeDropped env alloc object := by
  obtain ⟨i, hcell, hplace⟩ := h.placeOf_drop hb hd
  refine ⟨⟨.drop, d.oid, i, j⟩, rfl, hcell, hplace, ?_⟩
  rw [mapRemoveDrop, getObject, Tracked.placeOf_eq_some h.tracks |>.1 hplace]
  rfl

/-- One of several drops of a batch is removed. -/
theorem Owned.removeOne (h : Owned env m r p) (hp : p.InList) (hk : k < p.dropCount)
    (hb : m.batch (p.drops k) = some b) (alloc : ℕ → Bool) {j : ℕ} {d : Drop} (hd : b.drops[j]? = some d)
    (hmore : 1 < b.drops.length) :
    (mapRemoveDrop env alloc m d.oid).Returns fun m' => Owned env m' r p ∧
      m'.batch (p.drops k) = some { b with drops := swapRemove b.drops j } ∧
      m'.batchesOf p = (m.batchesOf p).set k (swapRemove b.drops j) ∧ m'.dropping = m.dropping := by
  obtain ⟨object, rfl, hcell, ho, hcall⟩ := h.placed.mapRemoveDrop_eq alloc hb hd
  obtain ⟨b₀, hb₀, hown⟩ := h.lists.batches k hk
  cases hb.symm.trans hb₀
  have hlen := length_swapRemove b.drops object.index2
  have hne : swapRemove b.drops object.index2 ≠ [] := fun he => by
    rw [he, List.length_nil] at hlen
    omega
  rw [hcall]
  refine (h.removeDropped hp hk hb alloc ho hcell (List.getElem?_eq_some_iff.1 hd).1).mono ?_
  rintro m' ⟨hplaced, hroom, m₁, ⟨-, rfl⟩ | ⟨he, -⟩, hmoved⟩
  · have hlists := (h.lists.setDrops hk hb hne (by have := hown.few; omega)).of_windowMoved hmoved
    obtain ⟨_, _, _, _, _, rfl⟩ := hmoved
    refine ⟨⟨hplaced, hroom, hlists⟩, Function.update_self .., map_range_set ?_ fun i hi hik => ?_, rfl⟩
    · change (Function.update m.batch (p.drops k) _ (p.drops k)).elim [] DropBatch.drops = _
      rw [Function.update_self]
      rfl
    · change (Function.update m.batch (p.drops k) _ (p.drops i)).elim [] DropBatch.drops = _
      rw [Function.update_of_ne fun he => hik (h.lists.ext hi hk he)]
      rfl
  · exact absurd he hne

/-- The only drop of a batch is removed. -/
theorem Owned.removeLast (h : Owned env m r p) (hp : p.InList) (hk : k < p.dropCount)
    (hb : m.batch (p.drops k) = some b) (alloc : ℕ → Bool) {d : Drop} (hd : b.drops = [d]) :
    (mapRemoveDrop env alloc m d.oid).Returns fun m' => Owned env m' r (p.unlistDrop false (alloc 1) k) ∧
      m'.batchesOf (p.unlistDrop false (alloc 1) k) = swapRemove (m.batchesOf p) k ∧ m'.dropping = m.dropping := by
  obtain ⟨object, hj, hcell, ho, hcall⟩ := h.placed.mapRemoveDrop_eq alloc (j := 0) hb (by rw [hd]; rfl)
  have hempty : swapRemove b.drops object.index2 = [] := by
    rw [hj, hd]
    rfl
  rw [hcall]
  refine (h.removeDropped hp hk hb alloc ho hcell (by rw [hj, hd]; exact Nat.zero_lt_one)).mono ?_
  rintro m' ⟨hplaced, hroom, m₁, ⟨hne, -⟩ | ⟨-, b', t, ht, hlast, hm₁⟩, hmoved⟩
  · exact absurd hempty hne
  · obtain ⟨hlists, hbatches⟩ := h.lists.unlist hk hb ht hlast hm₁
    have hlists := hlists.of_windowMoved hmoved
    obtain ⟨_, _, _, _, _, rfl⟩ := hmoved
    refine ⟨⟨hplaced, hroom, hlists⟩, hbatches, ?_⟩
    rw [hm₁]
    rfl

/-- A drop of a batch that is still dropping is removed. -/
theorem Owned.removeDropping (h : Owned env m r p) (hk : k < p.droppingCount) {b : DroppingBatch}
    (hb : m.dropping (p.droppings k) = some b) (alloc : ℕ → Bool) {j : ℕ} {d : Drop} (hj : j < b.current)
    (hd : b.drops[j]? = some d) :
    (mapRemoveDrop env alloc m d.oid).Returns fun m' => Owned env m' r p ∧
      (∃ b', m'.dropping (p.droppings k) = some b' ∧
        b'.drops.take b'.current = swapRemove (b.drops.take b.current) j) ∧
      m'.droppedOf p = (m.droppedOf p).set k (swapRemove (b.drops.take b.current) j) ∧ m'.batch = m.batch := by
  obtain ⟨b₀, hb₀, hown⟩ := h.lists.droppings k hk
  cases hb.symm.trans hb₀
  have hcell := hown.cell
  have hfirsts := firsts_eq_some.1 hcell
  have hat : m.droppingAt b.index = some b := droppingAt_eq_some.2 ⟨_, hcell, hb⟩
  have hcurrent := hown.current
  have hplace {i : ℕ} {e : Drop} (hi : i < b.current) (he : b.drops[i]? = some e) :
      m.placeOf env e.oid = some ⟨.dropping, b.index, i⟩ :=
    (h.placed.linked ..).2 (slot_dropping_eq_some.2 ⟨b, hat, DroppingBatch.oidAt_eq_some.2 ⟨hi, e, he, rfl⟩⟩)
  have hx := hplace hj hd
  obtain ⟨e, he⟩ : ∃ e, b.drops[b.current - 1]? = some e := ⟨_, List.getElem?_eq_getElem (by omega)⟩
  have hy := hplace (by omega) he
  obtain ⟨list₁, list₂, hfree, hreplace, -⟩ := h.placed.refill (alloc 0) (hj.trans_le hcurrent) he hx hy
  -- The last drop that is still to be dropped fills the place behind those that have been.
  obtain ⟨f, hf⟩ : ∃ f, (b.drops.set j e).getLast? = some f :=
    Option.ne_none_iff_exists'.1 fun hnone => by
      have hlen := congrArg List.length (List.getLast?_eq_none_iff.1 hnone)
      rw [List.length_set, List.length_nil] at hlen
      omega
  obtain ⟨b', hb'⟩ : ∃ b', b' = { b with
    drops := ((b.drops.set j e).set (b.current - 1) f).dropLast, current := b.current - 1 } := ⟨_, rfl⟩
  have hcall : mapRemoveDrop env alloc m d.oid =
      .ok ({ m with objectList := list₂ }.setDropping (p.droppings k) (some b')) := by
    rw [mapRemoveDrop, getObject, Tracked.placeOf_eq_some h.placed.tracks |>.1 hx]
    change m.removeDropping env alloc ⟨.dropping, d.oid, b.index, j⟩ = _
    rw [Map.removeDropping, Exec.within, if_pos (hfirsts.1.trans_le h.lists.room), Exec.ok_bind]
    dsimp only
    rw [hfirsts.2, hb]
    change (m.freeObject env (alloc 0) d.oid >>= _) = _
    rw [hfree, Exec.ok_bind, Exec.last, if_neg (by omega), Exec.ok_bind, hreplace, Exec.ok_bind]
    dsimp only
    rw [hf, hb']
    rfl
  have htake : b'.drops.take b'.current = swapRemove (b.drops.take b.current) j := by
    have hlast : (b.drops.take b.current).getLast? = some e := by
      rw [List.getLast?_eq_getElem?, List.length_take, min_eq_left hcurrent, List.getElem?_take_of_lt (by omega),
        he]
    rw [swapRemove, hlast, hb', Option.elim_some]
    refine List.ext_getElem (by simp; omega) fun i hi _ => ?_
    have hi : i < b.current - 1 := by simpa using (List.length_take_le ..).trans_lt' hi
    rw [List.getElem_take, List.getElem_dropLast, List.getElem_set_ne (by omega), List.getElem_dropLast,
      List.getElem_set, List.getElem_set, List.getElem_take]
  have hown' : OwnDropping m.droppingCell (p.droppings k) k b' := by
    subst hb'
    refine ⟨hown.cell, hown.index, ?_, ?_⟩
    · simp only [List.length_dropLast, List.length_set]
      omega
    · have := hown.few
      simp only [List.length_dropLast, List.length_set]
      omega
  rw [hcall]
  refine ⟨⟨?_, h.room, ?_⟩, ⟨b', Function.update_self .., htake⟩, map_range_set ?_ fun i hi hik => ?_, rfl⟩
  · have hplaced := mapRemoveDrop_spec h.placed alloc hx (.inr rfl) _ hcall
    exact hplaced.placed
  · exact (OwnLists.setDropped (m := { m with objectList := list₂ })
      (by exact ⟨h.lists.player, h.lists.few, h.lists.batches, h.lists.timers, h.lists.fewDropping, h.lists.fits,
        h.lists.droppings, h.lists.room⟩) hk hb hown')
  · rw [← htake]
    exact droppedIn_eq (Function.update_self ..)
  · change (Function.update m.dropping (p.droppings k) _ (p.droppings i)).elim [] _ = _
    rw [Function.update_of_ne fun he => hik (h.lists.dropping_ext hi hk he)]
    rfl

end Map

end Syrup
