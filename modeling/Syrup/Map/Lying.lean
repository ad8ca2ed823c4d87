import Syrup.Map.Places.Expiry
import Syrup.Map.Exchange

/-!
# What lies on a map

The drops of a map, of all its batches, as a multiset (`Map.lying`). Nothing but what is put onto the map
is added to it, and what is taken away is the drop that `map_get_drop` finds for the id
(`mapRemoveDrop_lying`).
-/

namespace Syrup

open BackLinks

namespace Map

variable {env : Env} {m m' : Map}

/-- What is in a list of drops. -/
def goods (drops : List Drop) : Multiset DropItem := (drops.map Drop.item : List DropItem)

/-- What is in a batch, if there is one. -/
def batchGoods (b : Option DropBatch) : Multiset DropItem := b.elim 0 fun b => goods b.drops

/-- What is in a dropping batch, if there is one. -/
def droppingGoods (b : Option DroppingBatch) : Multiset DropItem := b.elim 0 fun b => goods b.drops

/-- What the batches hold. -/
def stock (m : Map) : (ℕ → Multiset DropItem) × (ℕ → Multiset DropItem) × ℕ :=
  (fun id => batchGoods (m.batch id), fun id => droppingGoods (m.dropping id), m.nextBatch)

/-- The batches of a map. -/
def batches (m : Map) : (ℕ → Option DropBatch) × (ℕ → Option DroppingBatch) × ℕ :=
  (m.batch, m.dropping, m.nextBatch)

theorem stock_of_batches (h : m'.batches = m.batches) : m'.stock = m.stock := by
  have hbatch : m'.batch = m.batch := congrArg Prod.fst h
  have hdropping : m'.dropping = m.dropping := congrArg (fun s => s.2.1) h
  have hnext : m'.nextBatch = m.nextBatch := congrArg (fun s => s.2.2) h
  rw [stock, stock, hbatch, hdropping, hnext]

/-- All that lies on a map, or is about to be dropped. -/
def lying (m : Map) : Multiset DropItem :=
  ∑ id ∈ Finset.range m.nextBatch, (batchGoods (m.batch id) + droppingGoods (m.dropping id))

theorem lying_of_stock (h : m'.stock = m.stock) : m'.lying = m.lying := by
  have hbatch (id : ℕ) : batchGoods (m'.batch id) = batchGoods (m.batch id) :=
    congrFun (congrArg Prod.fst h) id
  have hdropping (id : ℕ) : droppingGoods (m'.dropping id) = droppingGoods (m.dropping id) :=
    congrFun (congrArg (fun s => s.2.1) h) id
  have hnext : m'.nextBatch = m.nextBatch := congrArg (fun s => s.2.2) h
  rw [lying, lying, hnext]
  exact Finset.sum_congr rfl fun id _ => by rw [hbatch, hdropping]

theorem stock_of_things (h : m'.things = m.things) : m'.stock = m.stock := by
  have hbatch (id : ℕ) : (m'.batch id).map DropBatch.bare = (m.batch id).map DropBatch.bare :=
    congrArg (fun m => m.batch id) h
  have hdropping (id : ℕ) : (m'.dropping id).map DroppingBatch.bare =
      (m.dropping id).map DroppingBatch.bare := congrArg (fun m => m.dropping id) h
  have hnext : m'.nextBatch = m.nextBatch := congrArg (fun m => m.nextBatch) h
  have hb (b : Option DropBatch) : batchGoods b = batchGoods (b.map DropBatch.bare) := by
    cases b <;> rfl
  have hd (b : Option DroppingBatch) : droppingGoods b = droppingGoods (b.map DroppingBatch.bare) := by
    cases b <;> rfl
  refine Prod.ext (funext fun id => ?_) (Prod.ext (funext fun id => ?_) hnext)
  · exact (hb _).trans (hbatch id ▸ (hb _).symm)
  · exact (hd _).trans (hdropping id ▸ (hd _).symm)

/-- A number below the next one, where a batch is. -/
theorem Placed.batch_lt (h : Placed env m) {id : ℕ} {b : DropBatch} (hb : m.batch id = some b) :
    id < m.nextBatch := by
  by_contra hle
  cases hb.symm.trans (h.fresh id (Nat.le_of_not_lt hle)).1

theorem Placed.dropping_lt (h : Placed env m) {id : ℕ} {b : DroppingBatch}
    (hb : m.dropping id = some b) : id < m.nextBatch := by
  by_contra hle
  cases hb.symm.trans (h.fresh id (Nat.le_of_not_lt hle)).2

/-- What is in a batch lies on the map. -/
theorem Placed.mem_lying (h : Placed env m) {id : ℕ} {b : DropBatch} (hb : m.batch id = some b) {d : Drop}
    (hd : d ∈ b.drops) : d.item ∈ m.lying := by
  refine Multiset.mem_sum.2 ⟨id, Finset.mem_range.2 (h.batch_lt hb), Multiset.mem_add.2 (.inl ?_)⟩
  rw [hb]
  exact Multiset.mem_coe.2 (List.mem_map_of_mem hd)

/-- What is in a batch that is dropping lies on the map. -/
theorem Placed.mem_lying_dropping (h : Placed env m) {id : ℕ} {b : DroppingBatch}
    (hb : m.dropping id = some b) {d : Drop} (hd : d ∈ b.drops) : d.item ∈ m.lying := by
  refine Multiset.mem_sum.2 ⟨id, Finset.mem_range.2 (h.dropping_lt hb), Multiset.mem_add.2 (.inr ?_)⟩
  rw [hb]
  exact Multiset.mem_coe.2 (List.mem_map_of_mem hd)

/-- What `map_get_drop` finds lies on the map. -/
theorem Placed.mem_lying_dropAt (h : Placed env m) {object : MapObject} {d : Drop}
    (hd : m.dropAt object = some d) : d.item ∈ m.lying := by
  rw [dropAt] at hd
  split at hd
  · obtain ⟨b, hb, hd⟩ := Option.bind_eq_some_iff.1 hd
    obtain ⟨id, -, hb⟩ := Option.bind_eq_some_iff.1 hb
    exact h.mem_lying hb (List.mem_of_getElem? hd)
  · obtain ⟨b, hb, hd⟩ := Option.bind_eq_some_iff.1 hd
    exact h.mem_lying_dropping hb (List.mem_of_getElem? hd)

/-- A sum of which one term is exchanged. -/
theorem sum_update_add {M : Type*} [AddCommMonoid M] {n i : ℕ} (hi : i < n) (f : ℕ → M) (a : M) :
    ∑ j ∈ Finset.range n, Function.update f i a j + f i = ∑ j ∈ Finset.range n, f j + a := by
  rw [Finset.sum_update_of_mem (Finset.mem_range.2 hi),
    ← Finset.add_sum_erase _ f (Finset.mem_range.2 hi), Finset.sdiff_singleton_eq_erase]
  abel

/-- A batch is rewritten. -/
theorem lying_setBatch {id : ℕ} (hid : id < m.nextBatch) (b : Option DropBatch) :
    (m.setBatch id b).lying + batchGoods (m.batch id) = m.lying + batchGoods b := by
  have hf : (fun j => batchGoods (Function.update m.batch id b j)) =
      Function.update (fun j => batchGoods (m.batch j)) id (batchGoods b) := by
    funext j
    rcases eq_or_ne j id with rfl | hj
    · rw [Function.update_self, Function.update_self]
    · rw [Function.update_of_ne hj, Function.update_of_ne hj]
  have hsum := sum_update_add hid (fun j => batchGoods (m.batch j)) (batchGoods b)
  rw [← hf] at hsum
  rw [lying, lying, Finset.sum_add_distrib, Finset.sum_add_distrib]
  change ∑ j ∈ Finset.range m.nextBatch, batchGoods (Function.update m.batch id b j) +
    ∑ j ∈ Finset.range m.nextBatch, droppingGoods (m.dropping j) + _ = _
  rw [add_right_comm, hsum, add_right_comm]

theorem lying_setDropping {id : ℕ} (hid : id < m.nextBatch) (b : Option DroppingBatch) :
    (m.setDropping id b).lying + droppingGoods (m.dropping id) = m.lying + droppingGoods b := by
  have hf : (fun j => droppingGoods (Function.update m.dropping id b j)) =
      Function.update (fun j => droppingGoods (m.dropping j)) id (droppingGoods b) := by
    funext j
    rcases eq_or_ne j id with rfl | hj
    · rw [Function.update_self, Function.update_self]
    · rw [Function.update_of_ne hj, Function.update_of_ne hj]
  have hsum := sum_update_add hid (fun j => droppingGoods (m.dropping j)) (droppingGoods b)
  rw [← hf] at hsum
  rw [lying, lying, Finset.sum_add_distrib, Finset.sum_add_distrib]
  change ∑ j ∈ Finset.range m.nextBatch, batchGoods (m.batch j) +
    ∑ j ∈ Finset.range m.nextBatch, droppingGoods (Function.update m.dropping id b j) + _ = _
  rw [add_assoc, hsum, add_assoc]

/-- A batch that holds the same is put into its place. -/
theorem lying_setBatch_same {id : ℕ} {b b' : DropBatch} (hid : m.batch id = some b)
    (h : goods b'.drops = goods b.drops) : (m.setBatch id (some b')).lying = m.lying := by
  refine lying_of_stock (Prod.ext (funext fun j => ?_) rfl)
  change batchGoods (Function.update m.batch id (some b') j) = batchGoods (m.batch j)
  rcases eq_or_ne j id with rfl | hj
  · rw [Function.update_self, hid]
    exact h
  · rw [Function.update_of_ne hj]

theorem lying_setDropping_same {id : ℕ} {b b' : DroppingBatch} (hid : m.dropping id = some b)
    (h : goods b'.drops = goods b.drops) : (m.setDropping id (some b')).lying = m.lying := by
  refine lying_of_stock (Prod.ext rfl (Prod.ext (funext fun j => ?_) rfl))
  change droppingGoods (Function.update m.dropping id (some b') j) = droppingGoods (m.dropping j)
  rcases eq_or_ne j id with rfl | hj
  · rw [Function.update_self, hid]
    exact h
  · rw [Function.update_of_ne hj]

/-! ## Lists of drops -/

section Lists

variable {α : Type*} {l : List α} {i : ℕ} {a b : α}

/-- What a list holds of which one place is written to. -/
theorem coe_set (ha : l[i]? = some a) (b : α) : (l.set i b : Multiset α) + {a} = l + {b} := by
  obtain ⟨hi, rfl⟩ := List.getElem?_eq_some_iff.1 ha
  have hset : (l.set i b : Multiset α) = b ::ₘ (l.eraseIdx i : Multiset α) :=
    Multiset.coe_eq_coe.2 (List.set_perm_cons_eraseIdx hi b)
  have hl : l[i] ::ₘ (l.eraseIdx i : Multiset α) = l :=
    Multiset.coe_eq_coe.2 (List.getElem_cons_eraseIdx_perm hi)
  rw [hset, ← hl, ← Multiset.singleton_add, ← Multiset.singleton_add]
  abel

theorem coe_dropLast (ha : l.getLast? = some a) : (l.dropLast : Multiset α) + {a} = l := by
  obtain ⟨l, rfl⟩ := List.getLast?_eq_some_iff.1 ha
  rw [List.dropLast_concat]
  exact Multiset.coe_eq_coe.2 (List.Perm.refl _)

/-- The last element takes the place of another one. -/
theorem coe_replaced (ha : l[i]? = some a) (hb : l.getLast? = some b) :
    ((l.set i b).dropLast : Multiset α) + {a} = l := by
  have hi := (List.getElem?_eq_some_iff.1 ha).1
  have hlast : (l.set i b).getLast? = some b := by
    rw [List.getLast?_eq_getElem?] at hb
    rw [List.getLast?_eq_getElem?, List.length_set, List.getElem?_set]
    split
    · rfl
    · exact hb
  have h := coe_set ha b
  rw [← coe_dropLast hlast, add_right_comm] at h
  exact add_right_cancel h

end Lists

theorem goods_set {l : List Drop} {i : ℕ} {e : Drop} (he : l[i]? = some e) (d : Drop) :
    goods (l.set i d) + {e.item} = goods l + {d.item} := by
  have h := congrArg (Multiset.map Drop.item) (coe_set he d)
  rw [Multiset.map_add, Multiset.map_add, Multiset.map_coe, Multiset.map_coe] at h
  exact h

theorem goods_dropLast {l : List Drop} {d : Drop} (hd : l.getLast? = some d) :
    goods l.dropLast + {d.item} = goods l := by
  have h := congrArg (Multiset.map Drop.item) (coe_dropLast hd)
  rw [Multiset.map_add, Multiset.map_coe, Multiset.map_coe] at h
  exact h

/-- The last drop takes the place of another one. -/
theorem goods_replaced {l : List Drop} {i : ℕ} {e d : Drop} (he : l[i]? = some e)
    (hd : l[l.length - 1]? = some d) : goods (l.set i d).dropLast + {e.item} = goods l := by
  have h := congrArg (Multiset.map Drop.item) (coe_replaced he (List.getLast?_eq_getElem? ▸ hd))
  rw [Multiset.map_add, Multiset.map_coe, Multiset.map_coe] at h
  exact h

/-- The last drop that has been dropped takes the place of another one, and the last one of all its
    place. -/
theorem goods_replaced_dropped {l : List Drop} {i last : ℕ} {e d f : Drop} (he : l[i]? = some e)
    (hd : l[last]? = some d) (hf : (l.set i d).getLast? = some f) :
    goods ((l.set i d).set last f).dropLast + {e.item} = goods l := by
  have hi := (List.getElem?_eq_some_iff.1 he).1
  have hlt := (List.getElem?_eq_some_iff.1 hd).1
  have hd' : (l.set i d)[last]? = some d := by
    rw [List.getElem?_set]
    split
    · rfl
    · exact hd
  have hlast : ((l.set i d).set last f).getLast? = some f := by
    rw [List.getLast?_eq_getElem?, List.length_set] at hf
    rw [List.getLast?_eq_getElem?, List.length_set, List.length_set, List.getElem?_set, List.length_set]
    split
    · rfl
    · exact hf
  have h := goods_set hd' f
  rw [← goods_dropLast hlast, add_right_comm] at h
  have h := add_right_cancel h
  have h' := goods_set he d
  rw [← h, add_right_comm] at h'
  exact add_right_cancel h'

/-! ## Taking away -/

theorem rewriteObjects_eq (f : MapObject → Exec MapObject) (drops : List Drop) :
    Exec.Ensures (m.rewriteObjects env f drops) fun m' => ∃ list, m' = { m with objectList := list } := by
  refine .foldlM ⟨_, rfl⟩ ?_
  rintro drop - m' ⟨list, rfl⟩
  exact .andThen fun object _ => .andThen fun object' _ => .pure ⟨_, rfl⟩

theorem moveBatch_batches (start i : ℕ) :
    Exec.Ensures (m.moveBatch env start i) fun m' => m'.batches = m.batches := by
  rw [moveBatch]
  dsimp only
  split
  · exact .pure rfl
  · refine .andThen fun batch _ => (rewriteObjects_eq _ batch.drops).mono ?_
    rintro _ ⟨list, rfl⟩
    rfl

theorem compact_batches (alloc : Bool) :
    Exec.Ensures (m.compact env alloc) fun m' => m'.batches = m.batches := by
  have hsize (m' : Map) (hm' : m'.batches = m.batches) : Exec.Ensures
      (return if alloc then { m' with dropBatchCapacity := m'.dropBatchCapacity / 2 } else m')
      fun m' => m'.batches = m.batches := by
    refine .pure ?_
    split
    · exact hm'
    · exact hm'
  rw [compact]
  split
  · refine .bind (P := fun m' => m'.batches = m.batches) ?_ fun m' hm' => hsize _ hm'
    exact .foldlM rfl fun i _ m' h => (moveBatch_batches _ i).mono fun m'' h' => h'.trans h
  · exact hsize m rfl

theorem skipHoles_batches (alloc : ℕ → Bool) (n : ℕ) :
    Exec.Ensures (m.skipHoles env alloc n) fun m' => m'.batches = m.batches := by
  induction n generalizing m with
  | zero => exact .pure rfl
  | succ n ih =>
    rw [skipHoles]
    split
    · have hrest (m' : Map) (hm' : m'.batches = m.batches) :
          Exec.Ensures (m'.skipHoles env alloc n) fun m' => m'.batches = m.batches :=
        ih.mono fun m'' h => h.trans hm'
      dsimp only
      split
      · exact (compact_batches (alloc n)).bind fun m' hm' => hrest m' hm'
      · exact hrest _ rfl
    · exact .pure rfl

theorem replaceDrop_eq (type : MapObjectType) (drops : List Drop) (i last : ℕ) :
    Exec.Ensures (m.replaceDrop env type drops i last) fun x =>
      (∃ d, drops[last]? = some d ∧ x.1 = drops.set i d) ∧ x.2.batches = m.batches := by
  refine .andThen fun _ _ => .bind (.deref fun d hd => hd) fun d hd => ?_
  dsimp only
  split
  · refine .andThen fun _ _ => ?_
    split
    · exact .pure ⟨⟨d, hd, rfl⟩, rfl⟩
    · exact .error
  · exact .pure ⟨⟨d, hd, rfl⟩, rfl⟩

/-- The drop at a place of a batch is taken away. -/
theorem removeDropped_lying (hlt : ∀ id b, m.batch id = some b → id < m.nextBatch) (alloc : ℕ → Bool)
    {object : MapObject} (ht : object.type = .drop) :
    Exec.Ensures (m.removeDropped env alloc object) fun m' =>
      (∃ d, m.dropAt object = some d ∧ m'.lying + {d.item} = m.lying) ∧ m'.stock.2 = m.stock.2 := by
  refine Exec.Ensures.andThen fun _ _ => .bind (.deref fun id hid => hid) fun id hid =>
    .bind (.deref fun b hb => hb) fun b hb => .andThen fun m₁ hm₁ => ?_
  obtain ⟨list, -, hm₁⟩ := Exec.bind_eq_ok.1 hm₁
  cases hm₁
  refine Exec.last_spec.bind fun last hlast => ?_
  obtain ⟨-, rfl⟩ := hlast
  refine .andThen fun x hx => ?_
  obtain ⟨⟨d, hd, hdrops⟩, hbatches⟩ := replaceDrop_eq _ _ _ _ _ hx
  have hstock := stock_of_batches hbatches
  obtain ⟨drops, m₂⟩ := x
  obtain rfl : drops = b.drops.set object.index2 d := hdrops
  have hi : object.index2 < b.drops.length := by
    obtain ⟨_, hwithin, -⟩ := Exec.bind_eq_ok.1 hx
    exact Exec.within_spec _ hwithin
  have hat : m.dropAt object = some b.drops[object.index2] := by
    rw [dropAt, if_pos ht, hid, Option.bind_some, hb, Option.bind_some, List.getElem?_eq_getElem hi]
  have hless := goods_replaced (List.getElem?_eq_getElem hi) hd
  have hnext : m₂.nextBatch = m.nextBatch := congrArg (fun s => s.2.2) hstock
  have hid₂ : id < m₂.nextBatch := hnext ▸ hlt id b hb
  have hgoods : batchGoods (m₂.batch id) = goods b.drops :=
    (congrFun (congrArg Prod.fst hstock) id).trans (congrArg batchGoods hb)
  have hset := lying_setBatch hid₂
    (some { b with drops := (b.drops.set object.index2 d).dropLast })
  rw [hgoods, lying_of_stock (m := m) hstock, ← hless, ← add_assoc, add_right_comm] at hset
  have hset := add_right_cancel hset
  have hskip (m' : Map) (hm' : m'.lying + {b.drops[object.index2].item} = m.lying)
      (hdroppings : m'.stock.2 = m.stock.2) :
      Exec.Ensures (m'.skipHoles env (fun n => alloc (n + 2)) (m'.dropBatchEnd - m'.dropBatchStart))
        fun m' => (∃ d, m.dropAt object = some d ∧ m'.lying + {d.item} = m.lying) ∧
          m'.stock.2 = m.stock.2 :=
    (skipHoles_batches _ _).mono fun m'' h => by
      have hstock := stock_of_batches h
      exact ⟨⟨_, hat, by rw [lying_of_stock hstock, hm']⟩, (congrArg Prod.snd hstock).trans hdroppings⟩
  have hstock₂ : m₂.stock.2 = m.stock.2 := congrArg Prod.snd hstock
  dsimp only
  split
  · rename_i hdrops
    refine (unlistBatch_things _ _ _).bind fun m₄ hthings => ?_
    refine (stopTimer_spec _).bind fun m₅ hm₅ => ?_
    obtain ⟨timers, rfl⟩ := hm₅
    have hstock₄ := stock_of_things hthings
    refine hskip _ ?_ ((congrArg Prod.snd hstock₄).trans hstock₂)
    have hnext₄ : m₄.nextBatch = m₂.nextBatch := congrArg (fun s => s.2.2) hstock₄
    have hid₄ : id < m₄.nextBatch := hnext₄ ▸ hid₂
    have hempty := lying_setBatch hid₄ none
    have hgoods₄ : batchGoods (m₄.batch id) = 0 := by
      refine (congrFun (congrArg Prod.fst hstock₄) id).trans ?_
      change batchGoods (Function.update m₂.batch id _ id) = 0
      rw [Function.update_self]
      exact congrArg goods hdrops
    rw [hgoods₄, add_zero] at hempty
    change (m₄.setBatch id none).lying + _ = _
    rw [hempty, lying_of_stock hstock₄]
    exact (congrArg (· + _) (add_zero _)).trans hset
  · exact hskip _ hset hstock₂

/-- The drop at a place of a dropping batch is taken away. -/
theorem removeDropping_lying (hlt : ∀ id b, m.dropping id = some b → id < m.nextBatch) (alloc : ℕ → Bool)
    {object : MapObject} (ht : object.type ≠ .drop) :
    Exec.Ensures (m.removeDropping env alloc object) fun m' =>
      ∃ d, m.dropAt object = some d ∧ m'.lying + {d.item} = m.lying := by
  refine Exec.Ensures.andThen fun _ _ => ?_
  dsimp only
  refine .bind (.deref fun b hb => hb) fun b hb => .andThen fun m₁ hm₁ => ?_
  obtain ⟨list, -, hm₁⟩ := Exec.bind_eq_ok.1 hm₁
  cases hm₁
  refine .andThen fun last _ => .andThen fun x hx => ?_
  obtain ⟨⟨d, hd, hdrops⟩, hbatches⟩ := replaceDrop_eq _ _ _ _ _ hx
  have hstock := stock_of_batches hbatches
  obtain ⟨drops, m₂⟩ := x
  obtain rfl : drops = b.drops.set object.index2 d := hdrops
  have hi : object.index2 < b.drops.length := by
    obtain ⟨_, hwithin, -⟩ := Exec.bind_eq_ok.1 hx
    exact Exec.within_spec _ hwithin
  refine .bind (.deref fun e he => he) fun e he => .pure ⟨b.drops[object.index2], ?_, ?_⟩
  · rw [dropAt, if_neg ht, hb, Option.bind_some, List.getElem?_eq_getElem hi]
  · have hless := goods_replaced_dropped (List.getElem?_eq_getElem hi) hd he
    have hnext : m₂.nextBatch = m.nextBatch := congrArg (fun s => s.2.2) hstock
    have hgoods : droppingGoods (m₂.dropping (m.droppingBatches object.index)) = goods b.drops :=
      (congrFun (congrArg (fun s => s.2.1) hstock) _).trans (congrArg droppingGoods hb)
    have hset := lying_setDropping (hnext ▸ hlt _ b hb)
      (some { b with drops := ((b.drops.set object.index2 d).set last e).dropLast, current := last })
    rw [hgoods, lying_of_stock (m := m) hstock, ← hless, ← add_assoc, add_right_comm] at hset
    exact add_right_cancel hset

/-- What is taken away is the drop that `map_get_drop` finds. -/
theorem mapRemoveDrop_lying (h : Placed env m) (alloc : ℕ → Bool) (oid : UInt32) :
    Exec.Ensures (mapRemoveDrop env alloc m oid) fun m' => ∃ object d,
      objectListGet env m.objectList oid = some object ∧ m.dropAt object = some d ∧
        m'.lying + {d.item} = m.lying ∧ (object.type = .drop → m'.stock.2 = m.stock.2) := by
  refine .bind (.deref fun object ho => ho) fun object ho => ?_
  split
  · rename_i ht
    exact (removeDropped_lying (fun _ _ => h.batch_lt) alloc ht).mono
      fun m' ⟨⟨d, hd, hm'⟩, hstock⟩ => ⟨object, d, ho, hd, hm', fun _ => hstock⟩
  · rename_i ht
    exact (removeDropping_lying (fun _ _ => h.dropping_lt) alloc ht).mono
      fun m' ⟨d, hd, hm'⟩ => ⟨object, d, ho, hd, hm', fun ht' => absurd ht' ht⟩

/-! ## Dropping -/

theorem growBatches_stock {alloc : Bool} (h : m.growBatches alloc = some m') : m'.stock = m.stock := by
  obtain ⟨_, rfl⟩ := growBatches_eq h
  rfl

theorem growDrops_stock (alloc : Bool) (r : PlayerRef) :
    Exec.Ensures (m.growDrops alloc r) fun grown => ∀ m', grown = some m' → m'.stock = m.stock := by
  refine (growDrops_spec alloc r).mono fun grown hgrown m' hm' => ?_
  obtain ⟨p, -, rfl⟩ := hgrown m' hm'
  rfl

/-- A batch that is not there yet. -/
theorem lying_newBatch {b : DropBatch} (hdropping : m.dropping m.nextBatch = none)
    (h : m'.stock = (fun id => batchGoods (Function.update m.batch m.nextBatch (some b) id),
      m.stock.2.1, m.nextBatch + 1)) : m'.lying = m.lying + goods b.drops := by
  have hgoods (id : ℕ) : batchGoods (m'.batch id) =
      batchGoods (Function.update m.batch m.nextBatch (some b) id) := congrFun (congrArg Prod.fst h) id
  have hdroppings (id : ℕ) : droppingGoods (m'.dropping id) = droppingGoods (m.dropping id) :=
    congrFun (congrArg (fun s => s.2.1) h) id
  have hnext : m'.nextBatch = m.nextBatch + 1 := congrArg (fun s => s.2.2) h
  rw [lying, lying, hnext, Finset.sum_range_succ, hgoods, hdroppings, Function.update_self, hdropping]
  refine congrArg₂ (· + ·) (Finset.sum_congr rfl fun id hid => ?_) (add_zero _)
  rw [hgoods, hdroppings, Function.update_of_ne (Finset.mem_range.1 hid).ne]

theorem addBatch_lying (h : Placed env m) (alloc : ℕ → Bool) (r : PlayerRef) (timer : MapTimer)
    (exclusive : Bool) (item : DropItem) :
    Exec.Ensures (m.addBatch env alloc r timer exclusive item) fun x => x.2.lying = m.lying + {item} := by
  rw [addBatch]
  split
  · exact .bind .error fun _ (h : False) => h.elim
  · refine (appendBatch_spec m.nextBatch).bind fun m₁ hm₁ => ?_
    rcases htimer : m₁.addTimer (alloc 1) timer with ⟨o, m₂⟩
    obtain ⟨timers, next, hm₂⟩ := addTimer_eq htimer
    refine .andThen fun x hx => .andThen fun p _ => .andThen fun p' _ => .pure ?_
    obtain ⟨y, -, hx⟩ := Exec.bind_eq_ok.1 hx
    obtain ⟨oid, -, hx⟩ := Exec.bind_eq_ok.1 hx
    cases hx
    subst hm₂ hm₁
    exact lying_newBatch (b := ⟨o, some r, p.dropCount, p.charId, exclusive, [⟨oid, item⟩]⟩)
      (h.fresh m.nextBatch le_rfl).2 rfl

/-- What is put onto the map lies there, or is lost where there is no memory. -/
theorem mapAddPlayerDrop_lying (h : Placed env m) (o : Outcomes) (r : PlayerRef) (item : DropItem) :
    Exec.Ensures (mapAddPlayerDrop env o m r item) fun m' =>
      m'.lying = m.lying ∨ m'.lying = m.lying + {item} := by
  rw [mapAddPlayerDrop]
  split
  · exact .pure (.inl rfl)
  · rename_i m₁ hgrow
    have hstock := growBatches_stock hgrow
    obtain ⟨capacity, rfl⟩ := growBatches_eq hgrow
    refine ((growDrops_dropsOnly (h.setCapacity capacity) (o.alloc 1) r).and
      (growDrops_stock (o.alloc 1) r)).bind fun grown hgrown => ?_
    rcases grown with - | m₂
    · exact .pure (.inl rfl)
    · obtain ⟨hplaced, hstock₂⟩ := hgrown
      refine (addBatch_lying (hplaced m₂ rfl).placed _ r _ false item).bind ?_
      rintro ⟨oid, m₃⟩ h₃
      refine .pure (.inr ?_)
      change m₃.lying = _ at h₃
      rw [h₃, lying_of_stock (hstock₂ m₂ rfl), lying_of_stock hstock]

/-! ## Timers -/

theorem onExclusiveDropTimeExpired_lying (alloc : Bool) :
    Exec.Ensures (onExclusiveDropTimeExpired alloc m) fun m' => m'.lying = m.lying := by
  refine .andThen fun id _ => ?_
  rcases htimer : m.addTimer alloc .dropTimeExpired with ⟨t, m₁⟩
  obtain ⟨timers, next, rfl⟩ := addTimer_eq htimer
  exact .bind (.deref fun b h => h) fun b hb => .pure (lying_setBatch_same hb rfl)

/-- The batch that expires is gone. -/
theorem onDropTimeExpired_lying (h : Placed env m) (alloc : ℕ → Bool) :
    Exec.Ensures (onDropTimeExpired env alloc m) fun m' => m'.lying ≤ m.lying := by
  refine .andThen fun _ _ => .andThen fun id _ => .bind (.deref fun b h => h) fun b hb => ?_
  refine .bind (P := fun m' => m'.stock = m.stock) (.foldlM rfl fun i _ m' hm' => ?_) fun m₁ hm₁ => ?_
  · refine .andThen fun _ _ => .andThen fun _ _ => ?_
    split
    · refine .andThen fun _ _ => .pure hm'
    · exact .error
  · refine (unlistBatch_things _ _ _).bind fun m₂ hthings => ?_
    refine (skipHoles_batches _ _).mono fun m₃ h₃ => ?_
    have hstock₂ := stock_of_things hthings
    have hnext₁ : m₁.nextBatch = m.nextBatch := congrArg (fun s => s.2.2) hm₁
    have hnext₂ : m₂.nextBatch = m₁.nextBatch := congrArg (fun s => s.2.2) hstock₂
    have hlt := h.batch_lt hb
    have hset := lying_setBatch (hnext₁ ▸ hlt) (some { b with drops := [] })
    have hempty := lying_setBatch (m := m₂) (hnext₂ ▸ hnext₁ ▸ hlt) none
    rw [lying_of_stock (stock_of_batches h₃)]
    change (m₂.setBatch id none).lying ≤ _
    rw [lying_of_stock hstock₂] at hempty
    calc (m₂.setBatch id none).lying ≤ _ := Multiset.le_add_right _ (batchGoods (m₂.batch id))
      _ = _ := hempty
      _ ≤ _ := le_of_eq (add_zero _)
      _ ≤ _ := Multiset.le_add_right _ (batchGoods (m₁.batch id))
      _ = _ := hset
      _ = _ := (add_zero _).trans (lying_of_stock hm₁)

/-- Nothing has been done to what lies on a map, nor to where it is. -/
structure SameDrops (m m' : Map) : Prop where
  batch : m'.batch = m.batch
  dropBatches : m'.dropBatches = m.dropBatches
  stock : m'.stock = m.stock

theorem mapKillMonster_drops (alloc : Bool) (oid : UInt32) : Exec.Ensures (mapKillMonster env alloc m oid)
    fun m' => SameDrops m m' ∧ m'.dropping = m.dropping := by
  refine .andThen fun object _ => ?_
  split
  · refine .andThen fun monster _ => (pushDead_spec _).bind fun m₁ hm₁ => .andThen fun last _ =>
      .andThen fun moved _ => (relist_spec _ _).bind fun m₂ hm₂ => .andThen fun _ _ => .andThen
        fun list _ => .pure ?_
    obtain ⟨-, rfl⟩ := hm₁
    obtain ⟨players, -, rfl⟩ := hm₂
    exact ⟨⟨rfl, rfl, rfl⟩, rfl⟩
  · refine .andThen fun m₁ hm₁ => .pure ?_
    obtain ⟨list, -, hm₁⟩ := Exec.bind_eq_ok.1 hm₁
    cases hm₁
    exact ⟨⟨rfl, rfl, rfl⟩, rfl⟩

theorem removeDropper_drops (alloc : Bool) (oid : UInt32) : Exec.Ensures (m.removeDropper env alloc oid)
    fun m' => SameDrops m m' ∧ m'.dropping = m.dropping := by
  refine .andThen fun object _ => ?_
  split
  · exact .pure ⟨⟨rfl, rfl, rfl⟩, rfl⟩
  · exact mapKillMonster_drops alloc oid

/-! ## The next drop -/

theorem removeDroppingBatch_drops (alloc : Bool) (index : ℕ) :
    Exec.Ensures (m.removeDroppingBatch env alloc index) (SameDrops m) := by
  refine .andThen fun last _ => .andThen fun _ _ => ?_
  dsimp only
  refine .bind (.deref fun moved h => h) fun moved hmoved => ?_
  refine (rewriteObjects_eq _ _).bind fun m₁ ⟨list, hm₁⟩ => .pure ?_
  subst hm₁
  have hsame : stock ({ m with
      droppingBatches := Function.update m.droppingBatches index (m.droppingBatches last) }.setDropping
        (m.droppingBatches last) (some { moved with index := index })) = m.stock := by
    refine Prod.ext rfl (Prod.ext (funext fun j => ?_) rfl)
    change droppingGoods (Function.update m.dropping _ _ j) = droppingGoods (m.dropping j)
    rcases eq_or_ne j (m.droppingBatches last) with rfl | hj
    · rw [Function.update_self, hmoved]
      rfl
    · rw [Function.update_of_ne hj]
  split
  · exact ⟨rfl, rfl, hsame⟩
  · exact ⟨rfl, rfl, hsame⟩

/-- What is in a batch that has become one. -/
structure Moved (m : Map) (id : ℕ) (batch : DroppingBatch) (m' : Map) : Prop where
  lying : m'.lying = m.lying + goods batch.drops
  dropping : droppingGoods (m'.dropping id) = goods batch.drops
  nextBatch : m'.nextBatch = m.nextBatch + 1
  cell : m'.dropBatches m.dropBatchEnd = some m.nextBatch
  batch : ∃ b, m'.batch m.nextBatch = some b ∧ b.drops = batch.drops

theorem promote_moved (h : Placed env m) (alloc : ℕ → Bool) {id : ℕ} {batch : DroppingBatch}
    (hid : m.dropping id = some batch) :
    Exec.Ensures (m.promote env alloc batch) (Moved m id batch) := by
  rw [promote]
  split
  · exact .bind .error fun _ (h : False) => h.elim
  · refine (appendBatch_spec m.nextBatch).bind fun m₁ hm₁ => ?_
    rcases htimer : m₁.addTimer (alloc 1) .exclusiveDropTimeExpired with ⟨t, m₂⟩
    obtain ⟨timers, next, hm₂⟩ := addTimer_eq htimer
    refine (unlistDropping_eq (alloc 2) batch).bind fun m₃ hm₃ => ?_
    obtain ⟨dropping, players, hm₃, hbare, -⟩ := hm₃
    refine (removeDroppingBatch_drops (alloc 3) batch.index).bind fun m₄ hm₄ => ?_
    refine (rewriteObjects_eq _ _).bind fun m₅ hm₅ => ?_
    obtain ⟨list, hm₅⟩ := hm₅
    have hbatch : m₅.batch = m.batch := by
      rw [hm₅]
      refine hm₄.batch.trans ?_
      rw [hm₃, hm₂, hm₁]
    have hcell : m₅.dropBatches m.dropBatchEnd = some m.nextBatch := by
      rw [hm₅]
      refine (congrFun hm₄.dropBatches _).trans ?_
      rw [hm₃, hm₂, hm₁]
      exact Function.update_self ..
    have hstock : m₅.stock = (m.stock.1, m.stock.2.1, m.nextBatch + 1) := by
      have hstock₅ : m₅.stock = m₄.stock := by
        rw [hm₅]
        rfl
      rw [hstock₅, hm₄.stock]
      have hgoods (id : ℕ) : droppingGoods (dropping id) = droppingGoods (m.dropping id) := by
        have hd (b : Option DroppingBatch) : droppingGoods b = droppingGoods (b.map DroppingBatch.bare) := by
          cases b <;> rfl
        rw [hd, congrFun hbare id, ← hd, hm₂, hm₁]
      rw [hm₃, hm₂, hm₁]
      exact Prod.ext rfl (Prod.ext (funext hgoods) rfl)
    have hdone (b : DropBatch) (hb : b.drops = batch.drops) :
        Moved m id batch (m₅.setBatch m.nextBatch (some b)) := by
      have hnew : (m₅.setBatch m.nextBatch (some b)).lying = m.lying + goods b.drops :=
        lying_newBatch (h.fresh m.nextBatch le_rfl).2 ?_
      · refine ⟨hb ▸ hnew, ?_, congrArg (fun s => s.2.2) hstock, hcell, b, Function.update_self .., hb⟩
        refine (congrFun (congrArg (fun s => s.2.1) hstock) id).trans ?_
        exact congrArg droppingGoods hid
      · have hrest : (m₅.setBatch m.nextBatch (some b)).stock.2 = m₅.stock.2 := rfl
        refine Prod.ext (funext fun j => ?_) (hrest.trans (congrArg (fun s => s.2) hstock :))
        change batchGoods (Function.update m₅.batch _ _ j) = _
        rw [hbatch]
    dsimp only
    split
    · exact .pure (hdone _ rfl)
    · refine .andThen fun p _ => .andThen fun p' _ => .pure ?_
      obtain ⟨hl, hd, hn, hc, hb⟩ := hdone ⟨t, batch.owner, p.dropCount, batch.ownerId, true, batch.drops⟩ rfl
      exact ⟨hl, hd, hn, hc, hb⟩

theorem hasRoom_eq (o : Outcomes) (m : Map) (r : PlayerRef) : m.hasRoom o r =
    if m.dropBatchEnd = m.dropBatchCapacity ∧ o.alloc 2 = false then .ok false
    else m.getPlayer r >>= fun p => .ok (decide (p.dropCount = p.dropCapacity → o.alloc 3 = true)) := by
  have hgrow (capacity : ℕ) : (do
      let grown ← growDrops (o.alloc 3) { m with dropBatchCapacity := capacity } r
      return grown.isSome) =
      m.getPlayer r >>= fun p => .ok (decide (p.dropCount = p.dropCapacity → o.alloc 3 = true)) := by
    have hget : getPlayer { m with dropBatchCapacity := capacity } r = m.getPlayer r := rfl
    rw [growDrops, hget]
    cases m.getPlayer r with
    | error e => rfl
    | ok p =>
      by_cases hp : p.dropCount = p.dropCapacity <;> cases o.alloc 3 <;>
        simp only [Exec.ok_bind, hp, if_true, if_false] <;> rfl
  rw [hasRoom, growBatches]
  by_cases hend : m.dropBatchEnd = m.dropBatchCapacity
  · cases ha : o.alloc 2 with
    | false => rw [if_pos hend, if_neg Bool.false_ne_true, if_pos ⟨hend, rfl⟩]; rfl
    | true =>
      rw [if_pos hend, if_pos rfl, if_neg fun h => Bool.noConfusion h.2]
      exact hgrow _
  · rw [if_neg hend, if_neg fun h => hend h.1]
    exact hgrow _

/-- The owner of a batch picks up a drop of the map, if at all. -/
theorem pickUpOwned_lying (h : Placed env m) (picksUp : Bool) (alloc : ℕ → Bool)
    (owner : Option PlayerRef) {oid : UInt32} {d : Drop}
    (hd : ∀ object, objectListGet env m.objectList oid = some object → m.dropAt object = some d) :
    Exec.Ensures (m.pickUpOwned env picksUp alloc owner oid) fun m' =>
      (picksUp = true → owner ≠ none → m'.lying + {d.item} = m.lying) ∧ m'.lying ≤ m.lying ∧
        ((∀ object, objectListGet env m.objectList oid = some object → object.type = .drop) →
          m'.stock.2 = m.stock.2) := by
  rcases owner with - | r
  · exact .pure ⟨fun _ h => absurd rfl h, le_rfl, fun _ => rfl⟩
  · refine .andThen fun _ _ => ?_
    split
    · refine (mapRemoveDrop_lying h alloc oid).mono ?_
      rintro m' ⟨object, d', hobject, hd', hm', hstock⟩
      obtain rfl := Option.some.inj ((hd object hobject).symm.trans hd')
      exact ⟨fun _ _ => hm', hm' ▸ Multiset.le_add_right _ _, fun ht => hstock (ht object hobject)⟩
    · rename_i hpicks
      exact .pure ⟨fun h => absurd h hpicks, le_rfl, fun _ => rfl⟩

/-- Everything has been dropped: the drops are now those of a batch, but for the one that the owner
    picks up. -/
theorem finishDropping_room_lying (h : Settled env m) (o : Outcomes) {id : ℕ} {batch : DroppingBatch}
    (hid : m.dropping id = some batch) (hcurrent : batch.drops.length ≤ batch.current) {j : ℕ}
    {d : Drop} (hd : batch.drops[j]? = some d) : Exec.Ensures (do
      let m ← m.promote env (fun n => o.alloc (n + 4)) batch
      let m ← m.removeDropper env (o.alloc 8) batch.dropperOid
      let m ← m.pickUpOwned env o.picksUp (fun n => o.alloc (n + 9)) batch.owner d.oid
      return m.setDropping id none) fun m' =>
        (o.picksUp = true → batch.owner ≠ none → m'.lying + {d.item} = m.lying) ∧ m'.lying ≤ m.lying := by
  refine ((promote_spec h.placed h.listed _ hid hcurrent).and
    (promote_moved h.placed _ hid)).bind fun m₁ hm₁ => ?_
  obtain ⟨h₁, hmoved⟩ := hm₁
  refine ((removeDropper_promoted h hid h₁ _).and (removeDropper_drops _ _)).bind fun m₂ hm₂ => ?_
  obtain ⟨⟨h₂, hplaces⟩, hsame, -⟩ := hm₂
  have hplace := hplaces j d hd
  have hobject (object : MapObject) (ho : objectListGet env m₂.objectList d.oid = some object) :
      object.place = ⟨.drop, m.dropBatchEnd, j⟩ := by
    rw [placeOf, ho] at hplace
    exact Option.some.inj hplace
  have hat (object : MapObject) (ho : objectListGet env m₂.objectList d.oid = some object) :
      m₂.dropAt object = some d := by
    have hp := hobject object ho
    have ht : object.type = .drop := congrArg MapPlace.type hp
    have hi : object.index = m.dropBatchEnd := congrArg MapPlace.index hp
    have hj : object.index2 = j := congrArg MapPlace.index2 hp
    obtain ⟨b, hb, hdrops⟩ := hmoved.batch
    rw [dropAt, if_pos ht, hsame.dropBatches, hsame.batch, hi, hj, hmoved.cell, Option.bind_some, hb,
      Option.bind_some, hdrops, hd]
  refine (pickUpOwned_lying h₂.placed _ _ _ hat).bind fun m₃ h₃ => .pure ?_
  obtain ⟨hpicks, hle, hstock⟩ := h₃
  have hstock₃ := hstock fun object ho => congrArg MapPlace.type (hobject object ho)
  have hnext₃ : m₃.nextBatch = m.nextBatch + 1 := by
    refine (congrArg Prod.snd hstock₃).trans ?_
    exact (congrArg (fun s => s.2.2) hsame.stock).trans hmoved.nextBatch
  have hgoods : droppingGoods (m₃.dropping id) = goods batch.drops := by
    refine (congrFun (congrArg Prod.fst hstock₃) id).trans ?_
    exact (congrFun (congrArg (fun s => s.2.1) hsame.stock) id).trans hmoved.dropping
  have hlt : id < m₃.nextBatch := hnext₃ ▸ Nat.lt_succ_of_lt (h.placed.dropping_lt hid)
  have hset := lying_setDropping hlt none
  rw [hgoods] at hset
  have hset : (m₃.setDropping id none).lying + goods batch.drops = m₃.lying :=
    hset.trans (add_zero _)
  rw [lying_of_stock hsame.stock, hmoved.lying, ← hset] at hpicks hle
  refine ⟨fun hp ho => ?_, le_of_add_le_add_right hle⟩
  have hp := hpicks hp ho
  rw [add_right_comm] at hp
  exact add_right_cancel hp

theorem finishDropping_lying (h : Settled env m) (o : Outcomes) {id : ℕ} {batch : DroppingBatch}
    (hid : m.dropping id = some batch) (hcurrent : batch.drops.length ≤ batch.current) {j : ℕ}
    {d : Drop} (hd : batch.drops[j]? = some d) :
    Exec.Ensures (m.finishDropping env o id batch d.oid) fun m' => m'.lying ≤ m.lying ∧
      (o.picksUp = true → ∀ r, batch.owner = some r → m.hasRoom o r = .ok true →
        m'.lying + {d.item} = m.lying) := by
  rw [finishDropping]
  split
  · rename_i hgrow
    refine .pure ⟨le_rfl, fun _ r _ hroom => ?_⟩
    rw [hasRoom, hgrow] at hroom
    cases hroom
  · rename_i m₁ hgrow
    obtain ⟨capacity, hcapacity⟩ := growBatches_eq hgrow
    have h₁ : Settled env m₁ := by
      rw [hcapacity]
      exact h.of_dropsOnly ⟨h.placed.setCapacity capacity, rfl, rfl⟩
    have hid₁ : m₁.dropping id = some batch := by rw [hcapacity, hid]
    have hlying₁ : m₁.lying = m.lying := lying_of_stock (growBatches_stock hgrow)
    split
    · rename_i howner
      refine (finishDropping_room_lying h₁ o hid₁ hcurrent hd).mono fun m' hm' => ?_
      refine ⟨hlying₁ ▸ hm'.2, fun _ r hr => ?_⟩
      cases howner.symm.trans hr
    · rename_i r howner
      refine .andThen fun grown hgrown => ?_
      rcases grown with - | m₂
      · refine .pure ⟨hlying₁.le, fun _ r' hr' hroom => ?_⟩
        cases howner.symm.trans hr'
        rw [hasRoom, hgrow] at hroom
        dsimp only at hroom
        rw [hgrown] at hroom
        cases hroom
      · have hstock₂ := growDrops_stock (o.alloc 3) r _ hgrown m₂ rfl
        have h₂ := h₁.of_dropsOnly (growDrops_dropsOnly h₁.placed (o.alloc 3) r _ hgrown m₂ rfl)
        obtain ⟨p, -, hm₂⟩ := growDrops_spec (o.alloc 3) r _ hgrown m₂ rfl
        have hid₂ : m₂.dropping id = some batch := by
          rw [hm₂]
          exact hid₁
        refine (finishDropping_room_lying h₂ o hid₂ hcurrent hd).mono fun m' hm' => ?_
        rw [lying_of_stock hstock₂, hlying₁] at hm'
        exact ⟨hm'.2, fun hp r' hr' _ => hm'.1 hp (by rw [hr']; exact Option.some_ne_none _)⟩

/-- The next drop of a batch has been given an object. -/
theorem Settled.nextDropped (h : Settled env m) {id : ℕ} {batch : DroppingBatch} {drop : Drop}
    {oid : UInt32} {list : ObjectList} (hbatch : m.dropping id = some batch)
    (hdrop : batch.drops[batch.current]? = some drop) (hnone : m.placeOf env oid = none)
    (htracked : Tracked env { m with objectList := list })
    (hplace : placeOf { m with objectList := list } env =
      Function.update (m.placeOf env) oid (some ⟨.dropping, batch.index, batch.current⟩)) :
    Settled env ({ m with objectList := list }.setDropping id (some { batch with
      drops := batch.drops.set batch.current { drop with oid := oid }
      current := batch.current + 1 })) := by
  have hcell : m.droppingCell batch.index = some id := h.listed id batch hbatch nofun
  have hget := oidAt_next hdrop oid
  obtain ⟨batch', hbatch'⟩ : ∃ b : DroppingBatch, b = { batch with
    drops := batch.drops.set batch.current { drop with oid := oid }
    current := batch.current + 1 } := ⟨_, rfl⟩
  rw [← hbatch'] at hget
  have hset : Settled env ({ m with objectList := list }.setDropping id (some batch')) := by
    refine h.setDropping hbatch (by rw [hbatch']) (by rw [hbatch']) ?_
    refine h.placed.setDropping hbatch (by rw [hbatch']) htracked ?_
    have hget' : batch'.oidAt = Function.update (Function.update batch.oidAt batch.current (some oid))
        batch.current (some oid) := by
      rw [hget, Function.update_idem]
    rw [slot_setDropping h.placed hcell hbatch hget', Function.update_idem]
    refine hplace ▸ h.placed.linked.put hnone ?_
    change Option.bind (Option.bind (m.droppingCell batch.index) m.dropping) _ = none
    rw [hcell, Option.bind_some, hbatch, Option.bind_some]
    exact if_neg (lt_irrefl _)
  rwa [hbatch'] at hset

/-- A drop is dropped, and its owner picks it up, or nobody does. -/
theorem onNextDrop_lying (h : Settled env m) (o : Outcomes) {id : ℕ} {batch : DroppingBatch} {drop : Drop}
    (hbatch : m.dropping id = some batch) (hdrop : batch.drops[batch.current]? = some drop) :
    Exec.Ensures (onNextDrop env o m id) fun m' => m'.lying ≤ m.lying ∧
      (o.picksUp = true → ∀ r, batch.owner = some r → m.pickUpReached o batch r = .ok true →
        m'.lying + {drop.item} = m.lying) := by
  refine .bind (.deref fun b h => h) fun b hb => .bind (.deref fun d h => h) fun d hd => ?_
  obtain rfl := Option.some.inj (hbatch.symm.trans hb)
  obtain rfl := Option.some.inj (hdrop.symm.trans hd)
  refine (allocateObject_spec h.placed.tracks (o.alloc 0) (o.alloc 1) .dropping _ _).bind ?_
  rintro ⟨oid, m₁⟩ ⟨hnone, -, list, rfl, htracked, hplace⟩
  have hcell : m.droppingCell batch.index = some id := h.listed id batch hbatch (by simp)
  have hlt := (List.getElem?_eq_some_iff.1 hdrop).1
  have hnext : (batch.drops.set batch.current { drop with oid := oid })[batch.current]? =
      some { drop with oid := oid } := List.getElem?_set_self hlt
  have hset := h.nextDropped hbatch hdrop hnone htracked hplace
  have hsame : lying ({ m with objectList := list }.setDropping id (some { batch with
      drops := batch.drops.set batch.current { drop with oid := oid }, current := batch.current + 1 })) =
      lying { m with objectList := list } :=
    lying_setDropping_same hbatch (add_right_cancel (goods_set hdrop { drop with oid := oid }))
  have hlying : lying { m with objectList := list } = m.lying := rfl
  rw [hlying] at hsame
  have hoid : placeOf { m with objectList := list } env oid =
      some ⟨.dropping, batch.index, batch.current⟩ := by
    rw [hplace, Function.update_self]
  dsimp only
  split
  · rename_i hmore
    have hat (object : MapObject) (ho : objectListGet env list oid = some object) :
        dropAt ({ m with objectList := list }.setDropping id (some { batch with
          drops := batch.drops.set batch.current { drop with oid := oid }
          current := batch.current + 1 })) object = some { drop with oid := oid } := by
      rw [placeOf, ho] at hoid
      have hp : object.place = ⟨.dropping, batch.index, batch.current⟩ := Option.some.inj hoid
      have ht : object.type = .dropping := congrArg MapPlace.type hp
      have hi : object.index = batch.index := congrArg MapPlace.index hp
      have hj : object.index2 = batch.current := congrArg MapPlace.index2 hp
      rw [dropAt, if_neg (by rw [ht]; simp), hi, hj]
      change (Function.update m.dropping id _ (m.droppingBatches batch.index)).bind _ = _
      rw [(firsts_eq_some.1 hcell).2, Function.update_self]
      exact hnext
    refine (pickUpOwned_lying hset.placed _ _ _ hat).bind fun m₂ hm₂ => ?_
    rcases htimer : m₂.addTimer (o.alloc 2) (.nextDrop id) with ⟨t, m₃⟩
    obtain ⟨timers, next, rfl⟩ := addTimer_eq htimer
    refine .bind (.deref fun b h => h) fun b hb => .pure ?_
    have hlast : lying (setDropping { m₂ with timers := timers, nextTimer := next } id
        (some { b with timer := t })) = m₂.lying := lying_setDropping_same hb rfl
    rw [hlast, ← hsame]
    exact ⟨hm₂.2.1, fun hp r hr _ => hm₂.1 hp (by rw [hr]; exact Option.some_ne_none _)⟩
  · rename_i hlast
    refine (finishDropping_lying (d := { drop with oid := oid }) hset o (Function.update_self ..)
      (not_lt.1 hlast) hnext).mono fun m' hm' => ?_
    rw [hsame] at hm'
    refine ⟨hm'.1, fun hp r hr hreach => hm'.2 hp r hr ?_⟩
    rw [List.length_set] at hlast
    rw [pickUpReached, if_neg hlast, hasRoom_eq] at hreach
    rw [hasRoom_eq]
    exact hreach

end Map

end Syrup
