import Syrup.Lib.Run
import Syrup.Map.ControllerHeap

/-!
# What the heap of controllers keeps

The nodes of a heap are its `content`: a number of monsters and a controller for each. In a heap that
is kept (`HeapKept`) each node knows its place, and the nodes are ordered by their numbers of monsters.
The operations return on such heaps, and change the content as their names say; the node at the top
is one with the least number.
-/

namespace Syrup

open BinaryHeap

namespace ControllerHeap

/-- What the nodes say, but for their places. -/
def content (heap : ControllerHeap) (id : ℕ) : Option (ℕ × PlayerRef) :=
  (heap.node id).map fun node => (node.controlleeCount, node.controller)

/-- The number of monsters of the node at a place. -/
def key (heap : ControllerHeap) (i : ℕ) : ℕ := ((heap.content (heap.controllers i)).map Prod.fst).getD 0

/-- The nodes are those of the heap, and know their places; but for a node that has been taken out and
    is yet to be freed. -/
structure Placed (heap : ControllerHeap) (gone : Option ℕ) : Prop where
  capacity_pos : 0 < heap.capacity
  count_le : heap.count ≤ heap.capacity
  at_place : ∀ i < heap.count, gone ≠ some (heap.controllers i) ∧
    ∃ node, heap.node (heap.controllers i) = some node ∧ node.index = i
  place : ∀ id node, gone ≠ some id → heap.node id = some node →
    node.index < heap.count ∧ heap.controllers node.index = id
  next : ∀ id ≥ heap.nextNode, heap.node id = none

end ControllerHeap

/-- The invariant of a heap. -/
structure HeapKept (heap : ControllerHeap) (gone : Option ℕ := none) : Prop
    extends heap.Placed gone where
  ordered : Ordered heap.key heap.count

namespace ControllerHeap

theorem setIndex_eq {heap : ControllerHeap} {i : ℕ} {node : ControllerHeapNode}
    (hi : i < heap.capacity) (hnode : heap.node (heap.controllers i) = some node) :
    heap.setIndex i = .ok { heap with
      node := Function.update heap.node (heap.controllers i) (some { node with index := i }) } := by
  rw [setIndex, nodeAt, if_pos hi, hnode]
  rfl

namespace Placed

variable {heap : ControllerHeap} {gone : Option ℕ}

theorem nodeAt (h : heap.Placed gone) {i : ℕ} (hi : i < heap.count) :
    ∃ node, heap.nodeAt i = .ok node ∧ heap.node (heap.controllers i) = some node ∧
      node.index = i ∧ node.controlleeCount = heap.key i := by
  obtain ⟨-, node, hnode, hindex⟩ := h.at_place i hi
  refine ⟨node, ?_, hnode, hindex, ?_⟩
  · rw [ControllerHeap.nodeAt, if_pos (hi.trans_le h.count_le), hnode]
    rfl
  · rw [key, content, hnode]
    rfl

theorem keyAt (h : heap.Placed gone) {i : ℕ} (hi : i < heap.count) : heap.keyAt i = .ok (heap.key i) := by
  obtain ⟨node, hnode, -, -, hkey⟩ := h.nodeAt hi
  rw [ControllerHeap.keyAt, hnode, ← hkey]
  rfl

/-- Different places have different nodes. -/
theorem controllers_inj (h : heap.Placed gone) {i j : ℕ} (hi : i < heap.count) (hj : j < heap.count)
    (he : heap.controllers i = heap.controllers j) : i = j := by
  obtain ⟨-, node, hnode, hindex⟩ := h.at_place i hi
  obtain ⟨-, node', hnode', hindex'⟩ := h.at_place j hj
  rw [he, hnode'] at hnode
  cases hnode
  exact hindex.symm.trans hindex'

/-- A swap changes the places only. -/
theorem swap (h : heap.Placed gone) {i j : ℕ} (hi : i < heap.count) (hj : j < heap.count) (hij : i ≠ j) :
    ∃ heap', heap.swap i j = .ok heap' ∧ heap'.Placed gone ∧ heap'.content = heap.content ∧
      heap'.key = heap.key ∘ Equiv.swap i j ∧ heap'.count = heap.count := by
  obtain ⟨hgi, a, ha, hai⟩ := h.at_place i hi
  obtain ⟨hgj, b, hb, hbj⟩ := h.at_place j hj
  have hne : heap.controllers i ≠ heap.controllers j := fun he => hij (h.controllers_inj hi hj he)
  have hici := hi.trans_le h.count_le
  have hjcj := hj.trans_le h.count_le
  let heap' : ControllerHeap :=
    { heap with
      controllers := heap.controllers ∘ Equiv.swap i j
      node := Function.update (Function.update heap.node (heap.controllers j) (some { b with index := i }))
        (heap.controllers i) (some { a with index := j }) }
  have hcontrollers : Function.update (Function.update heap.controllers i (heap.controllers j)) j
      (heap.controllers i) = heap.controllers ∘ Equiv.swap i j := by
    funext p
    rw [Function.comp_apply]
    rcases eq_or_ne p j with rfl | hpj
    · rw [Function.update_self, Equiv.swap_apply_right]
    · rw [Function.update_of_ne hpj]
      rcases eq_or_ne p i with rfl | hpi
      · rw [Function.update_self, Equiv.swap_apply_left]
      · rw [Function.update_of_ne hpi, Equiv.swap_apply_of_ne_of_ne hpi hpj]
  have hnode (id : ℕ) : heap'.node id = if id = heap.controllers i then some { a with index := j }
      else if id = heap.controllers j then some { b with index := i } else heap.node id := by
    change Function.update (Function.update heap.node _ _) _ _ id = _
    rw [Function.update_apply, Function.update_apply]
  have hcontent : heap'.content = heap.content := by
    funext id
    rw [content, content, hnode]
    split
    · rename_i he
      rw [he, ha]
      rfl
    · split
      · rename_i he
        rw [he, hb]
        rfl
      · rfl
  refine ⟨heap', ?_, ⟨h.capacity_pos, h.count_le, fun p hp => ?_, fun id node hg hid => ?_,
    fun id hid => ?_⟩, hcontent,
    ?_, rfl⟩
  · rw [ControllerHeap.swap]
    have hfirst : (heap.setController i (heap.controllers j)).node
        ((heap.setController i (heap.controllers j)).controllers i) = some b := by
      change heap.node (Function.update heap.controllers i (heap.controllers j) i) = some b
      rw [Function.update_self, hb]
    have hat : (heap.setController i (heap.controllers j)).controllers i = heap.controllers j :=
      Function.update_self ..
    rw [setIndex_eq (show i < (heap.setController i (heap.controllers j)).capacity from hici) hfirst,
      hat]
    refine Exec.bind_eq_ok.2 ⟨_, rfl, Eq.trans (@setIndex_eq _ j a ?_ ?_) ?_⟩
    · exact hjcj
    · change Function.update heap.node (heap.controllers j) _
        (Function.update (Function.update heap.controllers i (heap.controllers j)) j _ j) = some a
      rw [Function.update_self, Function.update_of_ne hne, ha]
    · simp only [ControllerHeap.setController, hcontrollers, Function.comp_apply,
        Equiv.swap_apply_right, heap']
  · change gone ≠ some (heap.controllers (Equiv.swap i j p)) ∧
      ∃ node, heap'.node (heap.controllers (Equiv.swap i j p)) = some node ∧ node.index = p
    rcases eq_or_ne p i with rfl | hpi
    · rw [Equiv.swap_apply_left, hnode, if_neg hne.symm, if_pos rfl]
      exact ⟨hgj, _, rfl, rfl⟩
    rcases eq_or_ne p j with rfl | hpj
    · rw [Equiv.swap_apply_right, hnode, if_pos rfl]
      exact ⟨hgi, _, rfl, rfl⟩
    · rw [Equiv.swap_apply_of_ne_of_ne hpi hpj, hnode,
        if_neg fun he => hpi (h.controllers_inj hp hi he),
        if_neg fun he => hpj (h.controllers_inj hp hj he)]
      exact h.at_place p hp
  · change node.index < heap.count ∧ heap.controllers (Equiv.swap i j node.index) = id
    rw [hnode] at hid
    split at hid
    · rename_i he
      cases hid
      exact ⟨hj, by rw [Equiv.swap_apply_right, he]⟩
    · split at hid
      · rename_i he
        cases hid
        exact ⟨hi, by rw [Equiv.swap_apply_left, he]⟩
      · rename_i hidi hidj
        obtain ⟨hlt, hplace⟩ := h.place id node hg hid
        have hpi : node.index ≠ i := fun he => hidi (by rw [← hplace, he])
        have hpj : node.index ≠ j := fun he => hidj (by rw [← hplace, he])
        exact ⟨hlt, by rw [Equiv.swap_apply_of_ne_of_ne hpi hpj, hplace]⟩
  · have hnone := h.next id hid
    have hida : id ≠ heap.controllers i := by
      rintro rfl
      cases ha.symm.trans hnone
    have hidb : id ≠ heap.controllers j := by
      rintro rfl
      cases hb.symm.trans hnone
    rw [hnode, if_neg hida, if_neg hidb]
    exact hnone
  · funext p
    rw [key, hcontent]
    rfl

end Placed

/-- What sifting leads to: the same nodes, in order. -/
structure Sifted (gone : Option ℕ) (heap heap' : ControllerHeap) : Prop where
  kept : HeapKept heap' gone
  content : heap'.content = heap.content
  count : heap'.count = heap.count

variable {gone : Option ℕ}

theorem Sifted.trans {heap₁ heap₂ heap₃ : ControllerHeap} (h : Sifted gone heap₂ heap₃)
    (hcontent : heap₂.content = heap₁.content) (hcount : heap₂.count = heap₁.count) :
    Sifted gone heap₁ heap₃ :=
  ⟨h.kept, h.content.trans hcontent, h.count.trans hcount⟩

theorem siftDown_spec {fuel : ℕ} {heap : ControllerHeap} {i : ℕ} (h : heap.Placed gone)
    (hdown : DownAt heap.key heap.count i) (hfuel : heap.count < fuel + i) (hpos : 0 < fuel) :
    ∃ heap', heap.siftDown fuel i = .ok heap' ∧ Sifted gone heap heap' := by
  induction fuel generalizing heap i with
  | zero => exact absurd hpos (lt_irrefl _)
  | succ fuel ih =>
    rw [siftDown]
    -- The children are those that the loop looks at.
    have hchild {j : ℕ} (hj : 0 < j) (hp : parent j = i) : j = i * 2 + 1 ∨ j = i * 2 + 2 :=
      (parent_eq_iff hj).1 hp
    have hstop (hle : ∀ j, 0 < j → j < heap.count → parent j = i → heap.key i ≤ heap.key j) :
        Sifted gone heap heap := ⟨⟨h, hdown.ordered hle⟩, rfl, rfl⟩
    -- A swap with the lesser child, after which the loop goes on there.
    have hgo {c : ℕ} (hc : c = i * 2 + 1 ∨ c = i * 2 + 2) (hcn : c < heap.count)
        (hle : heap.key c ≤ heap.key i)
        (hleast : ∀ j, 0 < j → j < heap.count → parent j = i → heap.key c ≤ heap.key j) :
        ∃ heap', (do siftDown fuel (← heap.swap i c) c) = .ok heap' ∧ Sifted gone heap heap' := by
      have hcpos : 0 < c := by omega
      obtain ⟨heap₁, hswap, hplaced, hcontent, hkey, hcount⟩ :=
        h.swap (show i < heap.count by omega) hcn (by omega)
      have hdown₁ : DownAt heap₁.key heap₁.count c := by
        rw [hkey, hcount]
        exact hdown.swap hcpos hcn ((parent_eq_iff hcpos).2 hc) hle hleast
      obtain ⟨heap₂, hsift, hsifted⟩ := ih hplaced hdown₁ (by omega) (by omega)
      exact ⟨heap₂, Exec.bind_eq_ok.2 ⟨heap₁, hswap, hsift⟩, hsifted.trans hcontent hcount⟩
    split
    · rename_i hleft
      rw [h.keyAt (show i < heap.count by omega), h.keyAt hleft, Exec.ok_bind, Exec.ok_bind]
      split
      · rename_i hone
        have honly {j : ℕ} (hj : 0 < j) (hjn : j < heap.count) (hp : parent j = i) :
            j = i * 2 + 1 := by
          have := hchild hj hp
          omega
        split
        · rename_i hgt
          obtain ⟨heap₁, hswap, hplaced, hcontent, hkey, hcount⟩ :=
            h.swap (show i < heap.count by omega) hleft (by omega)
          refine ⟨heap₁, hswap, ⟨hplaced, ?_⟩, hcontent, hcount⟩
          have hdown₁ : DownAt heap₁.key heap₁.count (i * 2 + 1) := by
            rw [hkey, hcount]
            exact hdown.swap (by omega) hleft ((parent_eq_iff (by omega)).2 (.inl rfl)) hgt.le
              fun j hj hjn hp => by rw [honly hj hjn hp]
          refine hdown₁.ordered fun j hj hjn hp => ?_
          have := (parent_eq_iff hj).1 hp
          omega
        · rename_i hle
          exact ⟨heap, rfl, hstop fun j hj hjn hp => by rw [honly hj hjn hp]; omega⟩
      · rename_i htwo
        have hright : i * 2 + 2 < heap.count := by omega
        rw [h.keyAt hright, Exec.ok_bind]
        split
        · rename_i hle
          exact ⟨heap, rfl, hstop fun j hj _ hp => by rcases hchild hj hp with rfl | rfl <;> omega⟩
        · split
          · split
            · exact hgo (.inl rfl) hleft (by omega) fun j hj _ hp => by
                rcases hchild hj hp with rfl | rfl <;> omega
            · exact hgo (.inr rfl) hright (by omega) fun j hj _ hp => by
                rcases hchild hj hp with rfl | rfl <;> omega
          · split
            · exact hgo (.inl rfl) hleft (by omega) fun j hj _ hp => by
                rcases hchild hj hp with rfl | rfl <;> omega
            · exact hgo (.inr rfl) hright (by omega) fun j hj _ hp => by
                rcases hchild hj hp with rfl | rfl <;> omega
    · rename_i hnone
      refine ⟨heap, rfl, hstop fun j hj hjn hp => ?_⟩
      have := hchild hj hp
      omega

theorem siftUp_spec {fuel : ℕ} {heap : ControllerHeap} {i : ℕ} (h : heap.Placed gone)
    (hup : UpAt heap.key heap.count i) (hi : i < heap.count) (hfuel : i < fuel) :
    ∃ heap', heap.siftUp fuel i = .ok heap' ∧ Sifted gone heap heap' := by
  induction fuel generalizing heap i with
  | zero => exact absurd hfuel (Nat.not_lt_zero _)
  | succ fuel ih =>
    rw [siftUp]
    split
    · rename_i hpos
      have hlt : (i - 1) / 2 < i := parent_lt hpos
      rw [h.keyAt (hlt.trans hi), h.keyAt hi, Exec.ok_bind, Exec.ok_bind]
      split
      · rename_i hgt
        obtain ⟨heap₁, hswap, hplaced, hcontent, hkey, hcount⟩ := h.swap (hlt.trans hi) hi hlt.ne
        have hup₁ : UpAt heap₁.key heap₁.count ((i - 1) / 2) := by
          rw [hkey, hcount]
          exact hup.swap hpos hi (le_of_lt hgt)
        obtain ⟨heap₂, hsift, hsifted⟩ := ih hplaced hup₁ (by rw [hcount]; exact hlt.trans hi) (by omega)
        exact ⟨heap₂, Exec.bind_eq_ok.2 ⟨heap₁, hswap, hsift⟩, hsifted.trans hcontent hcount⟩
      · rename_i hle
        exact ⟨heap, rfl, ⟨h, hup.ordered fun _ _ => not_lt.1 hle⟩, rfl, rfl⟩
    · rename_i hzero
      exact ⟨heap, rfl, ⟨h, hup.ordered fun hpos => absurd hpos hzero⟩, rfl, rfl⟩

end ControllerHeap

/-! ## The operations -/

open ControllerHeap

section Operations

variable {heap : ControllerHeap}

theorem heapInit_kept : HeapKept heapInit where
  capacity_pos := Nat.one_pos
  count_le := Nat.zero_le _
  at_place _ hi := absurd hi (Nat.not_lt_zero _)
  place _ _ _ h := nomatch h
  next _ _ := rfl
  ordered _ _ hj := absurd hj (Nat.not_lt_zero _)

/-- A node is pushed. -/
theorem heapPush_spec (h : HeapKept heap) (allocNode allocArray : Bool) (count : ℕ)
    (controller : PlayerRef) :
    ∃ o heap', heapPush allocNode allocArray heap count controller = .ok (o, heap') ∧
      HeapKept heap' ∧ (o = none → heap' = heap) ∧ ∀ id, o = some id → heap.content id = none ∧
        heap'.content = Function.update heap.content id (some (count, controller)) := by
  rw [heapPush]
  split
  · exact ⟨none, heap, rfl, h, fun _ => rfl, nofun⟩
  · -- The new node goes to the end, and is sifted up.
    let pushed : ControllerHeap :=
      { capacity := if heap.count = heap.capacity then heap.capacity * 2 else heap.capacity
        count := heap.count + 1
        controllers := Function.update heap.controllers heap.count heap.nextNode
        node := Function.update heap.node heap.nextNode (some ⟨heap.count, count, controller⟩)
        nextNode := heap.nextNode + 1 }
    have hnew : heap.node heap.nextNode = none := h.next _ le_rfl
    have hcontent : pushed.content =
        Function.update heap.content heap.nextNode (some (count, controller)) := by
      funext id
      exact Function.apply_update (fun _ => Option.map _) heap.node heap.nextNode _ id
    have hold {i : ℕ} (hi : i < heap.count) :
        pushed.controllers i = heap.controllers i ∧ heap.controllers i ≠ heap.nextNode := by
      refine ⟨Function.update_of_ne hi.ne .., fun he => ?_⟩
      obtain ⟨-, node, hnode, -⟩ := h.at_place i hi
      rw [he, hnew] at hnode
      cases hnode
    have hlast : pushed.controllers heap.count = heap.nextNode := Function.update_self ..
    have hplaced : pushed.Placed none := by
      refine ⟨?_, ?_, fun i hi => ⟨nofun, ?_⟩, fun id node _ hid => ?_, fun id hid => ?_⟩
      · change 0 < if heap.count = heap.capacity then heap.capacity * 2 else heap.capacity
        have := h.capacity_pos
        split <;> omega
      · change heap.count + 1 ≤ if heap.count = heap.capacity then heap.capacity * 2 else heap.capacity
        have := h.capacity_pos
        have := h.count_le
        split <;> omega
      · rcases Nat.lt_succ_iff_lt_or_eq.1 hi with hi | rfl
        · obtain ⟨-, node, hnode, hindex⟩ := h.at_place i hi
          rw [(hold hi).1]
          exact ⟨node, (Function.update_of_ne (hold hi).2 ..).trans hnode, hindex⟩
        · rw [hlast]
          exact ⟨_, Function.update_self .., rfl⟩
      · rcases eq_or_ne id heap.nextNode with rfl | hne
        · cases (Function.update_self (f := heap.node) ..).symm.trans hid
          exact ⟨Nat.lt_succ_self _, hlast⟩
        · obtain ⟨hlt, hplace⟩ :=
            h.place id node nofun ((Function.update_of_ne hne ..).symm.trans hid)
          exact ⟨hlt.trans (Nat.lt_succ_self _), (hold hlt).1.trans hplace⟩
      · have hid : heap.nextNode + 1 ≤ id := hid
        exact (Function.update_of_ne (by omega) ..).trans (h.next id (by omega))
    have hup : UpAt pushed.key pushed.count heap.count := by
      refine (h.ordered.upAt count).congr (Nat.lt_succ_self _) fun j hj => ?_
      rw [key, hcontent]
      rcases Nat.lt_succ_iff_lt_or_eq.1 hj with hj | rfl
      · rw [(hold hj).1, Function.update_of_ne (hold hj).2, Function.update_of_ne hj.ne, key]
      · rw [hlast, Function.update_self, Function.update_self]
        rfl
    obtain ⟨heap', hsift, hsifted⟩ := siftUp_spec hplaced hup (Nat.lt_succ_self _)
      (show heap.count < pushed.count from Nat.lt_succ_self _)
    refine ⟨some heap.nextNode, heap', Exec.bind_eq_ok.2 ⟨heap', hsift, rfl⟩, hsifted.kept, nofun, ?_⟩
    rintro _ ⟨⟩
    exact ⟨congrArg (Option.map _) hnew, hsifted.content.trans hcontent⟩

/-- The number of monsters of the node at the top is changed, and the node is sifted. -/
def recountTop (f : ℕ → ℕ) (heap : ControllerHeap) : Exec ControllerHeap := do
  let node ← heap.nodeAt 0
  let heap := { heap with
    node := Function.update heap.node (heap.controllers 0)
      (some { node with controlleeCount := f node.controlleeCount }) }
  heap.siftDown (heap.count + 1) 0

theorem recountTop_spec (h : HeapKept heap) (f : ℕ → ℕ) (hpos : 0 < heap.count) :
    ∃ heap' c, recountTop f heap = .ok heap' ∧ HeapKept heap' ∧
      heap.content (heap.controllers 0) = some c ∧
      heap'.content = Function.update heap.content (heap.controllers 0) (some (f c.1, c.2)) := by
  obtain ⟨node, hat, hnode, hindex, hkey⟩ := h.nodeAt hpos
  let heap₁ : ControllerHeap := { heap with
    node := Function.update heap.node (heap.controllers 0)
      (some { node with controlleeCount := f node.controlleeCount }) }
  have hcontent : heap₁.content = Function.update heap.content (heap.controllers 0)
      (some (f node.controlleeCount, node.controller)) := by
    funext id
    exact Function.apply_update (fun _ => Option.map _) heap.node (heap.controllers 0) _ id
  have hplaced : heap₁.Placed none := by
    refine ⟨h.capacity_pos, h.count_le, fun i hi => ⟨nofun, ?_⟩, fun id node' _ hid => ?_,
      fun id hid => ?_⟩
    · obtain ⟨-, node', hnode', hindex'⟩ := h.at_place i hi
      by_cases he : heap.controllers i = heap.controllers 0
      · obtain rfl := h.controllers_inj hi hpos he
        exact ⟨_, Function.update_self .., hindex⟩
      · exact ⟨node', (Function.update_of_ne he ..).trans hnode', hindex'⟩
    · rcases eq_or_ne id (heap.controllers 0) with rfl | hne
      · cases (Function.update_self (f := heap.node) ..).symm.trans hid
        exact ⟨hindex ▸ hpos, congrArg heap.controllers hindex⟩
      · exact h.place id node' nofun ((Function.update_of_ne hne ..).symm.trans hid)
    · refine (Function.update_of_ne ?_ ..).trans (h.next id hid)
      rintro rfl
      cases (h.next _ hid).symm.trans hnode
  -- The node is at the top, and so only its children may be less.
  have hdown : DownAt heap₁.key heap₁.count 0 := by
    refine (h.ordered.downAt (.inl rfl) : DownAt (Function.update heap.key 0 (f (heap.key 0))) _ 0).congr
      hpos fun j hj => ?_
    rw [key, hcontent]
    change (Option.map Prod.fst (Function.update heap.content _ _ (heap.controllers j))).getD 0 = _
    rcases eq_or_ne j 0 with rfl | hne
    · rw [Function.update_self, Function.update_self, ← hkey]
      rfl
    · rw [Function.update_of_ne fun he => hne (h.controllers_inj hj hpos he),
        Function.update_of_ne hne, key]
  obtain ⟨heap', hsift, hsifted⟩ := siftDown_spec hplaced hdown
    (show heap.count < heap.count + 1 + 0 by omega) (Nat.succ_pos _)
  exact ⟨heap', (node.controlleeCount, node.controller),
    Exec.bind_eq_ok.2 ⟨node, hat, hsift⟩, hsifted.kept, congrArg (Option.map _) hnode,
    hsifted.content.trans hcontent⟩

/-- The node that has been taken out is freed. -/
theorem HeapKept.free {id : ℕ} (h : HeapKept heap (some id)) :
    HeapKept { heap with node := Function.update heap.node id none } ∧
      ControllerHeap.content { heap with node := Function.update heap.node id none } =
        Function.update heap.content id none := by
  have hcontent : ControllerHeap.content { heap with node := Function.update heap.node id none } =
      Function.update heap.content id none := by
    funext id'
    exact Function.apply_update (fun _ => Option.map _) heap.node id none id'
  have hne {i : ℕ} (hi : i < heap.count) : heap.controllers i ≠ id := fun he =>
    (h.at_place i hi).1 (congrArg some he.symm)
  refine ⟨⟨⟨h.capacity_pos, h.count_le, fun i hi => ⟨nofun, ?_⟩, fun id' node _ hid => ?_,
    fun id' hid => ?_⟩, h.ordered.congr fun j hj => ?_⟩, hcontent⟩
  · obtain ⟨-, node, hnode, hindex⟩ := h.at_place i hi
    exact ⟨node, (Function.update_of_ne (hne hi) ..).trans hnode, hindex⟩
  · rcases eq_or_ne id' id with rfl | hid'
    · cases (Function.update_self (f := heap.node) ..).symm.trans hid
    · exact h.place id' node (fun he => hid' (Option.some.inj he).symm)
        ((Function.update_of_ne hid' ..).symm.trans hid)
  · change Function.update heap.node id none id' = none
    rw [Function.update_apply, h.next id' hid, ite_self]
  · rw [key, hcontent, key]
    change (Option.map Prod.fst (Function.update heap.content id none (heap.controllers j))).getD 0 = _
    rw [Function.update_of_ne (hne hj)]

/-- The last node takes the place of one that is taken out, before anything is sifted. -/
theorem HeapKept.takeOut (h : HeapKept heap) {id n : ℕ} {removed : ControllerHeapNode}
    (hid : heap.node id = some removed) (hn : heap.count = n + 1) :
    ∃ heap₁ : ControllerHeap,
      (heap.setController removed.index (heap.controllers n)).setIndex removed.index = .ok heap₁ ∧
      ({ heap₁ with count := n } : ControllerHeap).Placed (some id) ∧
      heap₁.content = heap.content ∧ heap₁.count = heap.count ∧
      heap₁.capacity = heap.capacity ∧ heap₁.controllers =
        Function.update heap.controllers removed.index (heap.controllers n) := by
  obtain ⟨hi, hplace⟩ := h.place id removed nofun hid
  obtain ⟨-, last, hlast, hindex⟩ := h.at_place n (by omega)
  have hcap := h.count_le
  set i := removed.index with hidef
  let heap₁ : ControllerHeap := { heap with
    controllers := Function.update heap.controllers i (heap.controllers n)
    node := Function.update heap.node (heap.controllers n) (some { last with index := i }) }
  have hset : (heap.setController i (heap.controllers n)).setIndex i = .ok heap₁ := by
    have hat : (heap.setController i (heap.controllers n)).controllers i = heap.controllers n :=
      Function.update_self ..
    have hnode : (heap.setController i (heap.controllers n)).node
        ((heap.setController i (heap.controllers n)).controllers i) = some last := by
      rw [hat]
      exact hlast
    rw [setIndex_eq (show i < (heap.setController i (heap.controllers n)).capacity from
      hi.trans_le hcap) hnode, hat]
    rfl
  -- What is at the places that are left.
  have hat (j : ℕ) : heap₁.controllers j = if j = i then heap.controllers n else heap.controllers j :=
    Function.update_apply ..
  have hnode (id' : ℕ) : heap₁.node id' =
      if id' = heap.controllers n then some { last with index := i } else heap.node id' :=
    Function.update_apply ..
  refine ⟨heap₁, hset, ⟨h.capacity_pos, ?_, fun j hj => ?_, fun id' node hne hid' => ?_,
    fun id' hid' => ?_⟩, ?_, rfl, rfl, rfl⟩
  · change n ≤ heap.capacity
    omega
  · change some id ≠ some (heap₁.controllers j) ∧ ∃ node, heap₁.node (heap₁.controllers j) = some node ∧ _
    have hj : j < n := hj
    rw [hat]
    split
    · rename_i hji
      refine ⟨fun he => ?_, ?_⟩
      · have := h.controllers_inj hi (show n < heap.count by omega) (hplace.trans (Option.some.inj he))
        omega
      · rw [hnode, if_pos rfl]
        exact ⟨_, rfl, hji.symm⟩
    · rename_i hji
      have hjn : heap.controllers j ≠ heap.controllers n := fun he => by
        have := h.controllers_inj (show j < heap.count by omega) (show n < heap.count by omega) he
        omega
      refine ⟨fun he => hji ?_, ?_⟩
      · exact h.controllers_inj (by omega) hi ((Option.some.inj he).symm.trans hplace.symm)
      · rw [hnode, if_neg hjn]
        exact (h.at_place j (by omega)).2
  · change node.index < n ∧ heap₁.controllers node.index = id'
    have hid' : heap₁.node id' = some node := hid'
    have hne : id' ≠ id := fun he => hne (congrArg some he.symm)
    rw [hnode] at hid'
    split at hid'
    · rename_i he
      cases hid'
      refine ⟨?_, by rw [hat, if_pos rfl, he]⟩
      by_contra hge
      have hin : i = n := by
        change ¬i < n at hge
        omega
      exact hne (by rw [he, ← hplace, hin])
    · rename_i hlastne
      obtain ⟨hlt, hplace'⟩ := h.place id' node nofun hid'
      have hni : node.index ≠ i := fun he => hne (by rw [← hplace', he, hplace])
      have hnn : node.index ≠ n := fun he => hlastne (by rw [← hplace', he])
      exact ⟨by omega, by rw [hat, if_neg hni, hplace']⟩
  · change heap₁.node id' = none
    have hnone := h.next id' hid'
    rw [hnode, if_neg ?_]
    · exact hnone
    · rintro rfl
      cases hlast.symm.trans hnone
  · funext id'
    rw [content, content, hnode]
    split
    · rename_i he
      rw [he, hlast]
      rfl
    · rfl

/-- A node is taken out. -/
theorem heapRemove_spec (h : HeapKept heap) {id : ℕ} {c : ℕ × PlayerRef}
    (hid : heap.content id = some c) :
    ∃ heap', heapRemove heap (some id) = .ok heap' ∧ HeapKept heap' ∧
      heap'.content = Function.update heap.content id none := by
  obtain ⟨removed, hremoved, -⟩ := Option.map_eq_some_iff.1 hid
  obtain ⟨hi, hplace⟩ := h.place id removed nofun hremoved
  obtain ⟨n, hn⟩ : ∃ n, heap.count = n + 1 := ⟨heap.count - 1, by omega⟩
  obtain ⟨heap₁, hset, hplaced, hcontent, hcount, hcapacity, hcontrollers⟩ := h.takeOut hremoved hn
  set heap₂ : ControllerHeap := { heap₁ with count := n } with hheap₂
  have hcontent₂ : heap₂.content = heap.content := hcontent
  -- The keys that are left.
  have hkey (j : ℕ) : heap₂.key j = Function.update heap.key removed.index (heap.key n) j := by
    rw [key, hcontent₂]
    change (Option.map Prod.fst (heap.content (heap₁.controllers j))).getD 0 = _
    rw [hcontrollers, Function.update_apply, Function.update_apply]
    split <;> rfl
  -- However they are sifted, the nodes end up in order.
  obtain ⟨heap₃, hsift, hsifted⟩ :
      ∃ heap₃, heap₂.resift removed.index = .ok heap₃ ∧ Sifted (some id) heap₂ heap₃ := by
    have hkeys : heap₂.key = Function.update heap.key removed.index (heap.key n) := funext hkey
    rcases Nat.lt_or_ge removed.index n with hlt | hge
    · obtain ⟨hdown, hup⟩ := (hn ▸ h.ordered).remove hlt
      rw [← hkeys] at hdown hup
      rw [resift]
      split
      · rename_i hzero
        exact siftDown_spec hplaced (hdown (.inl hzero)) (show n < n + 1 + removed.index by omega)
          (Nat.succ_pos _)
      · rename_i hpos
        have hpar : (removed.index - 1) / 2 < removed.index := parent_lt (by omega)
        have hself : heap₂.key removed.index = heap.key n := by rw [hkey, Function.update_self]
        have hparent : heap₂.key ((removed.index - 1) / 2) = heap.key (parent removed.index) := by
          rw [hkey, Function.update_of_ne hpar.ne]
          rfl
        rw [hplaced.keyAt (hpar.trans hlt), hplaced.keyAt hlt, Exec.ok_bind, Exec.ok_bind, hself,
          hparent]
        split
        · rename_i hless
          exact siftDown_spec hplaced (hdown (.inr hless)) (show n < n + 1 + removed.index by omega)
            (Nat.succ_pos _)
        · rename_i hless
          exact siftUp_spec hplaced (hup (not_or.2 ⟨hpos, hless⟩)) hlt
            (show removed.index < n + 1 by omega)
    · -- The node has been the last one: there is nothing to sift.
      obtain rfl : removed.index = n := by omega
      rw [Function.update_eq_self] at hkeys
      have hordered : Ordered heap₂.key heap₂.count := by
        rw [hkeys]
        exact h.ordered.mono (show removed.index ≤ heap.count by omega)
      have hstill : Sifted (some id) heap₂ heap₂ := ⟨⟨hplaced, hordered⟩, rfl, rfl⟩
      have hdown : heap₂.siftDown (removed.index + 1) removed.index = .ok heap₂ := by
        rw [siftDown, if_neg (show ¬removed.index * 2 + 1 < removed.index by omega)]
        rfl
      rw [resift]
      split
      · exact ⟨heap₂, hdown, hstill⟩
      · rename_i hpos
        have hpar : (removed.index - 1) / 2 < removed.index := parent_lt (by omega)
        have hself : heap₂.keyAt removed.index = .ok (heap.key removed.index) := by
          have hid₂ : heap₂.content id = some c := hcontent₂ ▸ hid
          obtain ⟨node, hnode, hc⟩ := Option.map_eq_some_iff.1 hid₂
          have hat : heap₂.controllers removed.index = id := by
            change heap₁.controllers removed.index = id
            rw [hcontrollers, Function.update_self, hplace]
          have hcap : removed.index < heap₂.capacity := hcapacity.symm ▸ hi.trans_le h.count_le
          rw [keyAt, nodeAt, if_pos hcap, hat, hnode, key, hplace, hid, ← hc]
          rfl
        have hle : heap.key ((removed.index - 1) / 2) ≤ heap.key removed.index :=
          h.ordered removed.index (by omega) hi
        rw [hplaced.keyAt hpar, hself, Exec.ok_bind, Exec.ok_bind, hkeys]
        split
        · exact ⟨heap₂, hdown, hstill⟩
        · refine ⟨heap₂, ?_, hstill⟩
          rw [siftUp, if_pos (by omega), hplaced.keyAt hpar, hself, Exec.ok_bind, Exec.ok_bind, hkeys,
            if_neg (not_lt.2 hle)]
          rfl
  obtain ⟨hkept, hfree⟩ := hsifted.kept.free
  refine ⟨{ heap₃ with node := Function.update heap₃.node id none }, ?_, hkept, ?_⟩
  · rw [heapRemove, Exec.deref, Exec.ok_bind, hremoved, Exec.deref, Exec.ok_bind, if_neg (by omega)]
    have hlast : heap.count - 1 = n := by omega
    have hlast₁ : heap₁.count - 1 = n := by omega
    simp only [hlast, hset, Exec.ok_bind, hlast₁]
    exact Exec.bind_eq_ok.2 ⟨heap₃, hsift, rfl⟩
  · rw [hfree, hsifted.content, hcontent₂]

end Operations

end Syrup

/-!
## Runs of the heap of controllers

Nodes are pushed and removed, and the number of the node at the top is increased, in any order. The
numbers are of the type `size_t`, and an increase may take them over `2 ^ 64`.

Beside the heap it is noted which nodes have been pushed and not removed (`HeapLog`). After any run these
are the nodes of the array, each of which knows its place, and no node has a number less than its parent
(`heap_run`).
-/

namespace Syrup

open ControllerHeap

/-- `heap_inc`, with numbers of the type `size_t`. -/
def heapIncSize (heap : ControllerHeap) (count : ℕ) : Exec ControllerHeap :=
  recountTop (fun n => (n + count) % 2 ^ 64) heap

/-- A heap, and the nodes that have been pushed and not removed. -/
structure HeapLog where
  heap : ControllerHeap
  nodes : Multiset ℕ

/-- What is done with a heap. -/
inductive HeapOp
  | push (allocNode allocArray : Bool) (count : ℕ) (controller : PlayerRef)
  | remove (node : ℕ)
  | inc (count : ℕ)

namespace HeapOp

def run : HeapOp → HeapLog → Exec HeapLog
  | push allocNode allocArray count controller, s => do
    let (node, heap) ← heapPush allocNode allocArray s.heap count controller
    return ⟨heap, node.elim s.nodes (· ::ₘ s.nodes)⟩
  | remove node, s => do
    let heap ← heapRemove s.heap (some node)
    return ⟨heap, s.nodes.erase node⟩
  | inc count, s => do
    let heap ← heapIncSize s.heap count
    return { s with heap := heap }

/-- Only a node that is present is removed, and only if there is one at the top it is increased. -/
def Ok : HeapOp → HeapLog → Prop
  | push .., _ => True
  | remove node, s => node ∈ s.nodes
  | inc _, s => s.nodes ≠ 0

instance (a : HeapOp) (s : HeapLog) : Decidable (a.Ok s) :=
  match a with
  | push .. => inferInstanceAs (Decidable True)
  | remove node => inferInstanceAs (Decidable (node ∈ s.nodes))
  | inc _ => inferInstanceAs (Decidable (s.nodes ≠ 0))

end HeapOp

/-- A correct indexed heap of the nodes that have been pushed and not removed. -/
structure HeapRight (s : HeapLog) : Prop where
  ordered : ∀ i, 0 < i → i < s.heap.count → ∀ parent node,
    s.heap.node (s.heap.controllers ((i - 1) / 2)) = some parent →
    s.heap.node (s.heap.controllers i) = some node → parent.controlleeCount ≤ node.controlleeCount
  at_place : ∀ i < s.heap.count, ∃ node, s.heap.node (s.heap.controllers i) = some node ∧ node.index = i
  nodes : (Multiset.range s.heap.count).map s.heap.controllers = s.nodes

/-- What runs keep. -/
structure HeapLogKept (s : HeapLog) : Prop where
  kept : HeapKept s.heap
  nodup : s.nodes.Nodup
  mem : ∀ id, id ∈ s.nodes ↔ s.heap.content id ≠ none

namespace HeapLogKept

variable {s s' : HeapLog}

theorem key_eq {heap : ControllerHeap} {i : ℕ} {node : ControllerHeapNode}
    (hnode : heap.node (heap.controllers i) = some node) : heap.key i = node.controlleeCount := by
  rw [key, content, hnode]
  rfl

theorem right (h : HeapLogKept s) : HeapRight s where
  ordered i hpos hi parent node hparent hnode := by
    rw [← key_eq hparent, ← key_eq hnode]
    exact h.kept.ordered i hpos hi
  at_place i hi := (h.kept.at_place i hi).2
  nodes := by
    -- No node is at two places.
    have hnodup : ((Multiset.range s.heap.count).map s.heap.controllers).Nodup :=
      (Multiset.nodup_range _).map_on fun i hi j hj he =>
        h.kept.controllers_inj (Multiset.mem_range.1 hi) (Multiset.mem_range.1 hj) he
    refine (hnodup.ext h.nodup).2 fun id => ?_
    rw [h.mem, Multiset.mem_map]
    constructor
    · rintro ⟨i, hi, rfl⟩
      rw [Multiset.mem_range] at hi
      obtain ⟨-, node, hnode, -⟩ := h.kept.at_place i hi
      rw [content, hnode]
      exact Option.some_ne_none _
    · intro hid
      obtain ⟨c, hc⟩ := Option.ne_none_iff_exists'.1 hid
      obtain ⟨node, hnode, -⟩ := Option.map_eq_some_iff.1 hc
      obtain ⟨hlt, hplace⟩ := h.kept.place id node (by simp) hnode
      exact ⟨node.index, Multiset.mem_range.2 hlt, hplace⟩

theorem init : HeapLogKept ⟨heapInit, 0⟩ where
  kept := heapInit_kept
  nodup := Multiset.nodup_zero
  mem id := iff_of_false (Multiset.notMem_zero id) fun h => h rfl

theorem push (h : HeapLogKept s) (allocNode allocArray : Bool) (count : ℕ) (controller : PlayerRef) :
    ∃ s', (HeapOp.push allocNode allocArray count controller).run s = .ok s' ∧ HeapLogKept s' := by
  obtain ⟨o, heap, hpush, hkept, hsame, hnew⟩ := heapPush_spec h.kept allocNode allocArray count controller
  refine ⟨_, Exec.bind_eq_ok.2 ⟨(o, heap), hpush, rfl⟩, ?_⟩
  cases o with
  | none =>
    obtain rfl := hsame rfl
    exact h
  | some node =>
    obtain ⟨hfree, hcontent⟩ := hnew node rfl
    have hout : node ∉ s.nodes := fun hmem => (h.mem node).1 hmem hfree
    refine ⟨hkept, Multiset.nodup_cons.2 ⟨hout, h.nodup⟩, fun id => ?_⟩
    change id ∈ node ::ₘ s.nodes ↔ heap.content id ≠ none
    rw [Multiset.mem_cons, h.mem, hcontent, Function.update_apply]
    split
    · simp [*]
    · simp [*]

theorem remove (h : HeapLogKept s) {node : ℕ} (hmem : node ∈ s.nodes) :
    ∃ s', (HeapOp.remove node).run s = .ok s' ∧ HeapLogKept s' := by
  obtain ⟨c, hc⟩ := Option.ne_none_iff_exists'.1 ((h.mem node).1 hmem)
  obtain ⟨heap, hremove, hkept, hcontent⟩ := heapRemove_spec h.kept hc
  refine ⟨_, Exec.bind_eq_ok.2 ⟨heap, hremove, rfl⟩, hkept, h.nodup.erase node, fun id => ?_⟩
  change id ∈ s.nodes.erase node ↔ heap.content id ≠ none
  rw [h.nodup.mem_erase_iff, h.mem, hcontent, Function.update_apply]
  split
  · simp [*]
  · simp [*]

theorem inc (h : HeapLogKept s) (count : ℕ) (hne : s.nodes ≠ 0) :
    ∃ s', (HeapOp.inc count).run s = .ok s' ∧ HeapLogKept s' := by
  have hpos : 0 < s.heap.count := by
    rw [← h.right.nodes] at hne
    by_contra hzero
    rw [Nat.eq_zero_of_not_pos hzero] at hne
    exact hne rfl
  obtain ⟨heap, c, hinc, hkept, hc, hcontent⟩ :=
    recountTop_spec h.kept (fun n => (n + count) % 2 ^ 64) hpos
  refine ⟨_, Exec.bind_eq_ok.2 ⟨heap, hinc, rfl⟩, hkept, h.nodup, fun id => ?_⟩
  change id ∈ s.nodes ↔ heap.content id ≠ none
  rw [h.mem, hcontent, Function.update_apply]
  split
  · simp [*]
  · rfl

/-- Each operation returns, and keeps the heap. -/
theorem run (h : HeapLogKept s) {a : HeapOp} (hok : a.Ok s) : ∃ s', a.run s = .ok s' ∧ HeapLogKept s' := by
  cases a with
  | push allocNode allocArray count controller => exact h.push allocNode allocArray count controller
  | remove node => exact h.remove hok
  | inc count => exact h.inc count hok

end HeapLogKept

theorem heap_run {s : HeapLog} (hrun : Machine.Run HeapOp.run HeapOp.Ok ⟨heapInit, 0⟩ s) :
    HeapRight s ∧ ∀ a : HeapOp, a.Ok s → ∃ s', a.run s = .ok s' := by
  have hkept : HeapLogKept s := by
    refine hrun.invariant HeapLogKept.init fun a s₁ s₂ hs hok hstep => ?_
    obtain ⟨s', hrun', hs'⟩ := hs.run hok
    cases hrun'.symm.trans hstep
    exact hs'
  refine ⟨hkept.right, fun a hok => ?_⟩
  obtain ⟨s', hrun', -⟩ := hkept.run hok
  exact ⟨s', hrun'⟩

/-- Three nodes, of which the least one is increased, and then another one is removed. -/
theorem heap_run_three : ∃ s : HeapLog, HeapRight s ∧ s.nodes = {2, 1} ∧ s.heap.controllers 0 = 2 := by
  obtain ⟨s, hrun, hnodes, htop⟩ : ∃ s : HeapLog,
      [HeapOp.push true true 4 ⟨0, 0⟩, .push true true 1 ⟨0, 1⟩, .push true true 3 ⟨0, 2⟩, .inc 5,
        .remove 0].foldlM (Machine.checked HeapOp.run HeapOp.Ok .assertion) ⟨heapInit, 0⟩ = .ok s ∧
        s.nodes = {2, 1} ∧ s.heap.controllers 0 = 2 := ⟨_, rfl, by decide, by decide⟩
  exact ⟨s, (heap_run (.of_checked hrun)).1, hnodes, htop⟩

end Syrup
