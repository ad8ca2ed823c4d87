import Syrup.Footholds
import Mathlib.Algebra.BigOperators.Group.Finset.Basic
import Mathlib.Data.Multiset.Basic

/-!
# What holds of a tree of footholds

`Wf` is the invariant of a tree. Every node that has been allocated, but for the root, is in the children of
one other, which is its parent, once; all have one to three entries, and a height, by which all leaves are
equally far from the root; and the bound of every node is around all that is in the node. While a split
goes up the tree there is an *orphan*, a node that is in no other so far, and there are nodes that are
*loose*: the bounds of their parents have not been brought up to date.
-/

namespace Syrup

/-! ## Rectangles -/

theorem cMin_le_left (x y : Int16) : cMin x y ≤ x := by
  rw [cMin, Int16.le_iff_toInt_le]
  split
  · exact le_rfl
  · rename_i h
    rw [Int16.lt_iff_toInt_lt] at h
    omega

theorem cMin_le_right (x y : Int16) : cMin x y ≤ y := by
  rw [cMin, Int16.le_iff_toInt_le]
  split
  · rename_i h
    rw [Int16.lt_iff_toInt_lt] at h
    omega
  · exact le_rfl

theorem left_le_cMax (x y : Int16) : x ≤ cMax x y := by
  rw [cMax, Int16.le_iff_toInt_le]
  split
  · exact le_rfl
  · rename_i h
    rw [gt_iff_lt, Int16.lt_iff_toInt_lt] at h
    omega

theorem right_le_cMax (x y : Int16) : y ≤ cMax x y := by
  rw [cMax, Int16.le_iff_toInt_le]
  split
  · rename_i h
    rw [gt_iff_lt, Int16.lt_iff_toInt_lt] at h
    omega
  · exact le_rfl

/-- A rectangle is in another. -/
instance : Preorder Rectangle where
  le r s := s.sw.x ≤ r.sw.x ∧ r.sw.y ≤ s.sw.y ∧ r.ne.x ≤ s.ne.x ∧ s.ne.y ≤ r.ne.y
  le_refl _ := ⟨Int16.le_refl _, Int16.le_refl _, Int16.le_refl _, Int16.le_refl _⟩
  le_trans _ _ _ h h' := ⟨Int16.le_trans h'.1 h.1, Int16.le_trans h.2.1 h'.2.1,
    Int16.le_trans h.2.2.1 h'.2.2.1, Int16.le_trans h'.2.2.2 h.2.2.2⟩

theorem le_rectangleMbr_left (r1 r2 : Rectangle) : r1 ≤ rectangleMbr r1 r2 :=
  ⟨cMin_le_left _ _, left_le_cMax _ _, left_le_cMax _ _, cMin_le_left _ _⟩

theorem le_rectangleMbr_right (r1 r2 : Rectangle) : r2 ≤ rectangleMbr r1 r2 :=
  ⟨cMin_le_right _ _, right_le_cMax _ _, right_le_cMax _ _, cMin_le_right _ _⟩

/-- The bound of some rectangles is around each of them. -/
theorem le_mbrOf {rects : Vector Rectangle 3} {count : ℕ} (h : 1 ≤ count ∧ count ≤ 3) :
    ∀ r ∈ rects.toList.take count, r ≤ mbrOf rects count := by
  obtain ⟨⟨l⟩, hl⟩ := rects
  obtain ⟨a, b, c, rfl⟩ := List.length_eq_three.1 hl
  have hb : b ≤ rectangleMbr a b := le_rectangleMbr_right a b
  have ha : a ≤ rectangleMbr a b := le_rectangleMbr_left a b
  obtain rfl | rfl | rfl : count = 1 ∨ count = 2 ∨ count = 3 := by omega
  · intro r hr
    obtain rfl := List.mem_singleton.1 hr
    exact le_refl r
  · intro r hr
    obtain rfl | hr := List.mem_cons.1 hr
    · exact ha
    · obtain rfl := List.mem_singleton.1 hr
      exact hb
  · intro r hr
    obtain rfl | hr := List.mem_cons.1 hr
    · exact ha.trans (le_rectangleMbr_left _ _)
    obtain rfl | hr := List.mem_cons.1 hr
    · exact hb.trans (le_rectangleMbr_left _ _)
    · obtain rfl := List.mem_singleton.1 hr
      exact le_rectangleMbr_right _ _

/-! ## Splits -/

/-- A split into pairs names a pair. -/
def Split.Ok (s : Split) : Prop := s.minIsOne = false → (s.which0, s.which1) ∈ pairs

namespace Split

variable {α : Type}

/-- The entries that stay. -/
def keptEntries (s : Split) : List (Fin 4) :=
  if s.minIsOne then (List.finRange 4).filter (· ≠ s.which0) else [s.which0, s.which1]

/-- The entries that go to the new node. -/
def movedEntries (s : Split) : List (Fin 4) :=
  if s.minIsOne then [s.which0] else others s.which0 s.which1

theorem perm_entries {s : Split} (hs : s.Ok) :
    (s.keptEntries ++ s.movedEntries).Perm (List.finRange 4) := by
  obtain ⟨one, w0, w1⟩ := s
  have h : ∀ one w0 w1, ((one = false → (w0, w1) ∈ pairs) →
      ((⟨one, w0, w1⟩ : Split).keptEntries ++ (⟨one, w0, w1⟩ : Split).movedEntries).Perm
        (List.finRange 4)) := by
    decide
  exact h one w0 w1 hs

theorem length_entries {s : Split} (hs : s.Ok) :
    (1 ≤ s.keptEntries.length ∧ s.keptEntries.length ≤ 3) ∧
      1 ≤ s.movedEntries.length ∧ s.movedEntries.length ≤ 3 := by
  obtain ⟨one, w0, w1⟩ := s
  have h : ∀ one w0 w1, ((one = false → (w0, w1) ∈ pairs) →
      (1 ≤ (⟨one, w0, w1⟩ : Split).keptEntries.length ∧
        (⟨one, w0, w1⟩ : Split).keptEntries.length ≤ 3) ∧
      1 ≤ (⟨one, w0, w1⟩ : Split).movedEntries.length ∧
        (⟨one, w0, w1⟩ : Split).movedEntries.length ≤ 3) := by
    decide
  exact h one w0 w1 hs

theorem last_mem_kept {s : Split} (hs : s.Ok) : 3 ∈ s.keptEntries ↔ s.stays = true := by
  obtain ⟨one, w0, w1⟩ := s
  have h : ∀ one w0 w1, ((one = false → (w0, w1) ∈ pairs) →
      (3 ∈ (⟨one, w0, w1⟩ : Split).keptEntries ↔ (⟨one, w0, w1⟩ : Split).stays = true)) := by
    decide
  exact h one w0 w1 hs

theorem map_pick (slots : Vector α 3) (extra : α) :
    (List.finRange 4).map (pick slots extra) = slots.toList ++ [extra] := by
  obtain ⟨⟨l⟩, hl⟩ := slots
  obtain ⟨a, b, c, rfl⟩ := List.length_eq_three.1 hl
  rfl

/-- What stays in a node is in its first places. -/
theorem kept_eq {s : Split} (hs : s.Ok) (slots : Vector α 3) (extra : α) :
    (s.kept slots extra).2 = s.keptEntries.length ∧
      (s.kept slots extra).1.toList.take (s.kept slots extra).2 =
        s.keptEntries.map (pick slots extra) := by
  obtain ⟨⟨l⟩, hl⟩ := slots
  obtain ⟨a, b, c, rfl⟩ := List.length_eq_three.1 hl
  obtain ⟨one, w0, w1⟩ := s
  cases one with
  | true => fin_cases w0 <;> exact ⟨rfl, rfl⟩
  | false =>
    have hpair : (w0, w1) ∈ pairs := hs rfl
    fin_cases hpair <;> exact ⟨rfl, rfl⟩

theorem moved_eq [Inhabited α] {s : Split} (hs : s.Ok) (slots : Vector α 3) (extra : α) :
    (s.moved slots extra).2 = s.movedEntries.length ∧
      (s.moved slots extra).1.toList.take (s.moved slots extra).2 =
        s.movedEntries.map (pick slots extra) := by
  obtain ⟨⟨l⟩, hl⟩ := slots
  obtain ⟨a, b, c, rfl⟩ := List.length_eq_three.1 hl
  obtain ⟨one, w0, w1⟩ := s
  cases one with
  | true => fin_cases w0 <;> exact ⟨rfl, rfl⟩
  | false =>
    have hpair : (w0, w1) ∈ pairs := hs rfl
    fin_cases hpair <;> exact ⟨rfl, rfl⟩

/-- No entry is lost in a split, or is in two nodes. -/
theorem perm [Inhabited α] {s : Split} (hs : s.Ok) (slots : Vector α 3) (extra : α) :
    ((s.kept slots extra).1.toList.take (s.kept slots extra).2 ++
      (s.moved slots extra).1.toList.take (s.moved slots extra).2).Perm
        (slots.toList ++ [extra]) := by
  rw [(kept_eq hs slots extra).2, (moved_eq hs slots extra).2, ← List.map_append,
    ← map_pick slots extra]
  exact (perm_entries hs).map _

end Split

section Choose

variable (m : Measures) (rects : Vector Rectangle 3) (rect : Rectangle)

theorem foldl_keeps {β γ : Type} {P : γ → Prop} {f : γ → β → γ} {l : List β} {c : γ} (h : P c)
    (hf : ∀ c, ∀ b ∈ l, P c → P (f c b)) : P (l.foldl f c) := by
  induction l generalizing c with
  | nil => exact h
  | cons b l ih =>
    exact ih (hf c b List.mem_cons_self h) fun c b' hb => hf c b' (List.mem_cons_of_mem _ hb)

theorem leafOne_split (c : LeafChoice) (i : Fin 4) :
    (leafOne m rects rect c i).split.minIsOne = c.split.minIsOne := by
  simp only [leafOne, apply_ite LeafChoice.split, apply_ite Split.minIsOne, ite_self]

theorem leafTwo_split (c : LeafChoice) (ij : Fin 4 × Fin 4) :
    (leafTwo m rects rect c ij).split = ⟨false, ij.1, ij.2⟩ ∨
      (leafTwo m rects rect c ij).split = c.split := by
  simp only [leafTwo, apply_ite LeafChoice.split]
  split_ifs <;> simp

/-- Whatever the areas and lengths are, the split that is chosen is one. -/
theorem ok_chooseLeafSplit : (chooseLeafSplit m rects rect).Ok := by
  refine foldl_keeps (P := fun c : LeafChoice => c.split.Ok) (fun hfalse => ?_) fun c ij hij hc => ?_
  · refine absurd (hfalse.symm.trans ?_) Bool.false_ne_true
    exact foldl_keeps (P := fun c : LeafChoice => c.split.minIsOne = true) rfl fun c i _ hc =>
      (leafOne_split m rects rect c i).trans hc
  · rcases leafTwo_split m rects rect c ij with h | h <;> rw [h]
    · exact fun _ => hij
    · exact hc

theorem compare_split (c : NodeChoice) (measure : Int32) (isLength : Bool) (split : Split) :
    (c.compare measure isLength split).split = split ∨
      (c.compare measure isLength split).split = c.split := by
  rw [NodeChoice.compare]
  split_ifs <;> simp

theorem ok_chooseNodeSplit : (chooseNodeSplit m rects rect).Ok := by
  refine foldl_keeps (P := fun c : NodeChoice => c.split.Ok) (fun hfalse => ?_) fun c ij hij hc => ?_
  · refine absurd (hfalse.symm.trans ?_) Bool.false_ne_true
    refine foldl_keeps (P := fun c : NodeChoice => c.split.minIsOne = true) rfl fun c i _ hc => ?_
    rcases compare_split c _ _ { c.split with which0 := i } with h | h
    · exact (congrArg Split.minIsOne h).trans hc
    · exact (congrArg Split.minIsOne h).trans hc
  · rcases compare_split c _ _ ⟨false, ij.1, ij.2⟩ with h | h
    · exact h ▸ fun _ => hij
    · exact h ▸ hc

theorem chooseStep_index (bounds : Vector Rectangle 3) (b : Branch) (i : Fin 3) :
    (chooseStep m bounds rect b i).minIndex = i ∨
      (chooseStep m bounds rect b i).minIndex = b.minIndex := by
  simp only [chooseStep, apply_ite Branch.minIndex]
  split_ifs <;> simp

/-- Whatever the areas and lengths are, one of the children is chosen. -/
theorem chooseChild_lt {count : ℕ} (h : 1 ≤ count) :
    (chooseChild m rects count rect).val < count := by
  refine foldl_keeps (P := fun b : Branch => b.minIndex.val < count) h fun b i hi hb => ?_
  have hlt : 0 < i.val ∧ i.val < count := of_decide_eq_true (List.mem_filter.1 hi).2
  rcases chooseStep_index m rect rects b i with hi' | hi' <;> rw [hi']
  · exact hlt.2
  · exact hb

end Choose

/-! ## The invariant -/

namespace FootholdRTree

variable {t t' : FootholdRTree} {root : ℕ} {orphan : Option ℕ} {ht : ℕ → ℕ}

/-- How the nodes of a tree are linked, given their heights, and a node that is in no other. -/
structure Shape (t : FootholdRTree) (root : ℕ) (orphan : Option ℕ) (ht : ℕ → ℕ) :
    Prop where
  root_lt : root < t.next
  root_parent : (t.node root).parent = none
  count : ∀ p < t.next, 1 ≤ (t.node p).count ∧ (t.node p).count ≤ 3
  leaf : ∀ p < t.next, (t.node p).isLeaf = true ↔ ht p = 0
  child : ∀ p < t.next, (t.node p).isLeaf = false → ∀ c ∈ (t.node p).childList,
    c < t.next ∧ (t.node c).parent = some p ∧ ht c + 1 = ht p ∧ orphan ≠ some c
  nodup : ∀ p < t.next, (t.node p).isLeaf = false → (t.node p).childList.Nodup
  parent : ∀ c < t.next, c ≠ root → orphan ≠ some c →
    ∃ p < t.next, (t.node p).isLeaf = false ∧ c ∈ (t.node p).childList
  height_le : ∀ p < t.next, ht p ≤ ht root
  height_lt : ht root < t.next
  orphan_lt : ∀ o, orphan = some o → o < t.next ∧ o ≠ root

/-- The bound of a node is around all that is in it, but for the children that are loose. -/
structure Cover (t : FootholdRTree) (loose : ℕ → Prop) : Prop where
  leaf : ∀ p < t.next, (t.node p).isLeaf = true →
    ∀ fh ∈ (t.node p).footholdList, footholdMbr fh ≤ (t.node p).bound
  edge : ∀ p < t.next, (t.node p).isLeaf = false → ∀ c ∈ (t.node p).childList, ¬loose c →
    (t.node c).bound ≤ (t.node p).bound

/-- A tree of which all nodes are linked, and all bounds are up to date. -/
structure Wf (t : FootholdRTree) (root : ℕ) (ht : ℕ → ℕ) : Prop where
  root_eq : t.root = some root
  shape : t.Shape root none ht
  cover : t.Cover fun _ => False

/-- The footholds in a leaf. -/
def footholdsAt (t : FootholdRTree) (p : ℕ) : Multiset Foothold :=
  if (t.node p).isLeaf then (t.node p).footholdList else 0

/-- The footholds in all leaves. -/
def stored (t : FootholdRTree) : Multiset Foothold :=
  ∑ p ∈ Finset.range t.next, t.footholdsAt p

namespace Shape

theorem inner (hs : t.Shape root orphan ht) {p : ℕ} (hp : p < t.next) :
    (t.node p).isLeaf = false ↔ ht p ≠ 0 := by
  rw [ne_eq, ← hs.leaf p hp, Bool.not_eq_true]

/-- The parent of a node has it as a child. -/
theorem of_parent (hs : t.Shape root orphan ht) {c p : ℕ} (hc : c < t.next)
    (ho : orphan ≠ some c) (h : (t.node c).parent = some p) :
    p < t.next ∧ (t.node p).isLeaf = false ∧ c ∈ (t.node p).childList ∧ ht c + 1 = ht p := by
  have hroot : c ≠ root := by
    rintro rfl
    cases hs.root_parent.symm.trans h
  obtain ⟨q, hq, hinner, hmem⟩ := hs.parent c hc hroot ho
  obtain ⟨_, hparent, hheight, _⟩ := hs.child q hq hinner c hmem
  obtain rfl := Option.some.inj (hparent.symm.trans h)
  exact ⟨hq, hinner, hmem, hheight⟩

/-- Only the root has no parent. -/
theorem eq_root (hs : t.Shape root orphan ht) {c : ℕ} (hc : c < t.next)
    (ho : orphan ≠ some c) (h : (t.node c).parent = none) : c = root := by
  by_contra hroot
  obtain ⟨q, hq, hinner, hmem⟩ := hs.parent c hc hroot ho
  obtain ⟨_, hparent, _⟩ := hs.child q hq hinner c hmem
  cases hparent.symm.trans h

/-- Nothing but the links matters. -/
theorem of_links (hs : t.Shape root orphan ht) (hnext : t'.next = t.next)
    (hparent : ∀ p, (t'.node p).parent = (t.node p).parent)
    (hleaf : ∀ p, (t'.node p).isLeaf = (t.node p).isLeaf)
    (hchild : ∀ p, (t.node p).isLeaf = false → (t'.node p).childList = (t.node p).childList)
    (hcount : ∀ p < t.next, 1 ≤ (t'.node p).count ∧ (t'.node p).count ≤ 3) :
    t'.Shape root orphan ht where
  root_lt := hnext ▸ hs.root_lt
  root_parent := (hparent root).trans hs.root_parent
  count p hp := hcount p (hnext ▸ hp)
  leaf p hp := hleaf p ▸ hs.leaf p (hnext ▸ hp)
  child p hp hinner c hc := by
    rw [hleaf] at hinner
    rw [hchild p hinner] at hc
    rw [hnext, hparent]
    exact hs.child p (hnext ▸ hp) hinner c hc
  nodup p hp hinner := by
    rw [hleaf] at hinner
    rw [hchild p hinner]
    exact hs.nodup p (hnext ▸ hp) hinner
  parent c hc hroot ho := by
    obtain ⟨p, hp, hinner, hmem⟩ := hs.parent c (hnext ▸ hc) hroot ho
    exact ⟨p, hnext ▸ hp, (hleaf p).trans hinner, (hchild p hinner).symm ▸ hmem⟩
  height_le p hp := hs.height_le p (hnext ▸ hp)
  height_lt := hnext ▸ hs.height_lt
  orphan_lt o ho := hnext ▸ hs.orphan_lt o ho

end Shape

/-! ### Bounds -/

/-- Nothing but bounds differs. -/
structure Rebound (t t' : FootholdRTree) : Prop where
  root : t'.root = t.root
  next : t'.next = t.next
  parent : ∀ p, (t'.node p).parent = (t.node p).parent
  isLeaf : ∀ p, (t'.node p).isLeaf = (t.node p).isLeaf
  count : ∀ p, (t'.node p).count = (t.node p).count
  children : ∀ p, (t'.node p).children = (t.node p).children
  footholds : ∀ p, (t'.node p).footholds = (t.node p).footholds

namespace Rebound

theorem refl (t : FootholdRTree) : t.Rebound t :=
  ⟨rfl, rfl, fun _ => rfl, fun _ => rfl, fun _ => rfl, fun _ => rfl, fun _ => rfl⟩

theorem trans {t'' : FootholdRTree} (h : t.Rebound t') (h' : t'.Rebound t'') : t.Rebound t'' where
  root := h'.root.trans h.root
  next := h'.next.trans h.next
  parent p := (h'.parent p).trans (h.parent p)
  isLeaf p := (h'.isLeaf p).trans (h.isLeaf p)
  count p := (h'.count p).trans (h.count p)
  children p := (h'.children p).trans (h.children p)
  footholds p := (h'.footholds p).trans (h.footholds p)

theorem childList (h : t.Rebound t') (p : ℕ) :
    (t'.node p).childList = (t.node p).childList := by
  rw [RTreeNode.childList, RTreeNode.childList, h.children, h.count]

theorem footholdList (h : t.Rebound t') (p : ℕ) :
    (t'.node p).footholdList = (t.node p).footholdList := by
  rw [RTreeNode.footholdList, RTreeNode.footholdList, h.footholds, h.count]

theorem shape (h : t.Rebound t') (hs : t.Shape root orphan ht) : t'.Shape root orphan ht :=
  hs.of_links h.next h.parent h.isLeaf (fun p _ => h.childList p) fun p hp => h.count p ▸ hs.count p hp

theorem stored (h : t.Rebound t') : t'.stored = t.stored := by
  simp only [FootholdRTree.stored, footholdsAt, h.next, h.isLeaf, h.footholdList]

theorem setBound (t : FootholdRTree) (p : ℕ) (b : Rectangle) : t.Rebound (t.setBound p b) := by
  refine ⟨rfl, rfl, fun q => ?_, fun q => ?_, fun q => ?_, fun q => ?_, fun q => ?_⟩ <;>
    rw [node_setBound]

end Rebound

theorem bound_setBound_self (t : FootholdRTree) (p : ℕ) (b : Rectangle) :
    ((t.setBound p b).node p).bound = b := by
  rw [node_setBound]
  exact if_pos rfl

theorem bound_setBound_of_ne (t : FootholdRTree) {p q : ℕ} (h : q ≠ p) (b : Rectangle) :
    ((t.setBound p b).node q).bound = (t.node q).bound := by
  rw [node_setBound]
  exact if_neg h

/-- The bound of an inner node does not matter to what is in leaves. -/
theorem leafCover_setBound {p : ℕ} (hinner : (t.node p).isLeaf = false) {loose : ℕ → Prop}
    (hc : t.Cover loose) (b : Rectangle) : ∀ q < (t.setBound p b).next,
      ((t.setBound p b).node q).isLeaf = true → ∀ fh ∈ ((t.setBound p b).node q).footholdList,
        footholdMbr fh ≤ ((t.setBound p b).node q).bound := by
  intro q hq hleaf fh hfh
  have hr := Rebound.setBound t p b
  rw [hr.isLeaf] at hleaf
  rw [hr.footholdList] at hfh
  have hqp : q ≠ p := by
    rintro rfl
    cases hinner.symm.trans hleaf
  rw [bound_setBound_of_ne t hqp]
  exact hc.leaf q hq hleaf fh hfh

/-- The loop that enlarges bounds ends, and leaves no bound too small. -/
theorem enlarge_spec (fuel : ℕ) {node : ℕ} (hs : t.Shape root none ht)
    (hc : t.Cover (· = node)) (hnode : node < t.next) (hfuel : ht root < ht node + fuel) :
    ∃ t', enlarge fuel t node = .ok t' ∧ t.Rebound t' ∧ t'.Cover fun _ => False := by
  induction fuel generalizing t node with
  | zero =>
    have := hs.height_le node hnode
    omega
  | succ fuel ih =>
    rw [enlarge]
    split
    · rename_i hparent
      refine ⟨t, rfl, .refl t, hc.leaf, fun p hp hinner c hmem _ => hc.edge p hp hinner c hmem ?_⟩
      rintro rfl
      cases hparent.symm.trans (hs.child p hp hinner c hmem).2.1
    · rename_i q hparent
      obtain ⟨hq, hinner, hmem, hheight⟩ := hs.of_parent hnode nofun hparent
      have hr := Rebound.setBound t q (rectangleMbr (t.node q).bound (t.node node).bound)
      have hcover : (t.setBound q (rectangleMbr (t.node q).bound (t.node node).bound)).Cover
          (· = q) := by
        refine ⟨leafCover_setBound hinner hc _, fun p hp hp' c hc' hne => ?_⟩
        rw [hr.isLeaf] at hp'
        rw [hr.childList] at hc'
        have hchild := (hs.child p hp hp' c hc').2.1
        rw [bound_setBound_of_ne t hne]
        by_cases hpq : p = q
        · subst hpq
          rw [bound_setBound_self]
          by_cases hcn : c = node
          · subst hcn
            exact le_rectangleMbr_right _ _
          · exact (hc.edge p hp hp' c hc' hcn).trans (le_rectangleMbr_left _ _)
        · rw [bound_setBound_of_ne t hpq]
          refine hc.edge p hp hp' c hc' ?_
          rintro rfl
          exact hpq (Option.some.inj (hchild.symm.trans hparent))
      obtain ⟨t', hok, hr', hcover⟩ := ih (hr.shape hs) hcover hq (by omega)
      exact ⟨t', hok, hr.trans hr', hcover⟩

theorem childList_eq_cons {n : RTreeNode} (hcount : 1 ≤ n.count) :
    n.childList = n.children[0] :: n.childList.drop 1 := by
  rw [RTreeNode.childList]
  generalize n.children = v, n.count = k at hcount ⊢
  obtain ⟨⟨l⟩, hl⟩ := v
  obtain ⟨a, b, c, rfl⟩ := List.length_eq_three.1 hl
  obtain ⟨k, rfl⟩ := Nat.exists_eq_add_of_le' hcount
  rfl

/-- The bound that is computed from the children is around all of them. -/
theorem le_boundOfChildren {n : RTreeNode} (hcount : 1 ≤ n.count) :
    ∀ c ∈ n.childList, (t.node c).bound ≤ t.boundOfChildren n := by
  have hfold (l : List ℕ) (b : Rectangle) :
      b ≤ l.foldl (fun bound c => rectangleMbr bound (t.node c).bound) b ∧
        ∀ c ∈ l, (t.node c).bound ≤ l.foldl (fun bound c => rectangleMbr bound (t.node c).bound) b := by
    induction l generalizing b with
    | nil => exact ⟨le_refl b, by simp⟩
    | cons a l ih =>
      obtain ⟨hb, hl⟩ := ih (rectangleMbr b (t.node a).bound)
      refine ⟨(le_rectangleMbr_left b _).trans hb, List.forall_mem_cons.2 ⟨?_, hl⟩⟩
      exact (le_rectangleMbr_right b _).trans hb
  obtain ⟨hfirst, hrest⟩ := hfold (n.childList.drop 1) (t.node n.children[0]).bound
  rw [childList_eq_cons hcount]
  exact List.forall_mem_cons.2 ⟨hfirst, hrest⟩

/-- The loop that computes bounds anew ends, and leaves no bound too small. -/
theorem rebound_spec (fuel : ℕ) {o : Option ℕ} (hs : t.Shape root none ht)
    (hc : t.Cover fun c => (t.node c).parent = o)
    (ho : ∀ q, o = some q → q < t.next ∧ (t.node q).isLeaf = false ∧ ht root < ht q + fuel) :
    ∃ t', rebound fuel t o = .ok t' ∧ t.Rebound t' ∧ t'.Cover fun _ => False := by
  induction fuel generalizing t o with
  | zero =>
    cases o with
    | none => exact ⟨t, rfl, .refl t, hc.leaf, fun p hp hinner c hmem _ =>
        hc.edge p hp hinner c hmem fun hnone => by
          cases hnone.symm.trans (hs.child p hp hinner c hmem).2.1⟩
    | some q =>
      obtain ⟨hq, _, hfuel⟩ := ho q rfl
      have := hs.height_le q hq
      omega
  | succ fuel ih =>
    cases o with
    | none => exact ⟨t, rfl, .refl t, hc.leaf, fun p hp hinner c hmem _ =>
        hc.edge p hp hinner c hmem fun hnone => by
          cases hnone.symm.trans (hs.child p hp hinner c hmem).2.1⟩
    | some q =>
      obtain ⟨hq, hinner, hfuel⟩ := ho q rfl
      have hr := Rebound.setBound t q (t.boundOfChildren (t.node q))
      have hcover : (t.setBound q (t.boundOfChildren (t.node q))).Cover
          fun c => ((t.setBound q (t.boundOfChildren (t.node q))).node c).parent =
            ((t.setBound q (t.boundOfChildren (t.node q))).node q).parent := by
        refine ⟨leafCover_setBound hinner hc _, fun p hp hp' c hc' hne => ?_⟩
        rw [hr.isLeaf] at hp'
        rw [hr.childList] at hc'
        rw [hr.parent, hr.parent] at hne
        obtain ⟨_, hparent, _⟩ := hs.child p hp hp' c hc'
        have hcq : c ≠ q := by
          rintro rfl
          exact hne rfl
        rw [bound_setBound_of_ne t hcq]
        by_cases hpq : p = q
        · subst hpq
          rw [bound_setBound_self]
          exact le_boundOfChildren (hs.count p hq).1 c hc'
        · rw [bound_setBound_of_ne t hpq]
          refine hc.edge p hp hp' c hc' fun hparent' => ?_
          exact hpq (Option.some.inj (hparent.symm.trans hparent'))
      obtain ⟨t', hok, hr', hcover'⟩ := ih (hr.shape hs) hcover fun q' hq' => by
        rw [hr.parent] at hq'
        obtain ⟨hlt, hinner', _, hheight⟩ := hs.of_parent hq nofun hq'
        exact ⟨hlt, (hr.isLeaf q').trans hinner', by omega⟩
      exact ⟨t', hok, hr.trans hr', hcover'⟩

end FootholdRTree

end Syrup
