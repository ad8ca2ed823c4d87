import Syrup.Footholds.Insert

/-!
# Search finds the nearest foothold

`foothold_tree_find_below` passes over a node only if it would pass over all footholds below it, so that it
finds what a look at all footholds finds: one of those that are below a point, and none of them is nearer
(`IsNearest`).

* `treeFindBelow_spec`: what is found below a node;
* `footholds_nearest`: trees made by insertions are R-trees (`IsRTree`), and are searched so.
-/

namespace Syrup

/-! ## The nearest of some footholds -/

/-- A foothold that a search can find: one that is not passed over in its leaf. -/
def LeafTest (fh : Foothold) (p : Point) : Prop :=
  passedOver fh p = false ∧ 0 ≤ getDistanceBelow fh p ∧ getDistanceBelow fh p < int16Max

/-- Of some footholds none is below a point, or the nearest is one that is. -/
inductive IsNearest (S : Foothold → Prop) (p : Point) : Option Foothold → Prop
  | none (h : ∀ fh, S fh → ¬LeafTest fh p) : IsNearest S p none
  | some {fh : Foothold} (hmem : S fh) (htest : LeafTest fh p)
      (hleast : ∀ f, S f → LeafTest f p → getDistanceBelow fh p ≤ getDistanceBelow f p) :
      IsNearest S p (some fh)

/-- The nearest so far, with its distance. -/
def Nearest.Of (S : Foothold → Prop) (p : Point) (min : Nearest) : Prop :=
  IsNearest S p min.1 ∧ min.2 = min.1.elim int16Max fun fh => getDistanceBelow fh p

namespace IsNearest

variable {S S' : Foothold → Prop} {p : Point} {r : Option Foothold}

theorem congr (h : IsNearest S p r) (hS : ∀ fh, S' fh ↔ S fh) : IsNearest S' p r := by
  obtain rfl : S' = S := funext fun fh => propext (hS fh)
  exact h

/-- Nothing is found exactly if nothing can be. -/
theorem eq_none_iff (h : IsNearest S p r) : r = Option.none ↔ ∀ fh, S fh → ¬LeafTest fh p := by
  cases h with
  | none h => exact iff_of_true rfl h
  | some hmem htest _ => exact iff_of_false nofun fun h => h _ hmem htest

end IsNearest

namespace Nearest.Of

variable {S S' : Foothold → Prop} {p : Point} {min : Nearest}

/-- Footholds that cannot be found do not matter. -/
theorem skip (h : min.Of S p) (hS : ∀ fh, S fh → S' fh)
    (hskip : ∀ fh, S' fh → ¬S fh → ¬LeafTest fh p) : min.Of S' p := by
  obtain ⟨hnearest, hdist⟩ := h
  obtain ⟨r, d⟩ := min
  refine ⟨?_, hdist⟩
  cases hnearest with
  | none h =>
    exact .none fun fh hfh => by
      by_cases hfh' : S fh
      · exact h fh hfh'
      · exact hskip fh hfh hfh'
  | some hmem htest hleast =>
    refine .some (hS _ hmem) htest fun f hf hftest => hleast f ?_ hftest
    by_contra hf'
    exact hskip f hf hf' hftest

/-- The nearer of the nearest so far and the nearest of others. -/
theorem take (h : min.Of S p) {fh : Foothold} (hfh : IsNearest S' p (some fh)) :
    (min.take fh p).Of (fun f => S f ∨ S' f) p := by
  obtain ⟨hnearest, hdist⟩ := h
  obtain ⟨r, d⟩ := min
  cases hfh with
  | some hmem htest hleast =>
    rw [Nearest.take]
    split
    · rename_i hlt
      refine ⟨.some (.inr hmem) htest fun f hf hftest => ?_, rfl⟩
      obtain hf | hf := hf
      · cases hnearest with
        | none h => exact absurd hftest (h f hf)
        | some _ _ hleast' =>
          change d = _ at hdist
          rw [hdist] at hlt
          exact Int16.le_of_lt (Int16.lt_of_lt_of_le hlt (hleast' f hf hftest))
      · exact hleast f hf hftest
    · rename_i hlt
      refine ⟨?_, hdist⟩
      cases hnearest with
      | none h =>
        change d = int16Max at hdist
        rw [hdist] at hlt
        exact absurd htest.2.2 hlt
      | some hmem' htest' hleast' =>
        refine .some (.inl hmem') htest' fun f hf hftest => ?_
        obtain hf | hf := hf
        · exact hleast' f hf hftest
        · change d = _ at hdist
          rw [hdist] at hlt
          exact Int16.le_trans (Int16.not_lt.1 hlt) (hleast f hf hftest)

/-- A foothold of a leaf is looked at. -/
theorem leafStep (h : min.Of S p) (fh : Foothold) :
    (leafStep p min fh).Of (fun f => S f ∨ f = fh) p := by
  have hskip (hfh : ¬LeafTest fh p) : min.Of (fun f => S f ∨ f = fh) p :=
    h.skip (fun _ => .inl) fun f hf hf' => hf.resolve_left hf' ▸ hfh
  rw [Syrup.leafStep]
  split
  · rename_i hpass
    exact hskip fun htest => Bool.false_ne_true (htest.1.symm.trans hpass)
  · rename_i hpass
    split
    · rename_i hneg
      exact hskip fun htest => Int16.not_le.2 hneg htest.2.1
    · rename_i hneg
      by_cases hlt : getDistanceBelow fh p < int16Max
      · have hself : IsNearest (· = fh) p (some fh) :=
          .some rfl ⟨Bool.eq_false_of_not_eq_true hpass, Int16.not_lt.1 hneg, hlt⟩
            fun f hf _ => hf ▸ Int16.le_refl _
        exact h.take hself
      · have hmin : min.take fh p = min := by
          rw [Nearest.take, if_neg]
          intro hlt'
          obtain ⟨hnearest, hdist⟩ := h
          obtain ⟨r, d⟩ := min
          cases hnearest with
          | none h =>
            change d = int16Max at hdist
            exact hlt (hdist ▸ hlt')
          | some _ htest _ =>
            change d = _ at hdist
            rw [hdist] at hlt'
            exact hlt (Int16.lt_trans hlt' htest.2.2)
        rw [hmin]
        exact hskip fun htest => hlt htest.2.2

end Nearest.Of

/-- All footholds of a leaf are looked at. -/
theorem Nearest.Of.foldl_leafStep {S : Foothold → Prop} {p : Point} {min : Nearest}
    (h : min.Of S p) (l : List Foothold) :
    (l.foldl (Syrup.leafStep p) min).Of (fun f => S f ∨ f ∈ l) p := by
  induction l generalizing S min with
  | nil =>
    have hS : (fun f => S f ∨ f ∈ ([] : List Foothold)) = S := by simp
    rw [hS]
    exact h
  | cons fh l ih =>
    have hS : (fun f => S f ∨ f ∈ fh :: l) = fun f => (S f ∨ f = fh) ∨ f ∈ l := by
      simp only [List.mem_cons, or_assoc]
    rw [hS]
    exact ih (h.leafStep fh)

/-- Nothing has been looked at. -/
theorem Nearest.of_none (p : Point) : Nearest.Of (fun _ => False) p (none, int16Max) :=
  ⟨.none fun _ h => h.elim, rfl⟩

namespace FootholdRTree

variable {t : FootholdRTree} {root : ℕ} {ht : ℕ → ℕ}

/-! ## Below a node -/

/-- A foothold is in a leaf below a node. -/
inductive Below (t : FootholdRTree) : ℕ → Foothold → Prop
  | leaf {p : ℕ} {fh : Foothold} (hleaf : (t.node p).isLeaf = true)
      (hmem : fh ∈ (t.node p).footholdList) : Below t p fh
  | inner {p c : ℕ} {fh : Foothold} (hinner : (t.node p).isLeaf = false)
      (hmem : c ∈ (t.node p).childList) (h : Below t c fh) : Below t p fh

theorem below_leaf_iff {p : ℕ} (hleaf : (t.node p).isLeaf = true) {fh : Foothold} :
    t.Below p fh ↔ fh ∈ (t.node p).footholdList := by
  refine ⟨fun h => ?_, .leaf hleaf⟩
  cases h with
  | leaf _ hmem => exact hmem
  | inner hinner => cases hinner.symm.trans hleaf

theorem below_inner_iff {p : ℕ} (hinner : (t.node p).isLeaf = false) {fh : Foothold} :
    t.Below p fh ↔ ∃ c ∈ (t.node p).childList, t.Below c fh := by
  refine ⟨fun h => ?_, fun ⟨c, hc, h⟩ => .inner hinner hc h⟩
  cases h with
  | leaf hleaf => cases hinner.symm.trans hleaf
  | inner _ hmem h => exact ⟨_, hmem, h⟩

/-- The bound of a node is around all footholds below it. -/
theorem Below.le_bound (hwf : t.Wf root ht) {p : ℕ} {fh : Foothold} (h : t.Below p fh)
    (hp : p < t.next) : footholdMbr fh ≤ (t.node p).bound := by
  induction h with
  | leaf hleaf hmem => exact hwf.cover.leaf _ hp hleaf _ hmem
  | inner hinner hmem _ ih =>
    exact (ih (hwf.shape.child _ hp hinner _ hmem).1).trans
      (hwf.cover.edge _ hp hinner _ hmem id)

/-- The footholds below a node are stored. -/
theorem Below.stored (hwf : t.Wf root ht) {p : ℕ} {fh : Foothold} (h : t.Below p fh)
    (hp : p < t.next) : fh ∈ t.stored := by
  induction h with
  | @leaf p _ hleaf hmem =>
    refine Multiset.mem_sum.2 ⟨p, Finset.mem_range.2 hp, ?_⟩
    rw [footholdsAt, if_pos hleaf]
    exact hmem
  | inner hinner hmem _ ih => exact ih (hwf.shape.child _ hp hinner _ hmem).1

/-- What is below a node is below the root. -/
theorem Below.up (hwf : t.Wf root ht) {p : ℕ} {fh : Foothold} (h : t.Below p fh)
    (hp : p < t.next) : t.Below root fh := by
  obtain ⟨n, hn⟩ : ∃ n, ht root - ht p = n := ⟨_, rfl⟩
  induction n generalizing p with
  | zero =>
    by_cases hroot : p = root
    · exact hroot ▸ h
    · obtain ⟨q, hq, hinner, hmem⟩ := hwf.shape.parent p hp hroot nofun
      have hheight := (hwf.shape.child q hq hinner p hmem).2.2.1
      have hle := hwf.shape.height_le q hq
      omega
  | succ n ih =>
    have hroot : p ≠ root := by
      rintro rfl
      omega
    obtain ⟨q, hq, hinner, hmem⟩ := hwf.shape.parent p hp hroot nofun
    have hheight := (hwf.shape.child q hq hinner p hmem).2.2.1
    exact ih (.inner hinner hmem h) hq (by omega)

/-- All that is stored is below the root. -/
theorem below_top_iff (hwf : t.Wf root ht) (fh : Foothold) : t.Below root fh ↔ fh ∈ t.stored := by
  refine ⟨fun h => h.stored hwf hwf.shape.root_lt, fun h => ?_⟩
  obtain ⟨p, hp, hmem⟩ := Multiset.mem_sum.1 h
  rw [footholdsAt] at hmem
  split at hmem
  · rename_i hleaf
    exact (Below.leaf hleaf hmem).up hwf (Finset.mem_range.1 hp)
  · cases hmem

/-! ## The search -/

/-- A node is passed over only if there is nothing to be found below it. -/
theorem not_leafTest_of_bound {fh : Foothold} {b : Rectangle} {p : Point} (hle : footholdMbr fh ≤ b)
    (h : b.sw.x > p.x ∨ b.sw.y < p.y) : ¬LeafTest fh p := by
  rintro ⟨hpass, -⟩
  obtain ⟨hx, hy, -, -⟩ := hle
  have hx₁ := Int16.le_trans hx (cMin_le_left _ _)
  have hx₂ := Int16.le_trans hx (cMin_le_right _ _)
  have hy₁ := Int16.le_trans (left_le_cMax _ _) hy
  have hy₂ := Int16.le_trans (right_le_cMax _ _) hy
  refine absurd hpass ?_
  rw [passedOver, decide_eq_false_iff_not, not_not]
  left
  obtain h | h := h
  · exact .inl ⟨Int16.lt_of_lt_of_le h hx₁, Int16.lt_of_lt_of_le h hx₂⟩
  · exact .inr (.inr ⟨Int16.lt_of_le_of_lt hy₁ h, Int16.lt_of_le_of_lt hy₂ h⟩)

/-- The loop over the children. -/
theorem foldlM_children {p : Point} (fuel : ℕ) {l : List ℕ} {S : Foothold → Prop} {min : Nearest}
    (hmin : min.Of S p)
    (hl : ∀ c ∈ l, ∃ r, treeFindBelow t p fuel c = .ok r ∧ IsNearest (t.Below c) p r) :
    ∃ min', l.foldlM (childStep (treeFindBelow t p fuel) p) min = .ok min' ∧
      min'.Of (fun f => S f ∨ ∃ c ∈ l, t.Below c f) p := by
  induction l generalizing S min with
  | nil => exact ⟨min, rfl, hmin.skip (fun _ => .inl) fun f hf hf' => by simp_all⟩
  | cons c l ih =>
    obtain ⟨⟨r, hr, hnearest⟩, hl⟩ := List.forall_mem_cons.1 hl
    have hS (f : Foothold) : (S f ∨ ∃ d ∈ c :: l, t.Below d f) ↔
        (S f ∨ t.Below c f) ∨ ∃ d ∈ l, t.Below d f := by
      simp only [List.mem_cons, exists_eq_or_imp, or_assoc]
    cases hr' : r with
    | none =>
      subst hr'
      have hstep : min.Of (fun f => S f ∨ t.Below c f) p :=
        hmin.skip (fun _ => .inl) fun f hf hf' =>
          (hnearest.eq_none_iff.1 rfl) f (hf.resolve_left hf')
      obtain ⟨min', hok, hmin'⟩ := ih hstep hl
      refine ⟨min', ?_, hmin'.1.congr hS, hmin'.2⟩
      rw [List.foldlM_cons, childStep, hr]
      exact hok
    | some current =>
      subst hr'
      obtain ⟨min', hok, hmin'⟩ := ih (hmin.take hnearest) hl
      refine ⟨min', ?_, hmin'.1.congr hS, hmin'.2⟩
      rw [List.foldlM_cons, childStep, hr]
      exact hok

/-- What is found below a node is the nearest of all footholds below it. -/
theorem treeFindBelow_spec (hwf : t.Wf root ht) (p : Point) {fuel node : ℕ} (hnode : node < t.next)
    (hfuel : ht node < fuel) :
    ∃ r, treeFindBelow t p fuel node = .ok r ∧ IsNearest (t.Below node) p r := by
  induction fuel generalizing node with
  | zero => exact absurd hfuel (Nat.not_lt_zero _)
  | succ fuel ih =>
    rw [treeFindBelow]
    split
    · rename_i hbound
      exact ⟨none, rfl, .none fun fh hfh =>
        not_leafTest_of_bound (hfh.le_bound hwf hnode) hbound⟩
    · split
      · rename_i hleaf
        refine ⟨_, rfl, ((Nearest.of_none p).foldl_leafStep _).1.congr fun fh => ?_⟩
        rw [below_leaf_iff hleaf, false_or]
      · rename_i hleaf
        have hinner := Bool.eq_false_of_not_eq_true hleaf
        obtain ⟨min', hok, hmin'⟩ := foldlM_children fuel (Nearest.of_none p)
          (l := (t.node node).childList) (t := t) fun c hc => by
            obtain ⟨hclt, -, hch, -⟩ := hwf.shape.child node hnode hinner c hc
            exact ih hclt (by omega)
        refine ⟨min'.1, ?_, hmin'.1.congr fun fh => ?_⟩
        · rw [hok]
          rfl
        · rw [below_inner_iff hinner, false_or]

/-! ## All trees that can be made -/

/-- A way down of some length. -/
inductive Path (t : FootholdRTree) (root : ℕ) : ℕ → ℕ → Prop
  | root : Path t root 0 root
  | step {n p c : ℕ} (h : Path t root n p) (hinner : (t.node p).isLeaf = false)
      (hmem : c ∈ (t.node p).childList) : Path t root (n + 1) c

/-- A node that is reached has been allocated, and is as far from the root as its height says. -/
theorem Path.spec (hwf : t.Wf root ht) {n p : ℕ} (h : t.Path root n p) :
    p < t.next ∧ ht p + n = ht root := by
  induction h with
  | root => exact ⟨hwf.shape.root_lt, rfl⟩
  | step _ hinner hmem ih =>
    obtain ⟨hclt, -, hch, -⟩ := hwf.shape.child _ ih.1 hinner _ hmem
    exact ⟨hclt, by omega⟩

/-- Every node is reached. -/
theorem exists_path (hwf : t.Wf root ht) {p : ℕ} (hp : p < t.next) : ∃ n, t.Path root n p := by
  obtain ⟨n, hn⟩ : ∃ n, ht root - ht p = n := ⟨_, rfl⟩
  induction n generalizing p with
  | zero =>
    by_cases hroot : p = root
    · exact ⟨0, hroot ▸ .root⟩
    · obtain ⟨q, hq, hinner, hmem⟩ := hwf.shape.parent p hp hroot nofun
      have hheight := (hwf.shape.child q hq hinner p hmem).2.2.1
      have hle := hwf.shape.height_le q hq
      omega
  | succ n ih =>
    have hroot : p ≠ root := by
      rintro rfl
      omega
    obtain ⟨q, hq, hinner, hmem⟩ := hwf.shape.parent p hp hroot nofun
    have hheight := (hwf.shape.child q hq hinner p hmem).2.2.1
    obtain ⟨k, hk⟩ := ih hq (by omega)
    exact ⟨k + 1, hk.step hinner hmem⟩

/-- A tree as it should be: all nodes are reached from the root, have one to three entries, and point to
    the nodes that they are in; all leaves are equally far from the root; and bounds are around all
    that is below them. -/
structure IsRTree (t : FootholdRTree) (root : ℕ) : Prop where
  root_eq : t.root = some root
  reached : ∀ p, p < t.next ↔ ∃ n, t.Path root n p
  count : ∀ p < t.next, 1 ≤ (t.node p).count ∧ (t.node p).count ≤ 3
  depth : ∀ p q n k, t.Path root n p → t.Path root k q → (t.node p).isLeaf = true →
    (t.node q).isLeaf = true → n = k
  root_parent : (t.node root).parent = none
  parent : ∀ p c, p < t.next → c < t.next →
    ((t.node c).parent = some p ↔ (t.node p).isLeaf = false ∧ c ∈ (t.node p).childList)
  nodup : ∀ p < t.next, (t.node p).isLeaf = false → (t.node p).childList.Nodup
  bound : ∀ p < t.next, (∀ fh, t.Below p fh → footholdMbr fh ≤ (t.node p).bound) ∧
    ((t.node p).isLeaf = false → ∀ c ∈ (t.node p).childList, (t.node c).bound ≤ (t.node p).bound)

theorem Wf.isRTree (hwf : t.Wf root ht) : t.IsRTree root where
  root_eq := hwf.root_eq
  reached _ := ⟨exists_path hwf, fun ⟨_, h⟩ => (h.spec hwf).1⟩
  count := hwf.shape.count
  depth p q n k hp hq hp' hq' := by
    obtain ⟨hplt, hn⟩ := hp.spec hwf
    obtain ⟨hqlt, hk⟩ := hq.spec hwf
    have hpz := (hwf.shape.leaf p hplt).1 hp'
    have hqz := (hwf.shape.leaf q hqlt).1 hq'
    omega
  root_parent := hwf.shape.root_parent
  parent p c hp hc := by
    refine ⟨fun h => ?_, fun ⟨hinner, hmem⟩ => (hwf.shape.child p hp hinner c hmem).2.1⟩
    obtain ⟨-, hinner, hmem, -⟩ := hwf.shape.of_parent hc nofun h
    exact ⟨hinner, hmem⟩
  nodup := hwf.shape.nodup
  bound p hp := ⟨fun _ hfh => hfh.le_bound hwf hp,
    fun hinner c hmem => hwf.cover.edge p hp hinner c hmem id⟩

section Insertions

variable (m : Measures)

/-- The first foothold makes a leaf. -/
theorem insertFoothold_empty (fh : Foothold) : ∃ t, insertFoothold m empty fh = .ok t ∧
    t.Wf 0 (fun _ => 0) ∧ t.stored = {fh} := by
  have hnode {p : ℕ} (hp : p < 1) : p = 0 := Nat.lt_one_iff.1 hp
  refine ⟨_, rfl, ⟨rfl, ⟨Nat.one_pos, rfl, fun p hp => ?_, fun p hp => ?_, fun p hp h => ?_,
    fun p hp h => ?_, fun c hc h => absurd (hnode hc) h, fun _ _ => le_refl 0, Nat.one_pos, nofun⟩,
    fun p hp _ f hf => ?_, fun p hp h => ?_⟩, ?_⟩
  · obtain rfl := hnode hp
    exact ⟨le_refl 1, Nat.le_succ_of_le (Nat.le_succ 1)⟩
  · obtain rfl := hnode hp
    exact iff_of_true rfl rfl
  · obtain rfl := hnode hp
    cases h
  · obtain rfl := hnode hp
    cases h
  · obtain rfl := hnode hp
    obtain rfl : f = fh := List.mem_singleton.1 hf
    exact le_refl _
  · obtain rfl := hnode hp
    cases h
  · exact (Finset.sum_range_one _).trans rfl

theorem foldlM_insertFoothold (hwf : t.Wf root ht) (fhs : List Foothold) :
    ∃ t' root' ht', fhs.foldlM (insertFoothold m) t = .ok t' ∧ t'.Wf root' ht' ∧
      t'.stored = ↑fhs + t.stored := by
  induction fhs generalizing t root ht with
  | nil => exact ⟨t, root, ht, rfl, hwf, (zero_add _).symm⟩
  | cons fh fhs ih =>
    obtain ⟨t₁, root₁, ht₁, hok₁, hwf₁, hstored₁⟩ := insertFoothold_spec m fh hwf
    obtain ⟨t', root', ht', hok, hwf', hstored⟩ := ih hwf₁
    refine ⟨t', root', ht', ?_, hwf', ?_⟩
    · rw [List.foldlM_cons, hok₁]
      exact hok
    · rw [hstored, hstored₁, ← Multiset.cons_coe, Multiset.cons_add, Multiset.add_cons]

end Insertions

end FootholdRTree

/-- Footholds that are inserted one by one. -/
def insertFootholds (m : Measures) (fhs : List Foothold) : Exec FootholdRTree :=
  fhs.foldlM (insertFoothold m) .empty

/-- Whatever the areas and lengths are, footholds that are inserted one by one make an R-tree that stores
    each of them once, and below every point the search finds the nearest of them. -/
theorem footholds_nearest (m : Measures) (fhs : List Foothold) (hne : fhs ≠ []) :
    ∃ t root, insertFootholds m fhs = .ok t ∧ t.IsRTree root ∧ t.stored = ↑fhs ∧
      ∀ p, ∃ r, footholdTreeFindBelow t p = .ok r ∧
        (r = none ↔ ∀ fh ∈ fhs, ¬LeafTest fh p) ∧
        ∀ fh, r = some fh → fh ∈ fhs ∧ LeafTest fh p ∧
          ∀ f ∈ fhs, LeafTest f p → getDistanceBelow fh p ≤ getDistanceBelow f p := by
  obtain ⟨fh, fhs, rfl⟩ := List.exists_cons_of_ne_nil hne
  obtain ⟨t₁, hok₁, hwf₁, hstored₁⟩ := FootholdRTree.insertFoothold_empty m fh
  obtain ⟨t, root, ht, hok, hwf, hstored⟩ := FootholdRTree.foldlM_insertFoothold m hwf₁ fhs
  have hall : t.stored = ↑(fh :: fhs) := by
    rw [hstored, hstored₁, add_comm, Multiset.singleton_add, Multiset.cons_coe]
  refine ⟨t, root, ?_, hwf.isRTree, hall, fun p => ?_⟩
  · rw [insertFootholds, List.foldlM_cons, hok₁]
    exact hok
  · obtain ⟨r, hr, hnearest⟩ :=
      FootholdRTree.treeFindBelow_spec hwf p hwf.shape.root_lt hwf.shape.height_lt
    have hnearest : IsNearest (· ∈ fh :: fhs) p r := hnearest.congr fun f => by
      rw [FootholdRTree.below_top_iff hwf, hall, Multiset.mem_coe]
    refine ⟨r, ?_, hnearest.eq_none_iff, fun f hf => ?_⟩
    · rw [footholdTreeFindBelow, hwf.root_eq]
      exact hr
    · subst hf
      cases hnearest with
      | some hmem htest hleast => exact ⟨hmem, htest, hleast⟩

/-- A foothold that is level. -/
def level (id : UInt32) (x₁ x₂ y : Int16) : Foothold := ⟨id, ⟨x₁, y⟩, ⟨x₂, y⟩⟩

/-- A ledge over a floor. -/
theorem footholds_nearest_ledge :
    ∃ t root, insertFootholds .wrapped [level 1 0 100 50, level 2 20 40 10] = .ok t ∧
      t.IsRTree root ∧ t.stored = ↑[level 1 0 100 50, level 2 20 40 10] ∧
      ∀ p, ∃ r, footholdTreeFindBelow t p = .ok r ∧
        (r = none ↔ ∀ fh ∈ [level 1 0 100 50, level 2 20 40 10], ¬LeafTest fh p) := by
  obtain ⟨t, root, hok, htree, hstored, hfind⟩ :=
    footholds_nearest .wrapped [level 1 0 100 50, level 2 20 40 10] (List.cons_ne_nil _ _)
  refine ⟨t, root, hok, htree, hstored, fun p => ?_⟩
  obtain ⟨r, hr, hnone, -⟩ := hfind p
  exact ⟨r, hr, hnone⟩

/-- Four stairs do not fit into one leaf, and the one below a point is found. -/
example : (do
    let t ← insertFootholds .wrapped
      [level 1 0 10 50, level 2 10 20 40, level 3 20 30 30, level 4 30 40 20]
    let r ← footholdTreeFindBelow t ⟨25, 0⟩
    return (t.next, r)).Returns (· = (3, some (level 3 20 30 30))) := by
  decide +kernel

end Syrup
