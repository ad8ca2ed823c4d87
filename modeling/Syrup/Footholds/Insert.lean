import Syrup.Footholds.Tree

/-!
# Insertion keeps the tree

What each part of `insert_foothold` does to a tree: adding to a leaf (`addFoothold_spec`), splitting a leaf
(`splitLeaf_spec`), adding to an inner node (`addChild_spec`), splitting one (`splitNode_spec`), and
putting a new root on top (`newRoot_spec`). After a split there is an orphan, as high as the node that has
been split; `insertNode_spec` is the loop that finds a place for it, and `insertFoothold_spec` all of it.
-/

namespace Syrup

namespace FootholdRTree

variable {t t' : FootholdRTree} {root : ℕ} {orphan : Option ℕ} {ht : ℕ → ℕ}

/-! ## Leaves -/

theorem take_setIfInBounds {α : Type} (v : Vector α 3) {k : ℕ} (hk : k < 3) (a : α) :
    (v.setIfInBounds k a).toList.take (k + 1) = v.toList.take k ++ [a] := by
  obtain ⟨⟨l⟩, hl⟩ := v
  obtain ⟨x, y, z, rfl⟩ := List.length_eq_three.1 hl
  obtain rfl | rfl | rfl : k = 0 ∨ k = 1 ∨ k = 2 := by omega
  all_goals rfl

/-- The footholds in one node, and in all others. -/
theorem stored_eq {p : ℕ} (hp : p < t.next) :
    t.stored = t.footholdsAt p + ∑ q ∈ (Finset.range t.next).erase p, t.footholdsAt q :=
  (Finset.add_sum_erase _ _ (Finset.mem_range.2 hp)).symm

theorem sum_erase_congr (t t' : FootholdRTree) {p : ℕ}
    (h : ∀ q < t.next, q ≠ p → t'.footholdsAt q = t.footholdsAt q) :
    ∑ q ∈ (Finset.range t.next).erase p, t'.footholdsAt q =
      ∑ q ∈ (Finset.range t.next).erase p, t.footholdsAt q :=
  Finset.sum_congr rfl fun q hq =>
    h q (Finset.mem_range.1 (Finset.mem_of_mem_erase hq)) (Finset.ne_of_mem_erase hq)

/-- A foothold is added to a leaf. -/
theorem addFoothold_spec {node : ℕ} (fh : Foothold) (hs : t.Shape root none ht)
    (hc : t.Cover fun _ => False) (hnode : node < t.next) (hleaf : (t.node node).isLeaf = true)
    (hroom : (t.node node).count < 3) :
    (t.addFoothold node fh).Shape root none ht ∧ (t.addFoothold node fh).Cover (· = node) ∧
      (t.addFoothold node fh).stored = fh ::ₘ t.stored := by
  have hself : (t.addFoothold node fh).node node = { t.node node with
      footholds := (t.node node).footholds.setIfInBounds (t.node node).count fh
      count := (t.node node).count + 1
      bound := rectangleMbr (t.node node).bound (footholdMbr fh) } :=
    (t.node_setNode _ _ _).trans (if_pos rfl)
  have hother {q : ℕ} (hq : q ≠ node) : (t.addFoothold node fh).node q = t.node q :=
    (t.node_setNode _ _ _).trans (if_neg hq)
  have hlist : ((t.addFoothold node fh).node node).footholdList =
      (t.node node).footholdList ++ [fh] := by
    rw [hself, RTreeNode.footholdList]
    exact take_setIfInBounds _ hroom fh
  have hinner {q : ℕ} (hq : (t.node q).isLeaf = false) : q ≠ node := by
    rintro rfl
    cases hleaf.symm.trans hq
  have hisLeaf (q : ℕ) : ((t.addFoothold node fh).node q).isLeaf = (t.node q).isLeaf := by
    by_cases hq : q = node
    · rw [hq, hself]
    · rw [hother hq]
  refine ⟨hs.of_links rfl (fun q => ?_) hisLeaf (fun q hq => ?_) fun q hq => ?_, ⟨?_, ?_⟩, ?_⟩
  · by_cases hq : q = node
    · rw [hq, hself]
    · rw [hother hq]
  · rw [hother (hinner hq)]
  · by_cases hqn : q = node
    · rw [hqn, hself]
      exact ⟨Nat.succ_pos _, hroom⟩
    · rw [hother hqn]
      exact hs.count q hq
  · intro p hp hp' f hf
    by_cases hpn : p = node
    · subst hpn
      rw [hlist] at hf
      rw [hself]
      obtain hf | hf := List.mem_append.1 hf
      · exact (hc.leaf p hp hleaf f hf).trans (le_rectangleMbr_left _ _)
      · obtain rfl := List.mem_singleton.1 hf
        exact le_rectangleMbr_right _ _
    · rw [hother hpn] at hp' hf ⊢
      exact hc.leaf p hp hp' f hf
  · intro p hp hp' c hmem hcn
    rw [hisLeaf] at hp'
    rw [hother (hinner hp')] at hmem ⊢
    rw [hother hcn]
    exact hc.edge p hp hp' c hmem id
  · have hrest := sum_erase_congr t (t.addFoothold node fh) (p := node)
      fun q _ hq => by rw [footholdsAt, footholdsAt, hother hq]
    have hat : (t.addFoothold node fh).footholdsAt node = fh ::ₘ t.footholdsAt node := by
      rw [footholdsAt, footholdsAt, hisLeaf, if_pos hleaf, if_pos hleaf, hlist,
        ← Multiset.coe_add, ← Multiset.singleton_add, add_comm]
      rfl
    rw [stored_eq (t := t.addFoothold node fh) hnode, stored_eq hnode, hat, Multiset.cons_add]
    exact congrArg _ (congrArg _ hrest)

/-- A leaf and a foothold are split. -/
theorem splitLeafBy_spec {s : Split} (hok : s.Ok) {node : ℕ} (fh : Foothold)
    (hs : t.Shape root none ht) (hc : t.Cover fun _ => False) (hnode : node < t.next)
    (hleaf : (t.node node).isLeaf = true) (hfull : (t.node node).count = 3) :
    (t.splitLeafBy s node fh).Shape root (some t.next) (Function.update ht t.next 0) ∧
      (t.splitLeafBy s node fh).Cover (· = node) ∧
      (t.splitLeafBy s node fh).stored = fh ::ₘ t.stored := by
  obtain ⟨hkept, hkept'⟩ := Split.kept_eq hok (t.node node).footholds fh
  obtain ⟨hmoved, hmoved'⟩ := Split.moved_eq hok (t.node node).footholds fh
  obtain ⟨hkeptCount, hmovedCount⟩ := Split.length_entries hok
  rw [← hkept] at hkeptCount
  rw [← hmoved] at hmovedCount
  set kept := s.kept (t.node node).footholds fh
  set moved := s.moved (t.node node).footholds fh
  have hself : (t.splitLeafBy s node fh).node node = { t.node node with
      footholds := kept.1, count := kept.2, bound := mbrOf (kept.1.map footholdMbr) kept.2 } := by
    rw [splitLeafBy, node_setNode, if_pos rfl]
  have hnew : (t.splitLeafBy s node fh).node t.next = { (default : RTreeNode) with
      isLeaf := true, count := moved.2, footholds := moved.1
      bound := mbrOf (moved.1.map footholdMbr) moved.2 } := by
    rw [splitLeafBy, node_setNode, if_neg (Nat.ne_of_gt hnode), node_malloc, if_pos rfl]
  have hother {q : ℕ} (hq : q ≠ node) (hq' : q ≠ t.next) :
      (t.splitLeafBy s node fh).node q = t.node q := by
    rw [splitLeafBy, node_setNode, if_neg hq, node_malloc, if_neg hq']
  have hnext : (t.splitLeafBy s node fh).next = t.next + 1 := rfl
  generalize t.splitLeafBy s node fh = t₁ at hself hnew hother hnext ⊢
  have hinner {q : ℕ} (hq : q < t.next + 1) (hq' : (t₁.node q).isLeaf = false) :
      q ≠ node ∧ q < t.next ∧ t₁.node q = t.node q := by
    have hqn : q ≠ node := by
      rintro rfl
      rw [hself] at hq'
      cases hleaf.symm.trans hq'
    have hqnext : q ≠ t.next := by
      rintro rfl
      rw [hnew] at hq'
      cases hq'
    exact ⟨hqn, by omega, hother hqn hqnext⟩
  have hheight {q : ℕ} (hq : q < t.next) : Function.update ht t.next 0 q = ht q :=
    Function.update_of_ne (Nat.ne_of_lt hq) ..
  have hheight' : Function.update ht t.next 0 t.next = 0 := Function.update_self ..
  have hparent {q : ℕ} (hq : q < t.next) : (t₁.node q).parent = (t.node q).parent := by
    by_cases hqn : q = node
    · rw [hqn, hself]
    · rw [hother hqn (Nat.ne_of_lt hq)]
  refine ⟨⟨?_, ?_, ?_, ?_, ?_, ?_, ?_, ?_, ?_, ?_⟩, ⟨?_, ?_⟩, ?_⟩
  · rw [hnext]
    exact Nat.lt_succ_of_lt hs.root_lt
  · rw [hparent hs.root_lt]
    exact hs.root_parent
  · intro p hp
    by_cases hpn : p = node
    · rw [hpn, hself]
      exact hkeptCount
    · by_cases hpnext : p = t.next
      · rw [hpnext, hnew]
        exact hmovedCount
      · rw [hother hpn hpnext]
        exact hs.count p (by omega)
  · intro p hp
    by_cases hpn : p = node
    · rw [hpn, hself, hheight hnode]
      exact hs.leaf node hnode
    · by_cases hpnext : p = t.next
      · rw [hpnext, hnew, hheight']
        exact iff_of_true rfl rfl
      · rw [hother hpn hpnext, hheight (by omega)]
        exact hs.leaf p (by omega)
  · intro p hp hp' c hmem
    obtain ⟨-, hlt, heq⟩ := hinner (hnext ▸ hp) hp'
    rw [heq] at hp' hmem
    obtain ⟨hc, hcp, hch, -⟩ := hs.child p hlt hp' c hmem
    rw [hparent hc, hheight hc, hheight hlt, hnext]
    refine ⟨Nat.lt_succ_of_lt hc, hcp, hch, fun h => ?_⟩
    exact Nat.ne_of_gt hc (Option.some.inj h)
  · intro p hp hp'
    obtain ⟨-, hlt, heq⟩ := hinner (hnext ▸ hp) hp'
    rw [heq] at hp' ⊢
    exact hs.nodup p hlt hp'
  · intro c hc hroot ho
    have hlt : c < t.next := by
      rw [hnext] at hc
      exact Nat.lt_of_le_of_ne (Nat.le_of_lt_succ hc) fun h => ho (congrArg some h.symm)
    obtain ⟨p, hp, hp', hmem⟩ := hs.parent c hlt hroot nofun
    have hpn : p ≠ node := by
      rintro rfl
      cases hleaf.symm.trans hp'
    refine ⟨p, by omega, ?_, ?_⟩ <;> rw [hother hpn (Nat.ne_of_lt hp)]
    · exact hp'
    · exact hmem
  · intro p hp
    rw [hheight hs.root_lt]
    by_cases hpnext : p = t.next
    · rw [hpnext, hheight']
      exact Nat.zero_le _
    · rw [hheight (by omega)]
      exact hs.height_le p (by omega)
  · rw [hheight hs.root_lt, hnext]
    exact Nat.lt_succ_of_lt hs.height_lt
  · rintro _ ⟨⟩
    rw [hnext]
    exact ⟨Nat.lt_succ_self _, Nat.ne_of_gt hs.root_lt⟩
  · intro p hp hp' f hf
    have hmbr {v : Vector Foothold 3} {k : ℕ} (hk : 1 ≤ k ∧ k ≤ 3) (hf : f ∈ v.toList.take k) :
        footholdMbr f ≤ mbrOf (v.map footholdMbr) k := by
      refine le_mbrOf hk _ ?_
      rw [Vector.toList_map, ← List.map_take]
      exact List.mem_map_of_mem hf
    by_cases hpn : p = node
    · rw [hpn, hself] at hf ⊢
      exact hmbr hkeptCount hf
    · by_cases hpnext : p = t.next
      · rw [hpnext, hnew] at hf ⊢
        exact hmbr hmovedCount hf
      · rw [hother hpn hpnext] at hp' hf ⊢
        exact hc.leaf p (by omega) hp' f hf
  · intro p hp hp' c hmem hcn
    obtain ⟨-, hlt, heq⟩ := hinner (hnext ▸ hp) hp'
    rw [heq] at hp' hmem ⊢
    have hclt := (hs.child p hlt hp' c hmem).1
    rw [hother hcn (Nat.ne_of_lt hclt)]
    exact hc.edge p hlt hp' c hmem id
  · have hrest := sum_erase_congr t t₁ (p := node) fun q hq hqn => by
      rw [footholdsAt, footholdsAt, hother hqn (Nat.ne_of_lt hq)]
    have hall : (t.node node).footholdList = (t.node node).footholds.toList := by
      rw [RTreeNode.footholdList, hfull]
      exact List.take_of_length_le (Nat.le_of_eq Vector.length_toList)
    have hat : t₁.footholdsAt node + t₁.footholdsAt t.next = fh ::ₘ t.footholdsAt node := by
      rw [footholdsAt, footholdsAt, footholdsAt, hself, hnew, if_pos hleaf, if_pos hleaf,
        if_pos rfl, hall, Multiset.coe_add, Multiset.cons_coe, Multiset.coe_eq_coe]
      exact (Split.perm hok _ fh).trans (List.perm_append_singleton fh _)
    have hsum : t₁.stored = t₁.footholdsAt node + t₁.footholdsAt t.next +
        ∑ q ∈ (Finset.range t.next).erase node, t₁.footholdsAt q := by
      rw [stored, hnext, Finset.sum_range_succ,
        ← Finset.add_sum_erase _ _ (Finset.mem_range.2 hnode), add_right_comm]
    rw [hsum, hat, hrest, stored_eq hnode, Multiset.cons_add]

/-! ## Inner nodes -/

/-- A child is added to an inner node. -/
theorem addChild_spec {node new c₀ : ℕ} (hs : t.Shape root (some new) ht) (hc : t.Cover (· = c₀))
    (hc₀ : (t.node c₀).parent = some node) (hnode : node < t.next)
    (hinner : (t.node node).isLeaf = false) (hroom : (t.node node).count < 3)
    (hheight : ht new + 1 = ht node) :
    (t.addChild node new).Shape root none ht ∧
      ((t.addChild node new).Cover fun c => ((t.addChild node new).node c).parent = some node) ∧
      (t.addChild node new).stored = t.stored := by
  have hne : node ≠ new := by
    rintro rfl
    omega
  obtain ⟨hnew, hnewRoot⟩ := hs.orphan_lt new rfl
  have hself : (t.addChild node new).node node = { t.node node with
      children := (t.node node).children.setIfInBounds (t.node node).count new
      count := (t.node node).count + 1 } := by
    rw [addChild, node_setParent, node_setNode, if_pos rfl, if_neg hne]
  have hadded : (t.addChild node new).node new = { t.node new with parent := some node } := by
    rw [addChild, node_setParent, node_setNode, if_neg hne.symm, if_pos rfl]
  have hother {q : ℕ} (hq : q ≠ node) (hq' : q ≠ new) :
      (t.addChild node new).node q = t.node q := by
    rw [addChild, node_setParent, node_setNode, if_neg hq, if_neg hq']
  have hnext : (t.addChild node new).next = t.next := rfl
  generalize t.addChild node new = t₁ at hself hadded hother hnext ⊢
  have hlist : (t₁.node node).childList = (t.node node).childList ++ [new] := by
    rw [hself, RTreeNode.childList]
    exact take_setIfInBounds _ hroom new
  have hisLeaf (q : ℕ) : (t₁.node q).isLeaf = (t.node q).isLeaf := by
    by_cases hq : q = node
    · rw [hq, hself]
    · by_cases hq' : q = new
      · rw [hq', hadded]
      · rw [hother hq hq']
  have hbound (q : ℕ) : (t₁.node q).bound = (t.node q).bound := by
    by_cases hq : q = node
    · rw [hq, hself]
    · by_cases hq' : q = new
      · rw [hq', hadded]
      · rw [hother hq hq']
  have hparent {q : ℕ} (hq' : q ≠ new) : (t₁.node q).parent = (t.node q).parent := by
    by_cases hq : q = node
    · rw [hq, hself]
    · rw [hother hq hq']
  have hlist' {q : ℕ} (hq : q ≠ node) : (t₁.node q).childList = (t.node q).childList := by
    by_cases hq' : q = new
    · rw [hq', hadded]
      rfl
    · rw [hother hq hq']
  have hfootholds {q : ℕ} (hq : q ≠ node) :
      (t₁.node q).footholdList = (t.node q).footholdList := by
    by_cases hq' : q = new
    · rw [hq', hadded]
      rfl
    · rw [hother hq hq']
  have hleaf {q : ℕ} (hq : (t.node q).isLeaf = true) : q ≠ node := by
    rintro rfl
    cases hinner.symm.trans hq
  have hnotNew {p c : ℕ} (hp : p < t.next) (hp' : (t.node p).isLeaf = false)
      (hmem : c ∈ (t.node p).childList) : c ≠ new := fun h =>
    (hs.child p hp hp' c hmem).2.2.2 (congrArg some h.symm)
  refine ⟨⟨?_, ?_, ?_, ?_, ?_, ?_, ?_, ?_, ?_, (by simp)⟩, ⟨?_, ?_⟩, ?_⟩
  · rw [hnext]
    exact hs.root_lt
  · rw [hparent hnewRoot.symm]
    exact hs.root_parent
  · intro p hp
    by_cases hpn : p = node
    · rw [hpn, hself]
      exact ⟨Nat.succ_pos _, hroom⟩
    · by_cases hpn' : p = new
      · rw [hpn', hadded]
        exact hs.count new hnew
      · rw [hother hpn hpn']
        exact hs.count p (hnext ▸ hp)
  · intro p hp
    rw [hisLeaf]
    exact hs.leaf p (hnext ▸ hp)
  · intro p hp hp' c hmem
    rw [hisLeaf] at hp'
    rw [hnext] at hp ⊢
    by_cases hpn : p = node
    · subst hpn
      rw [hlist] at hmem
      obtain hmem | hmem := List.mem_append.1 hmem
      · obtain ⟨hclt, hcp, hch, -⟩ := hs.child p hp hp' c hmem
        exact ⟨hclt, (hparent (hnotNew hp hp' hmem)).trans hcp, hch, (by simp)⟩
      · obtain rfl := List.mem_singleton.1 hmem
        rw [hadded]
        exact ⟨hnew, rfl, hheight, (by simp)⟩
    · rw [hlist' hpn] at hmem
      obtain ⟨hclt, hcp, hch, -⟩ := hs.child p hp hp' c hmem
      exact ⟨hclt, (hparent (hnotNew hp hp' hmem)).trans hcp, hch, (by simp)⟩
  · intro p hp hp'
    rw [hisLeaf] at hp'
    by_cases hpn : p = node
    · subst hpn
      rw [hlist, List.nodup_append_comm, List.singleton_append, List.nodup_cons]
      exact ⟨fun hmem => hnotNew hnode hinner hmem rfl, hs.nodup p hnode hp'⟩
    · rw [hlist' hpn]
      exact hs.nodup p (hnext ▸ hp) hp'
  · intro c hclt hroot _
    by_cases hcn : c = new
    · refine ⟨node, hnext ▸ hnode, (hisLeaf node).trans hinner, ?_⟩
      rw [hlist, hcn]
      exact List.mem_append_right _ (List.mem_singleton_self _)
    · obtain ⟨p, hp, hp', hmem⟩ :=
        hs.parent c (hnext ▸ hclt) hroot fun h => hcn (Option.some.inj h).symm
      refine ⟨p, hnext ▸ hp, (hisLeaf p).trans hp', ?_⟩
      by_cases hpn : p = node
      · subst hpn
        rw [hlist]
        exact List.mem_append_left _ hmem
      · rwa [hlist' hpn]
  · intro p hp
    exact hs.height_le p (hnext ▸ hp)
  · rw [hnext]
    exact hs.height_lt
  · intro p hp hp' f hf
    rw [hisLeaf] at hp'
    rw [hfootholds (hleaf hp')] at hf
    rw [hbound]
    exact hc.leaf p (hnext ▸ hp) hp' f hf
  · intro p hp hp' c hmem hloose
    rw [hisLeaf] at hp'
    rw [hnext] at hp
    rw [hbound, hbound]
    by_cases hpn : p = node
    · -- All children of the node are loose.
      subst hpn
      rw [hlist] at hmem
      refine absurd ?_ hloose
      obtain hmem | hmem := List.mem_append.1 hmem
      · exact (hparent (hnotNew hp hp' hmem)).trans (hs.child p hp hp' c hmem).2.1
      · obtain rfl := List.mem_singleton.1 hmem
        rw [hadded]
    · rw [hlist' hpn] at hmem
      refine hc.edge p hp hp' c hmem ?_
      rintro rfl
      exact hpn (Option.some.inj ((hs.child p hp hp' c hmem).2.1.symm.trans hc₀))
  · rw [stored, stored, hnext]
    refine Finset.sum_congr rfl fun q _ => ?_
    rw [footholdsAt, footholdsAt, hisLeaf]
    split
    · rename_i hq
      rw [hfootholds (hleaf hq)]
    · rfl

theorem node_foldl_setParent (t : FootholdRTree) (l : List ℕ) (p q : ℕ) :
    (l.foldl (fun t c => t.setParent c p) t).node q =
      { t.node q with parent := if q ∈ l then some p else (t.node q).parent } := by
  induction l generalizing t with
  | nil => rw [List.foldl_nil, if_neg List.not_mem_nil]
  | cons c l ih =>
    rw [List.foldl_cons, ih, node_setParent]
    by_cases hq : q ∈ l
    · rw [if_pos hq, if_pos (List.mem_cons_of_mem c hq)]
    · rw [if_neg hq]
      by_cases hqc : q = c
      · rw [if_pos hqc, if_pos (List.mem_cons.2 (.inl hqc))]
      · rw [if_neg hqc, if_neg (fun h => (List.mem_cons.1 h).elim hqc hq)]

/-- The bound that is computed for children that are in use is around them. -/
theorem le_mbrOf_childBounds {n : RTreeNode} (hcount : 1 ≤ n.count ∧ n.count ≤ 3) :
    ∀ c ∈ n.childList, (t.node c).bound ≤ mbrOf (t.childBounds n) n.count := by
  intro c hc
  refine le_mbrOf hcount _ ?_
  rw [childBounds, Vector.toList_map, ← List.map_take]
  exact List.mem_map_of_mem (f := fun c => (t.node c).bound) hc

theorem next_foldl_setParent (t : FootholdRTree) (l : List ℕ) (p : ℕ) :
    (l.foldl (fun t c => t.setParent c p) t).next = t.next := by
  induction l generalizing t with
  | nil => rfl
  | cons c l ih => exact ih _

theorem next_relinkBy (t : FootholdRTree) (s : Split) (node new : ℕ) :
    (t.relinkBy s node new).next = t.next + 1 := by
  rw [relinkBy]
  split
  · rw [next_setParent, next_setNode, next_foldl_setParent, next_malloc]
  · rw [next_setNode, next_foldl_setParent, next_malloc]

theorem root_foldl_setParent (t : FootholdRTree) (l : List ℕ) (p : ℕ) :
    (l.foldl (fun t c => t.setParent c p) t).root = t.root := by
  induction l generalizing t with
  | nil => rfl
  | cons c l ih => exact ih _

theorem root_relinkBy (t : FootholdRTree) (s : Split) (node new : ℕ) :
    (t.relinkBy s node new).root = t.root := by
  rw [relinkBy]
  split
  · exact root_foldl_setParent _ _ _
  · exact root_foldl_setParent _ _ _

section Split

variable {s : Split} {node new : ℕ}

/-- What a split of an inner node makes of the nodes. -/
theorem relinkBy_nodes (hok : s.Ok) (hnode : node < t.next) (hne : node ≠ new)
    (hnew : new < t.next) :
    ((t.relinkBy s node new).node node = { t.node node with
      children := (s.kept (t.node node).children new).1
      count := (s.kept (t.node node).children new).2 }) ∧
    ((t.relinkBy s node new).node t.next = { (default : RTreeNode) with
      isLeaf := false, children := (s.moved (t.node node).children new).1
      count := (s.moved (t.node node).children new).2
      parent := if t.next ∈ s.movedEntries.map (pick (t.node node).children new) then some t.next
        else none }) ∧
    ∀ q, q ≠ node → q ≠ t.next → (t.relinkBy s node new).node q = { t.node q with
      parent := if q = new ∧ s.stays = true then some node
        else if q ∈ s.movedEntries.map (pick (t.node node).children new) then some t.next
        else (t.node q).parent } := by
  have hmoved := (Split.moved_eq hok (t.node node).children new).2
  have hnodeNext : node ≠ t.next := Nat.ne_of_lt hnode
  have hnewNext : new ≠ t.next := Nat.ne_of_lt hnew
  rw [relinkBy, hmoved]
  refine ⟨?_, ?_, fun q hq hq' => ?_⟩
  · split
    · rw [node_setParent, node_setNode, if_pos rfl, if_neg hne]
    · rw [node_setNode, if_pos rfl]
  · split
    · rw [node_setParent, node_setNode, if_neg hnodeNext.symm, node_foldl_setParent, node_malloc,
        if_pos rfl, if_neg hnewNext.symm]
      rfl
    · rw [node_setNode, if_neg hnodeNext.symm, node_foldl_setParent, node_malloc, if_pos rfl]
      rfl
  · split
    · rename_i hstays
      rw [node_setParent, node_setNode, if_neg hq, node_foldl_setParent, node_malloc, if_neg hq']
      by_cases hqn : q = new
      · rw [if_pos hqn, if_pos (⟨hqn, hstays⟩ : q = new ∧ s.stays = true)]
      · rw [if_neg hqn, if_neg (fun h => hqn h.1 : ¬(q = new ∧ s.stays = true))]
    · rename_i hstays
      rw [node_setNode, if_neg hq, node_foldl_setParent, node_malloc, if_neg hq',
        if_neg (fun h => hstays h.2 : ¬(q = new ∧ s.stays = true))]

/-- The children of a full node and an orphan. -/
theorem entries_of_full (hs : t.Shape root (some new) ht) (hnode : node < t.next)
    (hinner : (t.node node).isLeaf = false) (hfull : (t.node node).count = 3)
    (hheight : ht new + 1 = ht node) :
    (t.node node).childList = (t.node node).children.toList ∧
      ((t.node node).children.toList ++ [new]).Nodup ∧
      ∀ c ∈ (t.node node).children.toList ++ [new], c < t.next ∧ c ≠ node ∧ ht c + 1 = ht node := by
  have hall : (t.node node).childList = (t.node node).children.toList := by
    rw [RTreeNode.childList, hfull]
    exact List.take_of_length_le (Nat.le_of_eq Vector.length_toList)
  have hchild := hs.child node hnode hinner
  rw [hall] at hchild
  refine ⟨hall, ?_, fun c hc => ?_⟩
  · rw [List.nodup_append_comm, List.singleton_append, List.nodup_cons]
    refine ⟨fun hmem => (hchild new hmem).2.2.2 rfl, ?_⟩
    rw [← hall]
    exact hs.nodup node hnode hinner
  · have hlt : c < t.next ∧ ht c + 1 = ht node := by
      obtain hc | hc := List.mem_append.1 hc
      · obtain ⟨hclt, -, hch, -⟩ := hchild c hc
        exact ⟨hclt, hch⟩
      · obtain rfl := List.mem_singleton.1 hc
        exact ⟨(hs.orphan_lt c rfl).1, hheight⟩
    refine ⟨hlt.1, ?_, hlt.2⟩
    rintro rfl
    omega

/-- After the children have been divided, the new node is the orphan. -/
theorem relinkBy_shape (hok : s.Ok) (hs : t.Shape root (some new) ht) (hnode : node < t.next)
    (hinner : (t.node node).isLeaf = false) (hfull : (t.node node).count = 3)
    (hheight : ht new + 1 = ht node) :
    (t.relinkBy s node new).Shape root (some t.next) (Function.update ht t.next (ht node)) := by
  obtain ⟨hnewlt, hnewRoot⟩ := hs.orphan_lt new rfl
  have hne : node ≠ new := by
    rintro rfl
    omega
  obtain ⟨hall, hnodup, hentries⟩ := entries_of_full hs hnode hinner hfull hheight
  obtain ⟨hself, hfresh, hother⟩ := relinkBy_nodes (t := t) hok hnode hne hnewlt
  obtain ⟨hkept, hkept'⟩ := Split.kept_eq hok (t.node node).children new
  obtain ⟨hmoved, hmoved'⟩ := Split.moved_eq hok (t.node node).children new
  obtain ⟨hkeptCount, hmovedCount⟩ := Split.length_entries hok
  rw [← hkept] at hkeptCount
  rw [← hmoved] at hmovedCount
  have hperm := Split.perm hok (t.node node).children new
  have hstays := Split.last_mem_kept hok
  have hlast : pick (t.node node).children new 3 = new := rfl
  rw [hkept', hmoved'] at hperm
  have hnewKept : new ∈ s.keptEntries.map (pick (t.node node).children new) ↔ s.stays = true := by
    rw [← hstays, List.mem_map]
    constructor
    · rintro ⟨i, hi, heq⟩
      rw [← Split.map_pick] at hnodup
      exact List.inj_on_of_nodup_map hnodup (List.mem_finRange i) (List.mem_finRange 3)
        (heq.trans hlast.symm) ▸ hi
    · exact fun h => ⟨3, h, hlast⟩
  set K := s.keptEntries.map (pick (t.node node).children new)
  set M := s.movedEntries.map (pick (t.node node).children new)
  have hlistNode : ((t.relinkBy s node new).node node).childList = K := by
    rw [hself]
    exact hkept'
  have hlistNext : ((t.relinkBy s node new).node t.next).childList = M := by
    rw [hfresh]
    exact hmoved'
  have hnext : (t.relinkBy s node new).next = t.next + 1 := next_relinkBy t s node new
  generalize t.relinkBy s node new = t₁ at hself hfresh hother hlistNode hlistNext hnext ⊢
  have hmem (c : ℕ) : c ∈ K ∨ c ∈ M ↔ c ∈ (t.node node).childList ∨ c = new := by
    rw [← List.mem_append, hperm.mem_iff, hall, List.mem_append, List.mem_singleton]
  obtain ⟨hnodupK, hnodupM, hdisjoint⟩ := List.nodup_append.1 (hperm.nodup_iff.2 hnodup)
  have hentry {c : ℕ} (hc : c ∈ K ∨ c ∈ M) : c < t.next ∧ c ≠ node ∧ ht c + 1 = ht node :=
    hentries c (hperm.mem_iff.1 (List.mem_append.2 hc))
  have hnodeNext : node ≠ t.next := Nat.ne_of_lt hnode
  have hother' {q : ℕ} (hq : q < t.next) (hqn : q ≠ node) : t₁.node q = { t.node q with
      parent := if q = new ∧ s.stays = true then some node
        else if q ∈ M then some t.next else (t.node q).parent } :=
    hother q hqn (Nat.ne_of_lt hq)
  have hheights {q : ℕ} (hq : q < t.next) : Function.update ht t.next (ht node) q = ht q :=
    Function.update_of_ne (Nat.ne_of_lt hq) ..
  have hheightNext : Function.update ht t.next (ht node) t.next = ht node :=
    Function.update_self ..
  have hisLeaf {q : ℕ} (hq : q < t.next) : (t₁.node q).isLeaf = (t.node q).isLeaf := by
    by_cases hqn : q = node
    · rw [hqn, hself]
    · rw [hother' hq hqn]
  have hlist {q : ℕ} (hq : q < t.next) (hqn : q ≠ node) :
      (t₁.node q).childList = (t.node q).childList := by
    rw [hother' hq hqn]
    rfl
  -- A node that is in neither keeps its parent.
  have hparent {q : ℕ} (hq : q < t.next) (hK : q ∉ K) (hM : q ∉ M) :
      (t₁.node q).parent = (t.node q).parent := by
    by_cases hqn : q = node
    · rw [hqn, hself]
    · rw [hother' hq hqn, if_neg hM, if_neg]
      rintro ⟨rfl, hst⟩
      exact hK (hnewKept.2 hst)
  have hrootK : root ∉ K ∧ root ∉ M := by
    rw [← not_or, hmem]
    rintro (hc | hc)
    · cases hs.root_parent.symm.trans (hs.child node hnode hinner root hc).2.1
    · exact hnewRoot hc.symm
  refine ⟨?_, ?_, ?_, ?_, ?_, ?_, ?_, ?_, ?_, ?_⟩
  · rw [hnext]
    exact Nat.lt_succ_of_lt hs.root_lt
  · rw [hparent hs.root_lt hrootK.1 hrootK.2]
    exact hs.root_parent
  · intro p hp
    by_cases hpn : p = node
    · rw [hpn, hself]
      exact hkeptCount
    · by_cases hpnext : p = t.next
      · rw [hpnext, hfresh]
        exact hmovedCount
      · rw [hother p hpn hpnext]
        exact hs.count p (by omega)
  · intro p hp
    by_cases hpnext : p = t.next
    · rw [hpnext, hfresh, hheightNext]
      exact iff_of_false Bool.false_ne_true ((hs.inner hnode).1 hinner)
    · rw [hisLeaf (by omega), hheights (by omega)]
      exact hs.leaf p (by omega)
  · intro p hp hp' c hc
    have hlt : c < t.next ∧ (t₁.node c).parent = some p ∧
        ht c + 1 = Function.update ht t.next (ht node) p := by
      by_cases hpn : p = node
      · subst hpn
        rw [hlistNode] at hc
        obtain ⟨hclt, hcp, hch⟩ := hentry (.inl hc)
        have hcM : c ∉ M := fun hM => hdisjoint c hc c hM rfl
        refine ⟨hclt, ?_, by rw [hheights hnode, hch]⟩
        rw [hother' hclt hcp, if_neg hcM]
        by_cases hcn : c = new
        · rw [if_pos ⟨hcn, hnewKept.1 (hcn ▸ hc)⟩]
        · rw [if_neg fun h => hcn h.1]
          have hmem' := ((hmem c).1 (.inl hc)).resolve_right hcn
          exact (hs.child p hnode hinner c hmem').2.1
      · by_cases hpnext : p = t.next
        · subst hpnext
          rw [hlistNext] at hc
          obtain ⟨hclt, hcp, hch⟩ := hentry (.inr hc)
          refine ⟨hclt, ?_, by rw [hheightNext, hch]⟩
          rw [hother' hclt hcp, if_pos hc, if_neg]
          rintro ⟨rfl, hst⟩
          exact hdisjoint c (hnewKept.2 hst) c hc rfl
        · have hplt : p < t.next := by omega
          rw [hisLeaf hplt] at hp'
          rw [hlist hplt hpn] at hc
          obtain ⟨hclt, hcp, hch, hcn⟩ := hs.child p hplt hp' c hc
          have hcKM : ¬(c ∈ K ∨ c ∈ M) := by
            rw [hmem]
            rintro (hc' | hc')
            · have hcp' := (hs.child node hnode hinner c hc').2.1
              exact hpn (Option.some.inj (hcp.symm.trans hcp'))
            · exact hcn (congrArg some hc'.symm)
          obtain ⟨hcK, hcM⟩ := not_or.1 hcKM
          exact ⟨hclt, (hparent hclt hcK hcM).trans hcp, by rw [hheights hplt, hch]⟩
    refine ⟨by omega, hlt.2.1, by rw [hheights hlt.1, hlt.2.2], fun h => ?_⟩
    exact Nat.ne_of_gt hlt.1 (Option.some.inj h)
  · intro p hp hp'
    by_cases hpn : p = node
    · rw [hpn, hlistNode]
      exact hnodupK
    · by_cases hpnext : p = t.next
      · rw [hpnext, hlistNext]
        exact hnodupM
      · have hplt : p < t.next := by omega
        rw [hisLeaf hplt] at hp'
        rw [hlist hplt hpn]
        exact hs.nodup p hplt hp'
  · intro c hc hroot ho
    have hclt : c < t.next := by
      rw [hnext] at hc
      exact Nat.lt_of_le_of_ne (Nat.le_of_lt_succ hc) fun h => ho (congrArg some h.symm)
    by_cases hcK : c ∈ K
    · exact ⟨node, by omega, (hisLeaf hnode).trans hinner, hlistNode.symm ▸ hcK⟩
    by_cases hcM : c ∈ M
    · refine ⟨t.next, by omega, ?_, hlistNext.symm ▸ hcM⟩
      rw [hfresh]
    have hcn := not_or.1 fun h => (not_or.2 ⟨hcK, hcM⟩) ((hmem c).2 h)
    obtain ⟨p, hp, hp', hc'⟩ := hs.parent c hclt hroot fun h => hcn.2 (Option.some.inj h).symm
    have hpn : p ≠ node := by
      rintro rfl
      exact hcn.1 hc'
    exact ⟨p, by omega, (hisLeaf hp).trans hp', (hlist hp hpn).symm ▸ hc'⟩
  · intro p hp
    rw [hheights hs.root_lt]
    by_cases hpnext : p = t.next
    · rw [hpnext, hheightNext]
      exact hs.height_le node hnode
    · rw [hheights (by omega)]
      exact hs.height_le p (by omega)
  · rw [hheights hs.root_lt, hnext]
    exact Nat.lt_succ_of_lt hs.height_lt
  · rintro _ ⟨⟩
    rw [hnext]
    exact ⟨Nat.lt_succ_self _, Nat.ne_of_gt hs.root_lt⟩

/-- Only bounds are written after the children have been divided. -/
theorem rebound_splitNodeBy (t : FootholdRTree) (s : Split) (node new : ℕ) :
    (t.relinkBy s node new).Rebound (t.splitNodeBy s node new) :=
  (Rebound.setBound _ _ _).trans (Rebound.setBound _ _ _)

/-- The bounds that are written are around the children, the bounds of which stay as they are. -/
theorem bound_splitNodeBy (s : Split) (new : ℕ) (hnode : node < t.next) :
    (∀ q, q ≠ node → q ≠ t.next →
      ((t.splitNodeBy s node new).node q).bound = ((t.relinkBy s node new).node q).bound) ∧
    ((t.splitNodeBy s node new).node node).bound =
      mbrOf ((t.relinkBy s node new).childBounds ((t.relinkBy s node new).node node))
        ((t.relinkBy s node new).node node).count ∧
    ((1 ≤ ((t.relinkBy s node new).node t.next).count ∧
        ((t.relinkBy s node new).node t.next).count ≤ 3) →
      ∀ c ∈ ((t.relinkBy s node new).node t.next).childList, c ≠ node →
        ((t.relinkBy s node new).node c).bound ≤ ((t.splitNodeBy s node new).node t.next).bound) := by
  rw [splitNodeBy]
  generalize t.relinkBy s node new = t₀
  refine ⟨fun q hq hq' => ?_, ?_, fun hcount c hc hcn => ?_⟩
  · rw [bound_setBound_of_ne _ hq', bound_setBound_of_ne _ hq]
  · rw [bound_setBound_of_ne _ (Nat.ne_of_lt hnode), bound_setBound_self]
  · have hr := Rebound.setBound t₀ node (mbrOf (t₀.childBounds (t₀.node node)) (t₀.node node).count)
    rw [bound_setBound_self, ← bound_setBound_of_ne t₀ hcn]
    rw [← hr.childList] at hc
    rw [← hr.count] at hcount
    exact le_mbrOf_childBounds hcount c hc

/-- An inner node and an orphan are split. -/
theorem splitNodeBy_spec (hok : s.Ok) (hs : t.Shape root (some new) ht)
    (hc : t.Cover fun c => (t.node c).parent = some node) (hnode : node < t.next)
    (hinner : (t.node node).isLeaf = false) (hfull : (t.node node).count = 3)
    (hheight : ht new + 1 = ht node) :
    (t.splitNodeBy s node new).Shape root (some t.next) (Function.update ht t.next (ht node)) ∧
      (t.splitNodeBy s node new).Cover (· = node) ∧
      (t.splitNodeBy s node new).stored = t.stored := by
  have hr := rebound_splitNodeBy t s node new
  have hshape := relinkBy_shape hok hs hnode hinner hfull hheight
  obtain ⟨hall, -, hentries⟩ := entries_of_full hs hnode hinner hfull hheight
  have hne : node ≠ new := by
    rintro rfl
    omega
  have hnodeNext : t.next ≠ node := Nat.ne_of_gt hnode
  obtain ⟨hself, hfresh, hother⟩ := relinkBy_nodes (t := t) hok hnode hne (hs.orphan_lt new rfl).1
  have hnext : (t.relinkBy s node new).next = t.next + 1 := next_relinkBy t s node new
  have hperm := Split.perm hok (t.node node).children new
  have hchildNode : ∀ c ∈ ((t.relinkBy s node new).node node).childList, c < t.next ∧ c ≠ node := by
    rw [hself]
    intro c hmem
    obtain ⟨hclt, hcn, -⟩ := hentries c (hperm.mem_iff.1 (List.mem_append_left _ hmem))
    exact ⟨hclt, hcn⟩
  have hchildNext : ∀ c ∈ ((t.relinkBy s node new).node t.next).childList, c < t.next ∧ c ≠ node := by
    rw [hfresh]
    intro c hmem
    obtain ⟨hclt, hcn, -⟩ := hentries c (hperm.mem_iff.1 (List.mem_append_right _ hmem))
    exact ⟨hclt, hcn⟩
  have hcountNode := hshape.count node (by omega)
  have hcountNext := hshape.count t.next (by omega)
  obtain ⟨hboundOther, hboundNode, hboundNext⟩ := bound_splitNodeBy s new hnode
  generalize t.splitNodeBy s node new = t₁ at hr hboundOther hboundNode hboundNext ⊢
  generalize t.relinkBy s node new = t₀ at *
  -- The bounds of all other nodes are as they have been.
  have hbound₀ {q : ℕ} (hq : q < t.next) (hqn : q ≠ node) : (t₀.node q).bound = (t.node q).bound := by
    rw [hother q hqn (Nat.ne_of_lt hq)]
  have hbound {q : ℕ} (hq : q < t.next) (hqn : q ≠ node) : (t₁.node q).bound = (t.node q).bound :=
    (hboundOther q hqn (Nat.ne_of_lt hq)).trans (hbound₀ hq hqn)
  have hlist {q : ℕ} (hq : q < t.next) (hqn : q ≠ node) :
      (t₁.node q).childList = (t.node q).childList := by
    rw [hr.childList, hother q hqn (Nat.ne_of_lt hq)]
    rfl
  have hisLeaf {q : ℕ} (hq : q < t.next) : (t₁.node q).isLeaf = (t.node q).isLeaf := by
    rw [hr.isLeaf]
    by_cases hqn : q = node
    · rw [hqn, hself]
    · rw [hother q hqn (Nat.ne_of_lt hq)]
  have hisLeafNext : (t₁.node t.next).isLeaf = false := by
    rw [hr.isLeaf, hfresh]
  have hleaf {q : ℕ} (hq : q < t.next + 1) (hq' : (t₁.node q).isLeaf = true) :
      q < t.next ∧ q ≠ node ∧ (t.node q).isLeaf = true := by
    have hqnext : q ≠ t.next := by
      rintro rfl
      cases hisLeafNext.symm.trans hq'
    have hlt : q < t.next := by omega
    rw [hisLeaf hlt] at hq'
    refine ⟨hlt, ?_, hq'⟩
    rintro rfl
    cases hinner.symm.trans hq'
  have hfootholds {q : ℕ} (hq : q < t.next) (hqn : q ≠ node) :
      (t₁.node q).footholdList = (t.node q).footholdList := by
    rw [hr.footholdList, hother q hqn (Nat.ne_of_lt hq)]
    rfl
  refine ⟨hr.shape hshape, ⟨?_, ?_⟩, ?_⟩
  · intro p hp hp' f hf
    rw [hr.next, hnext] at hp
    obtain ⟨hlt, hpn, hp'⟩ := hleaf hp hp'
    rw [hfootholds hlt hpn] at hf
    rw [hbound hlt hpn]
    exact hc.leaf p hlt hp' f hf
  · intro p hp hp' c hmem hcn
    rw [hr.next, hnext] at hp
    by_cases hpn : p = node
    · rw [hpn, hr.childList] at hmem
      rw [hpn, hboundNode, hboundOther c hcn (Nat.ne_of_lt (hchildNode c hmem).1)]
      exact le_mbrOf_childBounds hcountNode c hmem
    · by_cases hpnext : p = t.next
      · rw [hpnext, hr.childList] at hmem
        rw [hpnext, hboundOther c hcn (Nat.ne_of_lt (hchildNext c hmem).1)]
        exact hboundNext hcountNext c hmem hcn
      · have hlt : p < t.next := by omega
        rw [hisLeaf hlt] at hp'
        rw [hlist hlt hpn] at hmem
        obtain ⟨hclt, hcp, -, -⟩ := hs.child p hlt hp' c hmem
        rw [hbound hclt hcn, hbound hlt hpn]
        exact hc.edge p hlt hp' c hmem fun h => hpn (Option.some.inj (hcp.symm.trans h))
  · rw [stored, stored, hr.next, hnext, Finset.sum_range_succ]
    have hzero : t₁.footholdsAt t.next = 0 := by
      rw [footholdsAt, hisLeafNext]
      rfl
    rw [hzero, add_zero]
    refine Finset.sum_congr rfl fun q hq => ?_
    have hqlt := Finset.mem_range.1 hq
    rw [footholdsAt, footholdsAt, hisLeaf hqlt]
    split
    · rename_i hq'
      have hqn : q ≠ node := by
        rintro rfl
        cases hinner.symm.trans hq'
      rw [hfootholds hqlt hqn]
    · rfl

/-- A new root is put on top of the old one and an orphan of its height. -/
theorem newRoot_spec (hs : t.Shape root (some new) ht) (hc : t.Cover (· = root))
    (hheight : ht new = ht root) :
    (t.newRoot root new).Wf t.next (Function.update ht t.next (ht root + 1)) ∧
      (t.newRoot root new).stored = t.stored := by
  obtain ⟨hnew, hnewRoot⟩ := hs.orphan_lt new rfl
  have hnext : (t.newRoot root new).next = t.next + 1 := rfl
  have hroot : (t.newRoot root new).root = some t.next := rfl
  have hfresh : (t.newRoot root new).node t.next = { (default : RTreeNode) with
      parent := none, isLeaf := false, count := 2, children := #v[root, new, default]
      bound := rectangleMbr (t.node root).bound (t.node new).bound } := by
    change (((t.malloc _).setParent root t.next).setParent new t.next).node t.next = _
    rw [node_setParent, node_setParent, node_malloc, if_pos rfl, if_neg (Nat.ne_of_gt hs.root_lt),
      if_neg (Nat.ne_of_gt hnew)]
  have hother {q : ℕ} (hq : q < t.next) : (t.newRoot root new).node q = { t.node q with
      parent := if q = root ∨ q = new then some t.next else (t.node q).parent } := by
    change (((t.malloc _).setParent root t.next).setParent new t.next).node q = _
    rw [node_setParent, node_setParent, node_malloc, if_neg (Nat.ne_of_lt hq)]
    by_cases hqr : q = root
    · rw [if_pos hqr, if_pos (.inl hqr : q = root ∨ q = new), ite_self]
    · rw [if_neg hqr]
      by_cases hqn : q = new
      · rw [if_pos hqn, if_pos (.inr hqn : q = root ∨ q = new)]
      · rw [if_neg hqn, if_neg (not_or.2 ⟨hqr, hqn⟩)]
  generalize t.newRoot root new = t₁ at hnext hroot hfresh hother ⊢
  have hheights {q : ℕ} (hq : q < t.next) :
      Function.update ht t.next (ht root + 1) q = ht q := Function.update_of_ne (Nat.ne_of_lt hq) ..
  have hheightNext : Function.update ht t.next (ht root + 1) t.next = ht root + 1 :=
    Function.update_self ..
  have hlistNext : (t₁.node t.next).childList = [root, new] := by
    rw [hfresh]
    rfl
  have hlist {q : ℕ} (hq : q < t.next) : (t₁.node q).childList = (t.node q).childList := by
    rw [hother hq]
    rfl
  have hisLeaf {q : ℕ} (hq : q < t.next) : (t₁.node q).isLeaf = (t.node q).isLeaf := by
    rw [hother hq]
  have hbound {q : ℕ} (hq : q < t.next) : (t₁.node q).bound = (t.node q).bound := by
    rw [hother hq]
  have hlt {q : ℕ} (hq : q < t₁.next) (hqn : q ≠ t.next) : q < t.next := by
    omega
  have hchild {p : ℕ} (hp : p < t.next) (hp' : (t.node p).isLeaf = false) {c : ℕ}
      (hmem : c ∈ (t.node p).childList) :
      c < t.next ∧ (t₁.node c).parent = some p ∧ ht c + 1 = ht p ∧ c ≠ root := by
    obtain ⟨hclt, hcp, hch, hcn⟩ := hs.child p hp hp' c hmem
    have hcr : c ≠ root := by
      rintro rfl
      cases hs.root_parent.symm.trans hcp
    refine ⟨hclt, ?_, hch, hcr⟩
    rw [hother hclt, if_neg (not_or.2 ⟨hcr, fun h => hcn (congrArg some h.symm)⟩)]
    exact hcp
  refine ⟨⟨hroot, ⟨?_, ?_, ?_, ?_, ?_, ?_, ?_, ?_, ?_, nofun⟩, ⟨?_, ?_⟩⟩, ?_⟩
  · rw [hnext]
    exact Nat.lt_succ_self _
  · rw [hfresh]
  · intro p hp
    by_cases hpn : p = t.next
    · rw [hpn, hfresh]
      exact ⟨Nat.le_succ 1, Nat.le_succ 2⟩
    · rw [hother (hlt hp hpn)]
      exact hs.count p (hlt hp hpn)
  · intro p hp
    by_cases hpn : p = t.next
    · rw [hpn, hfresh, hheightNext]
      exact iff_of_false Bool.false_ne_true (Nat.succ_ne_zero _)
    · rw [hisLeaf (hlt hp hpn), hheights (hlt hp hpn)]
      exact hs.leaf p (hlt hp hpn)
  · intro p hp hp' c hmem
    by_cases hpn : p = t.next
    · rw [hpn, hlistNext] at hmem
      rw [hpn, hheightNext]
      obtain ⟨hclt, hcrn, hch⟩ : c < t.next ∧ (c = root ∨ c = new) ∧ ht c = ht root := by
        obtain rfl | hmem := List.mem_cons.1 hmem
        · exact ⟨hs.root_lt, .inl rfl, rfl⟩
        · obtain rfl := List.mem_singleton.1 hmem
          exact ⟨hnew, .inr rfl, hheight⟩
      rw [hother hclt, hheights hclt, if_pos hcrn, hch]
      exact ⟨by omega, rfl, rfl, nofun⟩
    · have hplt := hlt hp hpn
      rw [hisLeaf hplt] at hp'
      rw [hlist hplt] at hmem
      obtain ⟨hclt, hcp, hch, -⟩ := hchild hplt hp' hmem
      rw [hheights hclt, hheights hplt]
      exact ⟨by omega, hcp, hch, nofun⟩
  · intro p hp hp'
    by_cases hpn : p = t.next
    · rw [hpn, hlistNext]
      exact List.nodup_cons.2 ⟨by simpa using hnewRoot.symm, List.nodup_singleton new⟩
    · rw [hisLeaf (hlt hp hpn)] at hp'
      rw [hlist (hlt hp hpn)]
      exact hs.nodup p (hlt hp hpn) hp'
  · intro c hc hcn _
    have hclt := hlt hc hcn
    by_cases hcrn : c = root ∨ c = new
    · refine ⟨t.next, by omega, ?_, ?_⟩
      · rw [hfresh]
      · rw [hlistNext]
        simpa using hcrn
    · obtain ⟨hcr, hcn'⟩ := not_or.1 hcrn
      obtain ⟨p, hp, hp', hmem⟩ :=
        hs.parent c hclt hcr fun h => hcn' (Option.some.inj h).symm
      exact ⟨p, by omega, (hisLeaf hp).trans hp', (hlist hp).symm ▸ hmem⟩
  · intro p hp
    rw [hheightNext]
    by_cases hpn : p = t.next
    · rw [hpn, hheightNext]
    · rw [hheights (hlt hp hpn)]
      exact (hs.height_le p (hlt hp hpn)).trans (Nat.le_succ _)
  · have := hs.height_lt
    rw [hheightNext, hnext]
    omega
  · intro p hp hp' f hf
    have hpn : p ≠ t.next := by
      rintro rfl
      rw [hfresh] at hp'
      cases hp'
    rw [hother (hlt hp hpn)] at hp' hf ⊢
    exact hc.leaf p (hlt hp hpn) hp' f hf
  · intro p hp hp' c hmem _
    by_cases hpn : p = t.next
    · rw [hpn, hlistNext] at hmem
      rw [hpn, hfresh]
      obtain rfl | hmem := List.mem_cons.1 hmem
      · rw [hbound hs.root_lt]
        exact le_rectangleMbr_left _ _
      · obtain rfl := List.mem_singleton.1 hmem
        rw [hbound hnew]
        exact le_rectangleMbr_right _ _
    · have hplt := hlt hp hpn
      rw [hisLeaf hplt] at hp'
      rw [hlist hplt] at hmem
      obtain ⟨hclt, -, -, hcr⟩ := hchild hplt hp' hmem
      rw [hbound hclt, hbound hplt]
      exact hc.edge p hplt hp' c hmem hcr
  · have hzero : t₁.footholdsAt t.next = 0 := by
      rw [footholdsAt, hfresh]
      rfl
    rw [stored, stored, hnext, Finset.sum_range_succ, hzero, add_zero]
    refine Finset.sum_congr rfl fun q hq => ?_
    rw [footholdsAt, footholdsAt, hother (Finset.mem_range.1 hq)]
    rfl

end Split

/-! ## The whole insertion -/

section Insertion

variable (m : Measures)

theorem children_mem_childList {n : RTreeNode} {i : Fin 3} (h : i.val < n.count) :
    n.children[i] ∈ n.childList := by
  rw [RTreeNode.childList, List.mem_take_iff_getElem]
  refine ⟨i.val, ?_, ?_⟩
  · rw [Vector.length_toList]
    exact lt_min h i.isLt
  · exact Vector.getElem_toList _

/-- The loop down ends at a leaf. -/
theorem chooseLeaf_spec {fuel p : ℕ} (rect : Rectangle) (hs : t.Shape root none ht)
    (hp : p < t.next) (hfuel : ht p < fuel) :
    ∃ node, t.chooseLeaf m rect fuel p = .ok node ∧ node < t.next ∧
      (t.node node).isLeaf = true := by
  induction fuel generalizing p with
  | zero => exact absurd hfuel (Nat.not_lt_zero _)
  | succ fuel ih =>
    rw [chooseLeaf]
    split
    · rename_i hleaf
      exact ⟨p, rfl, hp, hleaf⟩
    · rename_i hleaf
      have hinner := Bool.eq_false_of_not_eq_true hleaf
      obtain ⟨hcount, hcount'⟩ := hs.count p hp
      have hindex := chooseChild_lt m (t.childBounds (t.node p)) rect hcount
      obtain ⟨hclt, -, hch, -⟩ := hs.child p hp hinner _ (children_mem_childList hindex)
      exact ih hclt (by omega)

/-- The loop that finds a place for an orphan ends. -/
theorem insertNode_spec (fuel : ℕ) {node new : ℕ} (hroot : t.root = some root)
    (hs : t.Shape root (some new) ht) (hc : t.Cover (· = node)) (hnode : node < t.next)
    (hne : node ≠ new) (hheight : ht new = ht node) (hfuel : ht root < ht node + fuel) :
    ∃ t' root' ht', t.insertNode m fuel node new = .ok t' ∧ t'.Wf root' ht' ∧
      t'.stored = t.stored := by
  induction fuel generalizing t node new ht with
  | zero =>
    have := hs.height_le node hnode
    omega
  | succ fuel ih =>
    have ho : some new ≠ some node := fun h => hne (Option.some.inj h).symm
    rw [insertNode]
    split
    · rename_i hparent
      obtain rfl := hs.eq_root hnode ho hparent
      obtain ⟨hwf, hstored⟩ := newRoot_spec hs hc hheight
      exact ⟨_, _, _, rfl, hwf, hstored⟩
    · rename_i p hparent
      obtain ⟨hp, hinner, hmem, hheight'⟩ := hs.of_parent hnode ho hparent
      split
      · rename_i hroom
        obtain ⟨hs', hc', hstored⟩ :=
          addChild_spec hs hc hparent hp hinner hroom (by omega)
        obtain ⟨t', hok, hr, hcover⟩ := rebound_spec (fuel + 1) hs' hc' fun q hq => by
          obtain rfl := Option.some.inj hq
          exact ⟨hp, (hs'.inner hp).2 (by omega), by omega⟩
        refine ⟨t', root, ht, hok, ⟨?_, hr.shape hs', hcover⟩, hr.stored.trans hstored⟩
        rw [hr.root]
        exact hroot
      · rename_i hroom
        have hfull : (t.node p).count = 3 := by
          have := (hs.count p hp).2
          omega
        have hloose : t.Cover fun c => (t.node c).parent = some p := by
          refine ⟨hc.leaf, fun q hq hq' c hmem' hne' => hc.edge q hq hq' c hmem' ?_⟩
          rintro rfl
          exact hne' hparent
        have hsplit := ok_chooseNodeSplit m (t.childBounds (t.node p)) (t.node new).bound
        obtain ⟨hs', hc', hstored⟩ :=
          splitNodeBy_spec hsplit hs hloose hp hinner hfull (by omega)
        have hnext : (t.splitNode m p new).next = t.next + 1 :=
          (rebound_splitNodeBy t _ p new).next.trans (next_relinkBy t _ p new)
        have hp' : Function.update ht t.next (ht p) p = ht p :=
          Function.update_of_ne (Nat.ne_of_lt hp) ..
        have hnew' : Function.update ht t.next (ht p) t.next = ht p := Function.update_self ..
        have hroot' : Function.update ht t.next (ht p) root = ht root :=
          Function.update_of_ne (Nat.ne_of_lt hs.root_lt) ..
        obtain ⟨t', root', ht', hok, hwf, hstored'⟩ := ih (t := t.splitNode m p new)
          (((rebound_splitNodeBy t _ p new).root.trans (root_relinkBy t _ p new)).trans hroot) hs' hc'
          (by omega) (Nat.ne_of_lt hp) (hnew'.trans hp'.symm) (by omega)
        exact ⟨t', root', ht', hok, hwf, hstored'.trans hstored⟩

/-- A foothold is added to a tree, wherever the measures have it put. -/
theorem insertFoothold_spec (fh : Foothold) (hwf : t.Wf root ht) :
    ∃ t' root' ht', insertFoothold m t fh = .ok t' ∧ t'.Wf root' ht' ∧
      t'.stored = fh ::ₘ t.stored := by
  obtain ⟨hroot, hs, hc⟩ := hwf
  obtain ⟨node, hchoose, hnode, hleaf⟩ :=
    chooseLeaf_spec m (footholdMbr fh) hs hs.root_lt hs.height_lt
  have hzero := (hs.leaf node hnode).1 hleaf
  have hfuel := hs.height_lt
  have hinsert : insertFoothold m t fh =
      if (t.node node).count < 3 then (t.addFoothold node fh).enlarge t.next node
      else (t.splitLeaf m node fh).insertNode m t.next node t.next := by
    simp only [insertFoothold, hroot, hchoose, Exec.ok_bind]
  rw [hinsert]
  split
  · rename_i hroom
    obtain ⟨hs', hc', hstored⟩ := addFoothold_spec fh hs hc hnode hleaf hroom
    obtain ⟨t', hok, hr, hcover⟩ := enlarge_spec t.next hs' hc' hnode (by omega)
    refine ⟨t', root, ht, hok, ⟨?_, hr.shape hs', hcover⟩, hr.stored.trans hstored⟩
    rw [hr.root]
    exact hroot
  · rename_i hroom
    have hfull : (t.node node).count = 3 := by
      have := (hs.count node hnode).2
      omega
    have hsplit := ok_chooseLeafSplit m ((t.node node).footholds.map footholdMbr) (footholdMbr fh)
    obtain ⟨hs', hc', hstored⟩ := splitLeafBy_spec hsplit fh hs hc hnode hleaf hfull
    have hnode' : Function.update ht t.next 0 node = ht node :=
      Function.update_of_ne (Nat.ne_of_lt hnode) ..
    have hnew' : Function.update ht t.next 0 t.next = 0 := Function.update_self ..
    have hroot' : Function.update ht t.next 0 root = ht root :=
      Function.update_of_ne (Nat.ne_of_lt hs.root_lt) ..
    obtain ⟨t', root', ht', hok, hwf, hstored'⟩ := insertNode_spec m t.next
      (t := t.splitLeaf m node fh) hroot hs' hc' (Nat.lt_succ_of_lt hnode) (Nat.ne_of_lt hnode)
      (by omega) (by omega)
    exact ⟨t', root', ht', hok, hwf, hstored'.trans hstored⟩

end Insertion

end FootholdRTree

end Syrup
