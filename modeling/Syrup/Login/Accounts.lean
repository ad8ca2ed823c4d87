import Syrup.Exec
import Syrup.Lib.Arena

/-!
# The list of the accounts that are logged in

All workers of the login server share a list with a node for each account that is logged in
(`account.c`). A session has a pointer to the node of its account; when its character is in the game, the
node has the id of that.

A node is known by where it is in memory. For the statements, no two nodes are at the same place, and what
has been freed is kept; so what is done with a node that has been freed faults.
-/

namespace Syrup

/-- `struct AccountNode`, and where it is. -/
structure AccountNode where
  ref : ℕ
  id : ℕ
  cid : UInt32
  deriving DecidableEq

/-- The list, from `HEAD`, the nodes that have been freed, and where the next one will be. -/
structure AccountList where
  nodes : List AccountNode
  freed : List ℕ
  next : ℕ

namespace AccountList

variable (l : AccountList)

/-- Nobody is logged in. -/
def empty : AccountList := ⟨[], [], 0⟩

/-- `account_login`. -/
def accountLogin (alloc : Bool) (id : ℕ) : Option ℕ × AccountList :=
  if alloc ∧ ∀ node ∈ l.nodes, node.id ≠ id then
    (some l.next, { l with nodes := ⟨l.next, id, 0⟩ :: l.nodes, next := l.next + 1 })
  else (none, l)

/-- The node at this place, as for `account_get_id`. -/
def get (ref : ℕ) : Exec AccountNode := Exec.deref (l.nodes.find? (·.ref = ref))

/-- A node is taken out of the list, and freed. -/
def free (ref : ℕ) : AccountList :=
  { l with nodes := l.nodes.filter (·.ref ≠ ref), freed := ref :: l.freed }

/-- `account_logout`. -/
def accountLogout (ref : ℕ) : Exec AccountList := do
  let _ ← l.get ref
  return l.free ref

/-- The id of a character is written into a node. -/
def write (ref : ℕ) (cid : UInt32) : AccountList :=
  { l with nodes := l.nodes.map fun node => if node.ref = ref then { node with cid := cid } else node }

/-- `account_set_cid`. -/
def accountSetCid (ref : ℕ) (cid : UInt32) : Exec AccountList := do
  let _ ← l.get ref
  return l.write ref cid

/-- `account_logout_by_cid`. -/
def accountLogoutByCid (cid : UInt32) : AccountList :=
  match l.nodes.find? (·.cid = cid) with
  | none => l
  | some node => l.free node.ref

/-- The places where nodes are, and have been. -/
def places : Arena := ⟨l.nodes.map (·.ref), l.freed, l.next⟩

/-- Every node that there has been is in the list once, or has been freed once. -/
def Kept : Prop := l.places.Kept

variable {l}

theorem kept_empty : empty.Kept := Arena.kept_empty

theorem Kept.nodup (h : l.Kept) : (l.nodes.map (·.ref)).Nodup := Arena.Kept.nodup h

/-- Two nodes at the same place are one. -/
theorem Kept.ext (h : l.Kept) {node node' : AccountNode} (hnode : node ∈ l.nodes)
    (hnode' : node' ∈ l.nodes) (href : node.ref = node'.ref) : node = node' :=
  List.inj_on_of_nodup_map h.nodup hnode hnode' href

theorem Kept.get (h : l.Kept) {node : AccountNode} (hnode : node ∈ l.nodes) :
    l.get node.ref = .ok node := by
  obtain ⟨node', hfind⟩ : ∃ node', l.nodes.find? (·.ref = node.ref) = some node' :=
    Option.isSome_iff_exists.1 (List.find?_isSome.2 ⟨node, hnode, decide_eq_true rfl⟩)
  have href : node'.ref = node.ref := of_decide_eq_true (List.find?_some hfind :)
  rw [AccountList.get, hfind, h.ext (List.mem_of_find?_eq_some hfind) hnode href]
  rfl

theorem Kept.push (h : l.Kept) (id : ℕ) :
    Kept { l with nodes := ⟨l.next, id, 0⟩ :: l.nodes, next := l.next + 1 } :=
  Arena.Kept.alloc h

theorem Kept.free (h : l.Kept) {node : AccountNode} (hnode : node ∈ l.nodes) :
    (l.free node.ref).Kept := by
  have herase : (l.nodes.filter (·.ref ≠ node.ref)).map (·.ref) =
      (l.nodes.map (·.ref)).erase node.ref := by
    rw [h.nodup.erase_eq_filter, List.filter_map]
    refine congrArg _ (List.filter_congr fun node' _ => ?_)
    rw [Function.comp_apply, ← Bool.decide_coe (node'.ref != node.ref)]
    exact decide_eq_decide.2 bne_iff_ne.symm
  rw [Kept, AccountList.places, AccountList.free, herase]
  exact Arena.Kept.release h (List.mem_map_of_mem hnode)

theorem Kept.write (h : l.Kept) (ref : ℕ) (cid : UInt32) : (l.write ref cid).Kept := by
  have hrefs : (l.write ref cid).nodes.map (·.ref) = l.nodes.map (·.ref) := by
    rw [AccountList.write, List.map_map]
    refine List.map_congr_left fun node _ => ?_
    rw [Function.comp_apply]
    split <;> rfl
  rw [Kept, AccountList.places, hrefs]
  exact h

/-- The nodes after the id of a character has been written into one of them. -/
theorem Kept.mem_write (h : l.Kept) {node node' : AccountNode} (hnode : node ∈ l.nodes)
    (cid : UInt32) : node' ∈ (l.write node.ref cid).nodes ↔
      node' = { node with cid := cid } ∨ (node' ∈ l.nodes ∧ node'.ref ≠ node.ref) := by
  rw [AccountList.write, List.mem_map]
  constructor
  · rintro ⟨node₀, hnode₀, rfl⟩
    by_cases href : node₀.ref = node.ref
    · obtain rfl := h.ext hnode₀ hnode href
      exact .inl (if_pos rfl)
    · rw [if_neg href]
      exact .inr ⟨hnode₀, href⟩
  · rintro (rfl | ⟨hnode', href⟩)
    · exact ⟨node, hnode, if_pos rfl⟩
    · exact ⟨node', hnode', if_neg href⟩

theorem mem_free {node : AccountNode} {ref : ℕ} :
    node ∈ (l.free ref).nodes ↔ node ∈ l.nodes ∧ node.ref ≠ ref := by
  rw [AccountList.free, List.mem_filter, decide_eq_true_eq]

end AccountList

end Syrup
