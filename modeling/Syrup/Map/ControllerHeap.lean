import Syrup.Exec
import Syrup.Lib.BinaryHeap

/-!
# The heap of controllers

`struct ControllerHeap` of `map.c`: a binary heap of pointers to nodes, one for each player of a map,
ordered by the number of monsters the node says the player controls. A node knows its place in the
heap, so that it can be taken out.

A node is known by a number, its address; one that has been freed is `none`.
-/

namespace Syrup

/-- A pointer to a `struct MapPlayer`: the block in which the players are, and the index of an entry. -/
structure PlayerRef where
  block : ℕ
  index : ℕ
  deriving DecidableEq, Repr

/-- `struct ControllerHeapNode`. -/
structure ControllerHeapNode where
  index : ℕ
  controlleeCount : ℕ
  controller : PlayerRef
  deriving DecidableEq, Repr

/-- `struct ControllerHeap`, and the nodes. -/
structure ControllerHeap where
  capacity : ℕ
  count : ℕ
  controllers : ℕ → ℕ
  node : ℕ → Option ControllerHeapNode
  nextNode : ℕ

/-- `heap_init`. -/
def heapInit : ControllerHeap where
  capacity := 1
  count := 0
  controllers _ := 0
  node _ := none
  nextNode := 0

namespace ControllerHeap

variable (heap : ControllerHeap)

/-- `heap->controllers[i]`, dereferenced. -/
def nodeAt (i : ℕ) : Exec ControllerHeapNode :=
  if i < heap.capacity then Exec.deref (heap.node (heap.controllers i)) else .error .outOfBounds

/-- `heap->controllers[i]->controlleeCount`. -/
def keyAt (i : ℕ) : Exec ℕ := do
  let node ← heap.nodeAt i
  return node.controlleeCount

/-- `heap->controllers[i]->index = i`. -/
def setIndex (i : ℕ) : Exec ControllerHeap := do
  let node ← heap.nodeAt i
  return { heap with node := Function.update heap.node (heap.controllers i) (some { node with index := i }) }

/-- `heap->controllers[i] = id`. -/
def setController (i id : ℕ) : ControllerHeap :=
  { heap with controllers := Function.update heap.controllers i id }

/-- `swap`. -/
def swap (i j : ℕ) : Exec ControllerHeap := do
  let tmp := heap.controllers i
  let heap ← (heap.setController i (heap.controllers j)).setIndex i
  (heap.setController j tmp).setIndex j

/-- `sift_down`; the loop is left after as many rounds as there are nodes. -/
def siftDown : ℕ → ControllerHeap → ℕ → Exec ControllerHeap
  | 0, _, _ => .error .divergence
  | fuel + 1, heap, i =>
    if i * 2 + 1 < heap.count then do
      let key ← heap.keyAt i
      let left ← heap.keyAt (i * 2 + 1)
      if i * 2 + 2 = heap.count then
        if key > left then heap.swap i (i * 2 + 1) else return heap
      else do
        let right ← heap.keyAt (i * 2 + 2)
        if key ≤ left ∧ key ≤ right then return heap
        else if key > left ∧ key > right then
          if left < right then do
            siftDown fuel (← heap.swap i (i * 2 + 1)) (i * 2 + 1)
          else do
            siftDown fuel (← heap.swap i (i * 2 + 2)) (i * 2 + 2)
        else if key > left then do
          siftDown fuel (← heap.swap i (i * 2 + 1)) (i * 2 + 1)
        else do
          siftDown fuel (← heap.swap i (i * 2 + 2)) (i * 2 + 2)
    else return heap

/-- `sift_up`. -/
def siftUp : ℕ → ControllerHeap → ℕ → Exec ControllerHeap
  | 0, _, _ => .error .divergence
  | fuel + 1, heap, i =>
    if i > 0 then do
      let parent ← heap.keyAt ((i - 1) / 2)
      let key ← heap.keyAt i
      if parent > key then do
        siftUp fuel (← heap.swap ((i - 1) / 2) i) ((i - 1) / 2)
      else return heap
    else return heap

/-- The last lines of `heap_remove`: what has been put into a place is sifted. -/
def resift (i : ℕ) : Exec ControllerHeap :=
  if i = 0 then heap.siftDown (heap.count + 1) i
  else do
    let parent ← heap.keyAt ((i - 1) / 2)
    let key ← heap.keyAt i
    if parent < key then heap.siftDown (heap.count + 1) i else heap.siftUp (heap.count + 1) i

end ControllerHeap

/-- `heap_push`: the node, or `none` for `NULL`. -/
def heapPush (allocNode allocArray : Bool) (heap : ControllerHeap) (count : ℕ)
    (controller : PlayerRef) : Exec (Option ℕ × ControllerHeap) :=
  if ¬allocNode ∨ heap.count = heap.capacity ∧ ¬allocArray then return (none, heap)
  else do
    let node := heap.nextNode
    let capacity := if heap.count = heap.capacity then heap.capacity * 2 else heap.capacity
    let pushed : ControllerHeap :=
      { capacity := capacity
        count := heap.count + 1
        controllers := Function.update heap.controllers heap.count node
        node := Function.update heap.node node (some ⟨heap.count, count, controller⟩)
        nextNode := node + 1 }
    let heap ← pushed.siftUp pushed.count heap.count
    return (some node, heap)

/-- `heap_inc`. -/
def heapInc (heap : ControllerHeap) (count : ℕ) : Exec ControllerHeap := do
  let node ← heap.nodeAt 0
  let heap := { heap with
    node := Function.update heap.node (heap.controllers 0)
      (some { node with controlleeCount := node.controlleeCount + count }) }
  heap.siftDown (heap.count + 1) 0

/-- `heap_remove`. -/
def heapRemove (heap : ControllerHeap) (node : Option ℕ) : Exec ControllerHeap := do
  let id ← Exec.deref node
  let removed ← Exec.deref (heap.node id)
  if heap.count = 0 then .error .outOfBounds
  else do
    let i := removed.index
    let heap ← (heap.setController i (heap.controllers (heap.count - 1))).setIndex i
    let heap ← ControllerHeap.resift { heap with count := heap.count - 1 } i
    return { heap with node := Function.update heap.node id none }

/-- `heap_top`: the node, or `none` for `NULL`. -/
def heapTop (heap : ControllerHeap) : Option ℕ :=
  if heap.count = 0 then none else some (heap.controllers 0)

end Syrup
