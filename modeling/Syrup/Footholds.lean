import Syrup.Exec

/-!
# The tree of footholds

The footholds of a map, the lines on which one can stand, are kept in an R-tree: `insert_foothold` puts
them into leaves of up to three, and nodes of up to three, each with a rectangle around all that is
below it; `foothold_tree_find_below` goes through the nodes whose rectangle a point can be above.

The nodes are in a heap (`FootholdRTree.node`) and point to each other. What a new node holds before it is
written is `default`. Where a foothold is put, and how a node is split that has become too large, depends
on areas and lengths, which are computed with numbers of 32 and 16 bits and can overflow: they are
those of `Measures`, the ones of the code being `Measures.wrapped`.
-/

namespace Syrup

/-! ## Rectangles -/

/-- `MIN`. -/
def cMin (x y : Int16) : Int16 := if x < y then x else y

/-- `MAX`. -/
def cMax (x y : Int16) : Int16 := if x > y then x else y

/-- `struct Point`. -/
structure Point where
  x : Int16
  y : Int16
  deriving DecidableEq, Inhabited

/-- `struct Foothold`. -/
structure Foothold where
  id : UInt32
  p1 : Point
  p2 : Point
  deriving DecidableEq, Inhabited

/-- `struct Rectangle`, of which `y` grows downwards. -/
structure Rectangle where
  sw : Point
  ne : Point
  deriving DecidableEq, Inhabited

/-- `foothold_mbr`. -/
def footholdMbr (fh : Foothold) : Rectangle :=
  ⟨⟨cMin fh.p1.x fh.p2.x, cMax fh.p1.y fh.p2.y⟩, ⟨cMax fh.p1.x fh.p2.x, cMin fh.p1.y fh.p2.y⟩⟩

/-- `rectangle_mbr`. -/
def rectangleMbr (r1 r2 : Rectangle) : Rectangle :=
  ⟨⟨cMin r1.sw.x r2.sw.x, cMax r1.sw.y r2.sw.y⟩, ⟨cMax r1.ne.x r2.ne.x, cMin r1.ne.y r2.ne.y⟩⟩

/-- `rectangle_intersection`. -/
def rectangleIntersection (r1 r2 : Rectangle) : Rectangle :=
  let rect : Rectangle :=
    ⟨⟨cMax r1.sw.x r2.sw.x, cMin r1.sw.y r2.sw.y⟩, ⟨cMin r1.ne.x r2.ne.x, cMax r1.ne.y r2.ne.y⟩⟩
  if rect.sw.x > rect.ne.x ∨ rect.sw.y < rect.ne.y then ⟨⟨0, 0⟩, ⟨0, 0⟩⟩ else rect

/-! ## Measures -/

/-- The measures by which branches and splits are chosen. -/
structure Measures where
  rectangleArea : Rectangle → Int32
  rectangleLength : Rectangle → Int16
  whiteSpaceArea2 : Rectangle → Rectangle → Int32
  whiteSpaceLength2 : Rectangle → Rectangle → Int32
  whiteSpaceArea3 : Rectangle → Rectangle → Rectangle → Int32
  whiteSpaceLength3 : Rectangle → Rectangle → Rectangle → Int16

namespace Measures

/-- `rectangle_area`. -/
def area (r : Rectangle) : Int32 :=
  (r.ne.x.toInt32 - r.sw.x.toInt32) * (r.sw.y.toInt32 - r.ne.y.toInt32)

/-- `rectangle_length`. -/
def length (r : Rectangle) : Int16 :=
  ((r.ne.x.toInt32 - r.sw.x.toInt32) + (r.sw.y.toInt32 - r.ne.y.toInt32)).toInt16

/-- `white_space_area_2` and `white_space_length_2`, given what is measured. -/
def whiteSpace2 (measure : Rectangle → Int32) (r1 r2 : Rectangle) : Int32 :=
  let cover := measure r1 + measure r2 - measure (rectangleIntersection r1 r2)
  measure (rectangleMbr r1 r2) - cover

/-- `white_space_area_3` and `white_space_length_3`, given what is measured. -/
def whiteSpace3 (measure : Rectangle → Int32) (r1 r2 r3 : Rectangle) : Int32 :=
  let intersect1 := rectangleIntersection r1 r2
  let cover := measure r1 + measure r2 + measure r3 - measure intersect1 -
    measure (rectangleIntersection r1 r3) - measure (rectangleIntersection r2 r3) +
    measure (rectangleIntersection intersect1 r3)
  measure (rectangleMbr (rectangleMbr r1 r2) r3) - cover

/-- The measures of the code, with numbers that wrap around. -/
def wrapped : Measures where
  rectangleArea := area
  rectangleLength := length
  whiteSpaceArea2 := whiteSpace2 area
  whiteSpaceLength2 := whiteSpace2 fun r => (length r).toInt32
  whiteSpaceArea3 := whiteSpace3 area
  whiteSpaceLength3 r1 r2 r3 := (whiteSpace3 (fun r => (length r).toInt32) r1 r2 r3).toInt16

end Measures

/-! ## Nodes -/

/-- `struct RTreeNode`, whose address is a number. Of the union an inner node uses the children, and a leaf
    the footholds. -/
structure RTreeNode where
  parent : Option ℕ
  bound : Rectangle
  isLeaf : Bool
  count : ℕ
  children : Vector ℕ 3
  footholds : Vector Foothold 3
  deriving Inhabited

namespace RTreeNode

variable (n : RTreeNode)

/-- The children that are in use. -/
def childList : List ℕ := n.children.toList.take n.count

/-- The footholds that are in use. -/
def footholdList : List Foothold := n.footholds.toList.take n.count

end RTreeNode

/-- `struct FootholdRTree`, with the nodes that have been allocated, those below `next`. -/
structure FootholdRTree where
  node : ℕ → RTreeNode
  next : ℕ
  root : Option ℕ

namespace FootholdRTree

variable (t : FootholdRTree)

/-- A tree in which there is nothing. -/
def empty : FootholdRTree := ⟨fun _ => default, 0, none⟩

/-- Writes a node. -/
def setNode (p : ℕ) (n : RTreeNode) : FootholdRTree :=
  { t with node := Function.update t.node p n }

/-- `p->parent = parent;`. -/
def setParent (p parent : ℕ) : FootholdRTree :=
  t.setNode p { t.node p with parent := some parent }

/-- `p->bound = bound;`. -/
def setBound (p : ℕ) (bound : Rectangle) : FootholdRTree :=
  t.setNode p { t.node p with bound }

/-- `malloc(sizeof(struct RTreeNode))`, and what is written to the node. -/
def malloc (n : RTreeNode) : FootholdRTree := { t.setNode t.next n with next := t.next + 1 }

@[simp] theorem next_setNode (p : ℕ) (n : RTreeNode) : (t.setNode p n).next = t.next := rfl

@[simp] theorem next_setParent (p parent : ℕ) : (t.setParent p parent).next = t.next := rfl

@[simp] theorem next_setBound (p : ℕ) (b : Rectangle) : (t.setBound p b).next = t.next := rfl

@[simp] theorem next_malloc (n : RTreeNode) : (t.malloc n).next = t.next + 1 := rfl

theorem node_setNode (p : ℕ) (n : RTreeNode) (q : ℕ) :
    (t.setNode p n).node q = if q = p then n else t.node q :=
  Function.update_apply ..

theorem node_setParent (p parent q : ℕ) : (t.setParent p parent).node q =
    { t.node q with parent := if q = p then some parent else (t.node q).parent } := by
  rw [setParent, node_setNode]
  split
  · subst q
    rfl
  · rfl

theorem node_setBound (p : ℕ) (b : Rectangle) (q : ℕ) : (t.setBound p b).node q =
    { t.node q with bound := if q = p then b else (t.node q).bound } := by
  rw [setBound, node_setNode]
  split
  · subst q
    rfl
  · rfl

theorem node_malloc (n : RTreeNode) (q : ℕ) :
    (t.malloc n).node q = if q = t.next then n else t.node q :=
  Function.update_apply ..

end FootholdRTree

/-! ## Splits -/

/-- How four entries are split: in one (`which0`) and three, or in the pair of `which0` and `which1`
    and the rest. -/
structure Split where
  minIsOne : Bool
  which0 : Fin 4
  which1 : Fin 4
  deriving DecidableEq

/-- All pairs, in the order of the loops over `i` and `j`. -/
def pairs : List (Fin 4 × Fin 4) :=
  (List.finRange 4).flatMap fun i => ((List.finRange 4).filter (i < ·)).map (i, ·)

/-- The two entries outside of a pair, in the order in which they are found. -/
def others (i j : Fin 4) : List (Fin 4) := (List.finRange 4).filter fun k => k ≠ i ∧ k ≠ j

/-- An entry: one of the three in a node, or the fourth. -/
def pick {α : Type} (slots : Vector α 3) (extra : α) (i : Fin 4) : α :=
  if h : i.val < 3 then slots[i.val] else extra

/-- What stays in the node, and how much it is. The slots are written in place. -/
def Split.kept {α : Type} (s : Split) (slots : Vector α 3) (extra : α) : Vector α 3 × ℕ :=
  if s.minIsOne then
    (List.finRange 4).foldl (fun r i =>
      if i = s.which0 then r else (r.1.setIfInBounds r.2 (pick r.1 extra i), r.2 + 1)) (slots, 0)
  else
    let slots := slots.setIfInBounds 0 (pick slots extra s.which0)
    let slots := slots.setIfInBounds 1 (pick slots extra s.which1)
    (slots, 2)

/-- What goes to the new node, and how much it is. -/
def Split.moved {α : Type} [Inhabited α] (s : Split) (slots : Vector α 3) (extra : α) :
    Vector α 3 × ℕ :=
  if s.minIsOne then (#v[pick slots extra s.which0, default, default], 1)
  else
    match others s.which0 s.which1 with
    | i :: j :: _ => (#v[pick slots extra i, pick slots extra j, default], 2)
    | _ => (#v[default, default, default], 2)

/-- Whether the fourth entry stays in the node. -/
def Split.stays (s : Split) : Bool := if s.minIsOne then s.which0 ≠ 3 else s.which1 = 3

/-- The smallest rectangle around the first `count` of three. -/
def mbrOf (rects : Vector Rectangle 3) (count : ℕ) : Rectangle :=
  if count = 1 then rects[0]
  else if count = 2 then rectangleMbr rects[0] rects[1]
  else rectangleMbr (rectangleMbr rects[0] rects[1]) rects[2]

section Insert

variable (m : Measures)

/-! ### Of a leaf -/

/-- The least area so far, the least length, and the split that has them. -/
structure LeafChoice where
  minArea : Int32
  minLength : Int32
  split : Split

/-- The length of what lies on a line. -/
def lineLength (r : Rectangle) : Int32 :=
  if m.rectangleArea r = 0 then (m.rectangleLength r).toInt32 else 0

/-- The length of what is free between three rectangles that lie on a line. -/
def freeLength (r1 r2 r3 : Rectangle) : Int32 :=
  if m.rectangleArea (rectangleMbr (rectangleMbr r1 r2) r3) = 0 then
    (m.whiteSpaceLength3 r1 r2 r3).toInt32
  else 0

/-- A round of the loop over splits in one and three. What is free between the three is added to the least
    length so far, not to the length that is compared with it. -/
def leafOne (rects : Vector Rectangle 3) (rect : Rectangle) (c : LeafChoice) (i : Fin 4) :
    LeafChoice :=
  let r := pick rects rect i
  let r1 := rects[0]
  let r2 := if i = 1 then rects[2] else rects[1]
  let r3 := if i = 3 then rects[2] else rect
  let area := m.rectangleArea r + m.whiteSpaceArea3 r1 r2 r3
  let length := lineLength m r
  let minLength := c.minLength + freeLength m r1 r2 r3
  if area < c.minArea then ⟨area, length, { c.split with which0 := i }⟩
  else if area = c.minArea ∧ length < minLength then
    ⟨c.minArea, length, { c.split with which0 := i }⟩
  else { c with minLength }

/-- A round of the loops over splits in pairs. The first of a pair is measured twice if the fourth
    entry is not in it. -/
def leafTwo (rects : Vector Rectangle 3) (rect : Rectangle) (c : LeafChoice) (ij : Fin 4 × Fin 4) :
    LeafChoice :=
  let r1 := pick rects rect ij.1
  let r2 := if ij.2 = 3 then rect else pick rects rect ij.1
  let rest := (others ij.1 ij.2).map (pick rects rect)
  let r3 := rest.getD 0 default
  let r4 := rest.getD 1 default
  let area1 := m.whiteSpaceArea2 r1 r2
  let area2 := m.whiteSpaceArea2 r3 r4
  let length1 := if area1 = 0 ∧ m.rectangleArea r1 = 0 then m.whiteSpaceLength2 r1 r2 else 0
  let length2 := if area2 = 0 ∧ m.rectangleArea r3 = 0 then m.whiteSpaceLength2 r3 r4 else 0
  if area1 + area2 < c.minArea then ⟨area1 + area2, length1 + length2, ⟨false, ij.1, ij.2⟩⟩
  else if area1 + area2 = c.minArea ∧ length1 + length2 < c.minLength then
    ⟨c.minArea, length1 + length2, ⟨false, ij.1, ij.2⟩⟩
  else c

/-- How a leaf is split. -/
def chooseLeafSplit (rects : Vector Rectangle 3) (rect : Rectangle) : Split :=
  let first : LeafChoice :=
    { minArea := m.rectangleArea rects[0] + m.whiteSpaceArea3 rects[1] rects[2] rect
      minLength := lineLength m rects[0] + freeLength m rects[1] rects[2] rect
      split := ⟨true, 0, 0⟩ }
  (pairs.foldl (leafTwo m rects rect) ([1, 2, 3].foldl (leafOne m rects rect) first)).split

/-! ### Of an inner node -/

/-- The least measure so far, whether it is a length, and the split that has it. -/
structure NodeChoice where
  minMeasure : Int32
  minIsLength : Bool
  split : Split

/-- Takes a split if its measure is less, or if it is a length. -/
def NodeChoice.compare (c : NodeChoice) (measure : Int32) (isLength : Bool) (split : Split) :
    NodeChoice :=
  if c.minIsLength = isLength ∧ measure < c.minMeasure then { c with minMeasure := measure, split }
  else if isLength then ⟨measure, true, split⟩
  else c

/-- A round of the loop over splits in one and three. -/
def nodeOne (rects : Vector Rectangle 3) (rect : Rectangle) (c : NodeChoice) (i : Fin 4) :
    NodeChoice :=
  let r1 := rects[0]
  let r2 := if i = 1 then rects[2] else rects[1]
  let r3 := if i = 3 then rects[2] else rect
  let measure := m.whiteSpaceArea3 r1 r2 r3
  let isLength := m.rectangleArea r1 = 0 ∧ m.rectangleArea r2 = 0 ∧ measure = 0
  let measure := if isLength then (m.whiteSpaceLength3 r1 r2 r3).toInt32 else measure
  c.compare measure isLength { c.split with which0 := i }

/-- A round of the loops over splits in pairs. -/
def nodeTwo (rects : Vector Rectangle 3) (rect : Rectangle) (c : NodeChoice) (ij : Fin 4 × Fin 4) :
    NodeChoice :=
  let r1 := pick rects rect ij.1
  let r2 := pick rects rect ij.2
  let rest := (others ij.1 ij.2).map (pick rects rect)
  let r3 := rest.getD 0 default
  let r4 := rest.getD 1 default
  let measure1 := m.whiteSpaceArea2 r1 r2
  let measure2 := m.whiteSpaceArea2 r3 r4
  let isLength :=
    m.rectangleArea r1 = 0 ∧ measure1 = 0 ∧ m.rectangleArea r3 = 0 ∧ measure2 = 0
  let measure :=
    if isLength then m.whiteSpaceLength2 r1 r2 + m.whiteSpaceLength2 r3 r4 else measure1 + measure2
  c.compare measure isLength ⟨false, ij.1, ij.2⟩

/-- How an inner node is split. -/
def chooseNodeSplit (rects : Vector Rectangle 3) (rect : Rectangle) : Split :=
  let measure := m.whiteSpaceArea3 rects[1] rects[2] rect
  let isLength := m.rectangleArea rects[1] = 0 ∧ m.rectangleArea rects[2] = 0 ∧ measure = 0
  let first : NodeChoice :=
    { minMeasure :=
        if isLength then (m.whiteSpaceLength3 rects[1] rects[2] rect).toInt32 else measure
      minIsLength := isLength
      split := ⟨true, 0, 0⟩ }
  (pairs.foldl (nodeTwo m rects rect) ([1, 2, 3].foldl (nodeOne m rects rect) first)).split

/-! ### The way down -/

/-- The least measure so far, whether it is a length, and the child that has it. -/
structure Branch where
  minMeasure : Int32
  minIsLength : Bool
  minIndex : Fin 3

/-- How much a rectangle grows, and whether that is a length. -/
def growth (bound rect : Rectangle) : Int32 × Bool :=
  let bounding := rectangleMbr bound rect
  let measure := m.rectangleArea bounding - m.rectangleArea bound
  if m.rectangleArea bounding = 0 ∧ measure = 0 then
    ((m.rectangleLength bounding).toInt32 - (m.rectangleLength bound).toInt32, true)
  else (measure, false)

/-- A round of the loop that chooses a child. -/
def chooseStep (bounds : Vector Rectangle 3) (rect : Rectangle) (b : Branch) (i : Fin 3) : Branch :=
  let (measure, length) := growth m bounds[i] rect
  if !b.minIsLength && !length then
    if measure = b.minMeasure then
      if m.rectangleArea bounds[i] < m.rectangleArea bounds[b.minIndex] then { b with minIndex := i }
      else b
    else if measure < b.minMeasure then { b with minMeasure := measure, minIndex := i }
    else b
  else if b.minIsLength && length then
    if measure = b.minMeasure then
      if m.rectangleLength bounds[i] < m.rectangleLength bounds[b.minIndex] then
        { b with minIndex := i }
      else b
    else if measure < b.minMeasure then { b with minMeasure := measure, minIndex := i }
    else b
  else if length then ⟨measure, true, i⟩
  else b

/-- The child into which something is put. -/
def chooseChild (bounds : Vector Rectangle 3) (count : ℕ) (rect : Rectangle) : Fin 3 :=
  let (measure, length) := growth m bounds[0] rect
  (((List.finRange 3).filter fun i => 0 < i.val ∧ i.val < count).foldl (chooseStep m bounds rect)
    ⟨measure, length, 0⟩).minIndex

namespace FootholdRTree

/-- The bounds of the children of a node. -/
def childBounds (t : FootholdRTree) (n : RTreeNode) : Vector Rectangle 3 :=
  n.children.map fun c => (t.node c).bound

/-- The loop down to a leaf. -/
def chooseLeaf (t : FootholdRTree) (rect : Rectangle) : ℕ → ℕ → Exec ℕ
  | 0, _ => .error .divergence
  | fuel + 1, p =>
    let n := t.node p
    if n.isLeaf then .ok p
    else chooseLeaf t rect fuel n.children[chooseChild m (t.childBounds n) n.count rect]

/-! ## Insertion -/

/-- The loop up from a leaf to which a foothold has been added. -/
def enlarge : ℕ → FootholdRTree → ℕ → Exec FootholdRTree
  | 0, _, _ => .error .divergence
  | fuel + 1, t, node =>
    match (t.node node).parent with
    | none => .ok t
    | some parent =>
      enlarge fuel
        (t.setBound parent (rectangleMbr (t.node parent).bound (t.node node).bound)) parent

/-- The bound of all children of a node. -/
def boundOfChildren (t : FootholdRTree) (n : RTreeNode) : Rectangle :=
  (n.childList.drop 1).foldl (fun bound c => rectangleMbr bound (t.node c).bound)
    (t.node n.children[0]).bound

/-- The loop up from a node to which a child has been added. -/
def rebound : ℕ → FootholdRTree → Option ℕ → Exec FootholdRTree
  | _, t, none => .ok t
  | 0, _, some _ => .error .divergence
  | fuel + 1, t, some node =>
    let t := t.setBound node (t.boundOfChildren (t.node node))
    rebound fuel t (t.node node).parent

/-- Adds a foothold to a leaf that has room. -/
def addFoothold (t : FootholdRTree) (node : ℕ) (fh : Foothold) : FootholdRTree :=
  let n := t.node node
  t.setNode node
    { n with
      footholds := n.footholds.setIfInBounds n.count fh
      count := n.count + 1
      bound := rectangleMbr n.bound (footholdMbr fh) }

/-- Splits a leaf and a foothold; the new node is the last one. -/
def splitLeafBy (t : FootholdRTree) (split : Split) (node : ℕ) (fh : Foothold) :
    FootholdRTree :=
  let n := t.node node
  let moved := split.moved n.footholds fh
  let kept := split.kept n.footholds fh
  let t := t.malloc { (default : RTreeNode) with
    isLeaf := true, count := moved.2, footholds := moved.1
    bound := mbrOf (moved.1.map footholdMbr) moved.2 }
  t.setNode node
    { n with footholds := kept.1, count := kept.2, bound := mbrOf (kept.1.map footholdMbr) kept.2 }

/-- Splits a leaf in the way that has been chosen. -/
def splitLeaf (t : FootholdRTree) (node : ℕ) (fh : Foothold) : FootholdRTree :=
  t.splitLeafBy (chooseLeafSplit m ((t.node node).footholds.map footholdMbr) (footholdMbr fh)) node fh

/-- Adds a child to a node that has room. -/
def addChild (t : FootholdRTree) (node new : ℕ) : FootholdRTree :=
  let n := t.node node
  let t := t.setNode node
    { n with children := n.children.setIfInBounds n.count new, count := n.count + 1 }
  t.setParent new node

/-- Divides the children of an inner node, and another one, between the node and a new one. -/
def relinkBy (t : FootholdRTree) (split : Split) (node new : ℕ) : FootholdRTree :=
  let n := t.node node
  let newNode := t.next
  let moved := split.moved n.children new
  let kept := split.kept n.children new
  let t := t.malloc { (default : RTreeNode) with
    isLeaf := false, count := moved.2, children := moved.1 }
  let t := (moved.1.toList.take moved.2).foldl (fun t c => t.setParent c newNode) t
  let t := t.setNode node { n with children := kept.1, count := kept.2 }
  if split.stays then t.setParent new node else t

/-- Splits an inner node and a child; the new node is the last one. -/
def splitNodeBy (t : FootholdRTree) (split : Split) (node new : ℕ) : FootholdRTree :=
  let newNode := t.next
  let t := t.relinkBy split node new
  let t := t.setBound node (mbrOf (t.childBounds (t.node node)) (t.node node).count)
  t.setBound newNode (mbrOf (t.childBounds (t.node newNode)) (t.node newNode).count)

/-- Splits an inner node in the way that has been chosen. -/
def splitNode (t : FootholdRTree) (node new : ℕ) : FootholdRTree :=
  t.splitNodeBy (chooseNodeSplit m (t.childBounds (t.node node)) (t.node new).bound) node new

/-- Puts a new root above the old one and a new node. -/
def newRoot (t : FootholdRTree) (node new : ℕ) : FootholdRTree :=
  let root := t.next
  let t := t.malloc { (default : RTreeNode) with
    parent := none, isLeaf := false, count := 2, children := #v[node, new, default]
    bound := rectangleMbr (t.node node).bound (t.node new).bound }
  { (t.setParent node root).setParent new root with root := some root }

/-- The loop up from a node that has been split. -/
def insertNode : ℕ → FootholdRTree → ℕ → ℕ → Exec FootholdRTree
  | 0, _, _, _ => .error .divergence
  | fuel + 1, t, node, new =>
    match (t.node node).parent with
    | none => .ok (t.newRoot node new)
    | some parent =>
      if (t.node parent).count < 3 then
        rebound (fuel + 1) (t.addChild parent new) (some parent)
      else insertNode fuel (t.splitNode m parent new) parent t.next

end FootholdRTree

/-- `insert_foothold`. -/
def insertFoothold (t : FootholdRTree) (fh : Foothold) : Exec FootholdRTree :=
  match t.root with
  | none =>
    let root := t.next
    .ok { t.malloc { (default : RTreeNode) with
      parent := none, bound := footholdMbr fh, isLeaf := true, count := 1
      footholds := #v[fh, default, default] } with root := some root }
  | some root => do
    let node ← t.chooseLeaf m (footholdMbr fh) t.next root
    if (t.node node).count < 3 then (t.addFoothold node fh).enlarge t.next node
    else (t.splitLeaf m node fh).insertNode m t.next node t.next

end Insert

/-! ## Search -/

/-- `get_distance_below`. -/
def getDistanceBelow (fh : Foothold) (p : Point) : Int16 :=
  if fh.p1.x = fh.p2.x then ((cMin fh.p1.y fh.p2.y).toInt32 - p.y.toInt32).toInt16
  else
    ((fh.p2.y.toInt32 - fh.p1.y.toInt32) * (p.x.toInt32 - fh.p1.x.toInt32) /
      (fh.p2.x.toInt32 - fh.p1.x.toInt32) + fh.p1.y.toInt32 - p.y.toInt32).toInt16

/-- The footholds of a leaf that are passed over, for where they are. -/
def passedOver (fh : Foothold) (p : Point) : Bool :=
  ((fh.p1.x > p.x ∧ fh.p2.x > p.x) ∨ (fh.p1.x < p.x ∧ fh.p2.x < p.x) ∨
    (fh.p1.y < p.y ∧ fh.p2.y < p.y)) ∨
  (fh.p1.x = fh.p2.x ∧ (p.x ≠ fh.p1.x ∨ p.y > fh.p1.y ∨ p.y > fh.p2.y))

/-- The nearest so far, and how far it is. -/
abbrev Nearest := Option Foothold × Int16

/-- A foothold is taken if it is nearer than the nearest so far. -/
def Nearest.take (min : Nearest) (fh : Foothold) (p : Point) : Nearest :=
  let dist := getDistanceBelow fh p
  if dist < min.2 then (some fh, dist) else min

/-- A round of the loop over the footholds of a leaf. -/
def leafStep (p : Point) (min : Nearest) (fh : Foothold) : Nearest :=
  if passedOver fh p then min
  else if getDistanceBelow fh p < 0 then min
  else min.take fh p

/-- `INT16_MAX`. -/
def int16Max : Int16 := 32767

/-- A round of the loop over the children of a node, given what is found below each. -/
def childStep (find : ℕ → Exec (Option Foothold)) (p : Point) (min : Nearest) (c : ℕ) :
    Exec Nearest := do
  match ← find c with
  | none => return min
  | some current => return min.take current p

/-- `tree_find_below`. -/
def treeFindBelow (t : FootholdRTree) (p : Point) : ℕ → ℕ → Exec (Option Foothold)
  | 0, _ => .error .divergence
  | fuel + 1, node => do
    let n := t.node node
    if n.bound.sw.x > p.x ∨ n.bound.sw.y < p.y then return none
    else if n.isLeaf then return (n.footholdList.foldl (leafStep p) (none, int16Max)).1
    else
      let min ← n.childList.foldlM (childStep (treeFindBelow t p fuel) p) (none, int16Max)
      return min.1

/-- `foothold_tree_find_below`. -/
def footholdTreeFindBelow (t : FootholdRTree) (p : Point) : Exec (Option Foothold) := do
  let root ← Exec.deref t.root
  treeFindBelow t p t.next root

end Syrup
