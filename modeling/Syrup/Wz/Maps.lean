import Syrup.Footholds
import Syrup.Wz.Tags

/-!
# Maps of the game data

A document about a map has sections for its life (monsters and NPCs), its portals and its reactors, each of
which is a list of entries; for its seats, of which only the number is kept; and for its footholds, which are
three levels deep. Its parser knows where it is by a stack, by how deep it is in what it skips, and by how
deep it is among the footholds (`MapParserContext`).

A `strcpy` that goes beyond the end of an array is noted (`overrun`).
-/

namespace Syrup

open Sax

/-! ## Records -/

/-- `enum LifeType`. -/
inductive LifeType
  | mob
  | npc
  | unknown
  deriving DecidableEq

/-- `struct LifeInfo`. -/
structure LifeInfo where
  type : LifeType
  id : UInt32
  x : Int16
  y : Int16
  fh : UInt16
  cy : Int16
  rx0 : Int16
  rx1 : Int16
  f : Bool
  deriving DecidableEq

/-- `struct PortalInfo`. All portals are of the type `PORTAL_TYPE_REGULAR`. -/
structure PortalInfo where
  id : UInt8
  name : String
  x : Int16
  y : Int16
  targetMap : UInt32
  targetName : String
  script : String
  deriving DecidableEq

/-- `struct MapReactorInfo`. -/
structure MapReactorInfo where
  id : UInt32
  reactorTime : Int16
  x : Int16
  y : Int16
  f : Bool
  deriving DecidableEq

/-- A list in a block of `capacity` records, that can be `NULL`. -/
structure GrowingList (R : Type) where
  items : Option (ℕ → R)
  count : ℕ
  capacity : ℕ

namespace GrowingList

variable {R : Type} (g : GrowingList R)

/-- A full block is doubled. -/
def grow : GrowingList R := if g.count = g.capacity then { g with capacity := g.capacity * 2 } else g

/-- The record after the last one is written to. -/
def write (f : R → R) : Exec (GrowingList R) :=
  match g.items with
  | none => .error .nullPointer
  | some items =>
    if g.count < g.capacity then
      .ok { g with items := some (Function.update items g.count (f (items g.count))) }
    else .error .outOfBounds

/-- It has been completed. -/
def next : GrowingList R := { g with count := g.count + 1 }

/-- A list without records is freed. -/
def close : GrowingList R := if g.count = 0 then { g with items := none } else g

/-- The records. -/
def records : List R :=
  match g.items with
  | none => []
  | some items => (List.range g.count).map items

end GrowingList

/-- `enum MapItemType`. -/
inductive MapItemType
  | topLevel
  | info
  | footholds
  | seats
  | portals
  | portal
  | lives
  | life
  | reactors
  | reactor
  deriving DecidableEq

/-- `struct MapParserContext`, with the map it is about, the calls of `insert_foothold`, and whether there
    has been an overrun. -/
structure MapParserContext where
  head : List MapItemType
  skip : ℕ
  footholdLevel : ℕ
  currentFoothold : Foothold
  id : UInt32
  returnMap : UInt32
  forcedReturn : UInt32
  onUserEnter : String
  seats : UInt16
  lives : GrowingList LifeInfo
  portals : GrowingList PortalInfo
  reactors : GrowingList MapReactorInfo
  inserted : List Foothold
  overrun : Bool

/-! ## Values -/

/-- An `int` of an entry of the section `life`. -/
def LifeInfo.setInt (key : String) (value : ℤ) (l : LifeInfo) : LifeInfo :=
  if key = "x" then { l with x := Int16.ofInt value }
  else if key = "y" then { l with y := Int16.ofInt value }
  else if key = "fh" then { l with fh := UInt16.ofInt value }
  else if key = "cy" then { l with cy := Int16.ofInt value }
  else if key = "rx0" then { l with rx0 := Int16.ofInt value }
  else if key = "rx1" then { l with rx1 := Int16.ofInt value }
  else if key = "f" then { l with f := decide (value ≠ 0) }
  else l

/-- A type of life. -/
def LifeType.ofString (value : String) : LifeType :=
  if value = "n" then .npc else if value = "m" then .mob else .unknown

/-- A `string` of an entry of the section `life`. -/
def LifeInfo.setString (key value : String) (l : LifeInfo) : LifeInfo :=
  if key = "type" then { l with type := .ofString value }
  else if key = "id" then { l with id := UInt32.ofInt (strtol value) }
  else l

/-- An `int` of an entry of the section `portal`. -/
def PortalInfo.setInt (key : String) (value : ℤ) (p : PortalInfo) : PortalInfo :=
  if key = "x" then { p with x := Int16.ofInt value }
  else if key = "y" then { p with y := Int16.ofInt value }
  else if key = "tm" then { p with targetMap := UInt32.ofInt value }
  else p

/-- A `string` of an entry of the section `portal`. -/
def PortalInfo.setString (key value : String) (p : PortalInfo) : PortalInfo :=
  if key = "pn" then { p with name := value }
  else if key = "tn" then { p with targetName := value }
  else if key = "script" then { p with script := value }
  else p

/-- The `strcpy` into an array of a portal goes beyond its end. -/
def portalOverrun (key value : String) : Bool :=
  (decide (key = "pn" ∨ key = "tn") && decide (16 < value.utf8ByteSize)) ||
    (decide (key = "script") && decide (32 < value.utf8ByteSize))

/-- An `int` of an entry of the section `reactor`. The time becomes whether it is `1`. -/
def MapReactorInfo.setInt (key : String) (value : ℤ) (r : MapReactorInfo) : MapReactorInfo :=
  if key = "x" then { r with x := Int16.ofInt value }
  else if key = "y" then { r with y := Int16.ofInt value }
  else if key = "reactorTime" then { r with reactorTime := if value = 1 then 1 else 0 }
  else if key = "f" then { r with f := decide (value = 1) }
  else r

/-- A `string` of an entry of the section `reactor`. -/
def MapReactorInfo.setString (key value : String) (r : MapReactorInfo) : MapReactorInfo :=
  if key = "id" then { r with id := UInt32.ofInt (strtol value) } else r

/-- A coordinate of a foothold. -/
def Foothold.setCoordinate (key : String) (value : ℤ) (fh : Foothold) : Foothold :=
  if key = "x1" then { fh with p1 := { fh.p1 with x := Int16.ofInt value } }
  else if key = "y1" then { fh with p1 := { fh.p1 with y := Int16.ofInt value } }
  else if key = "x2" then { fh with p2 := { fh.p2 with x := Int16.ofInt value } }
  else if key = "y2" then { fh with p2 := { fh.p2 with y := Int16.ofInt value } }
  else fh

/-! ## The parser -/

namespace MapParserContext

variable (s : MapParserContext)

/-- One level deeper in what is skipped. -/
def deeper : MapParserContext := { s with skip := s.skip + 1 }

/-- A new node of the stack. -/
def push (type : MapItemType) : MapParserContext := { s with head := type :: s.head }

/-- A value of the section `info`. -/
def setInfo (name key value : String) : MapParserContext :=
  if name = "int" then
    if key = "returnMap" then { s with returnMap := UInt32.ofInt (strtol value) }
    else if key = "forcedReturn" then
      { s with forcedReturn :=
        if UInt32.ofInt (strtol value) ≠ 999999999 then UInt32.ofInt (strtol value) else UInt32.ofInt (-1) }
    else s
  else if name = "string" then
    if key = "onUserEnter" then
      { s with onUserEnter := value, overrun := s.overrun || decide (32 < value.utf8ByteSize) }
    else s
  else s

end MapParserContext

open MapParserContext

/-- `on_map_start` in a section, or at a section. -/
def onMapStart (t : Tag) (s : MapParserContext) : Exec MapParserContext :=
  if 0 < s.skip then .ok s.deeper
  else
    match s.head with
    | [] =>
      if t.name = "imgdir" then
        match t.attr "name" with
        | some number => .ok { s with head := [.topLevel], id := UInt32.ofInt (strtol number) }
        | none => .error .assertion
      else .error .assertion
    | .topLevel :: _ =>
      if t.name = "imgdir" then
        match t.attr "name" with
        | some name =>
          if name = "info" then .ok (s.push .info)
          else if name = "life" then .ok (s.push .lives)
          else if name = "reactor" then .ok (s.push .reactors)
          else if name = "portal" then .ok (s.push .portals)
          else if name = "foothold" then .ok (s.push .footholds)
          else if name = "seat" then .ok (s.push .seats)
          else .ok s.deeper
        | none => .error .assertion
      else .error .assertion
    | .info :: _ =>
      if t.name = "int" ∨ t.name = "float" ∨ t.name = "string" then do
        let (key, value) ← t.keyValue
        .ok (s.deeper.setInfo t.name key value)
      else .ok s.deeper
    | .footholds :: _ =>
      if s.footholdLevel = 2 then do
        let number ← t.first
        .ok { s with
          currentFoothold := { s.currentFoothold with id := UInt32.ofInt (strtol number) }
          footholdLevel := s.footholdLevel + 1 }
      else if s.footholdLevel = 3 then do
        let (key, value) ← t.keyValue
        .ok { s.deeper with currentFoothold := s.currentFoothold.setCoordinate key (strtol value) }
      else .ok { s with footholdLevel := s.footholdLevel + 1 }
    | .seats :: _ => .ok { s.deeper with seats := s.seats + 1 }
    | .lives :: _ => do
      let lives ← s.lives.grow.write fun l => { l with f := false }
      .ok { s.push .life with lives := lives }
    | .life :: _ => do
      let (key, value) ← t.keyValue
      if t.name = "int" then do
        let lives ← s.lives.write (.setInt key (strtol value))
        .ok { s.deeper with lives := lives }
      else if t.name = "string" then do
        let lives ← s.lives.write (.setString key value)
        .ok { s.deeper with lives := lives }
      else .error .assertion
    | .portals :: _ => do
      let portals ← s.portals.grow.write fun p => { p with id := UInt8.ofNat s.portals.count }
      .ok { s.push .portal with portals := portals }
    | .portal :: _ => do
      let (key, value) ← t.keyValue
      if t.name = "int" then do
        let portals ← s.portals.write (.setInt key (strtol value))
        .ok { s.deeper with portals := portals }
      else if t.name = "string" then do
        let portals ← s.portals.write (.setString key value)
        .ok { s.deeper with portals := portals, overrun := s.overrun || portalOverrun key value }
      else .error .assertion
    | .reactors :: _ => do
      let reactors ← s.reactors.grow.write fun r => { r with id := UInt32.ofNat s.reactors.count }
      .ok { s.push .reactor with reactors := reactors }
    | .reactor :: _ => do
      let (key, value) ← t.keyValue
      if t.name = "int" then do
        let reactors ← s.reactors.write (.setInt key (strtol value))
        .ok { s.deeper with reactors := reactors }
      else if t.name = "string" then do
        let reactors ← s.reactors.write (.setString key value)
        .ok { s.deeper with reactors := reactors }
      else .error .assertion

/-- `on_map_end`. -/
def onMapEnd (s : MapParserContext) : Exec MapParserContext :=
  if 0 < s.skip then .ok { s with skip := s.skip - 1 }
  else if 0 < s.footholdLevel then
    .ok { s with
      inserted := if s.footholdLevel = 3 then s.inserted ++ [s.currentFoothold] else s.inserted
      footholdLevel := s.footholdLevel - 1 }
  else
    match s.head with
    | [] => .error .nullPointer
    | .life :: head => .ok { s with head := head, lives := s.lives.next }
    | .lives :: head => .ok { s with head := head, lives := s.lives.close }
    | .portal :: head => .ok { s with head := head, portals := s.portals.next }
    | .portals :: head => .ok { s with head := head, portals := s.portals.close }
    | .reactor :: head => .ok { s with head := head, reactors := s.reactors.next }
    | .reactors :: head => .ok { s with head := head, reactors := s.reactors.close }
    | _ :: head => .ok { s with head := head }

/-- The parser of maps. -/
def mapParser : Parser Tag MapParserContext Fault := ⟨onMapStart, onMapEnd, fun _ => false⟩

/-- The state in which the parsing of a map begins. What is in memory is as it is. -/
def MapParserContext.start (fh : Foothold) (returnMap : UInt32) (lives : ℕ → LifeInfo)
    (portals : ℕ → PortalInfo) (reactors : ℕ → MapReactorInfo) : MapParserContext where
  head := []
  skip := 0
  footholdLevel := 0
  currentFoothold := fh
  id := 0
  returnMap := returnMap
  forcedReturn := UInt32.ofInt (-1)
  onUserEnter := ""
  seats := 0
  lives := ⟨some lives, 0, 1⟩
  portals := ⟨some portals, 0, 1⟩
  reactors := ⟨some reactors, 0, 1⟩
  inserted := []
  overrun := false

end Syrup
