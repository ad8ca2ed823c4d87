import Syrup.Wz
import Syrup.Wz.Tags

/-!
# Items of the game data

`ITEM_INFOS` is filled by two parsers. Documents with items have a directory for each of them, which has a
section `info` (`onItemStart`); documents with equipment are about one piece of equipment each, and have the
section themselves (`onEquipItemStart`). The second parser stops when it has seen the section.

The table of attributes is in both of them, but in the second one `quest` sets the flag of `monsterBook`.
-/

namespace Syrup

open Sax

/-- `enum ItemItemType`. -/
inductive ItemItemType
  | topLevel
  | item
  | info
  deriving DecidableEq

/-- `enum EquipItemItemType`. -/
inductive EquipItemItemType
  | topLevel
  | info
  deriving DecidableEq

/-- `struct ItemInfo` with its unit price, a number of type `D`. -/
structure ItemRecord (D : Type) extends ItemInfo where
  unitPrice : D
  deriving DecidableEq

/-- `double`: `0`, and `strtod`. -/
structure Doubles (D : Type) where
  zero : D
  strtod : String → D

/-- `struct ItemParserContext`, with whether the parser has been stopped, and `ITEM_INFOS`. The stacks of the
    two parsers are in a union. -/
structure ItemParserContext (D : Type) where
  head : List ItemItemType
  head2 : List EquipItemItemType
  itemCapacity : ℕ
  skip : ℕ
  stopped : Bool
  infos : ℕ → ItemRecord D
  count : ℕ

variable {D : Type}

/-- A new record. -/
def ItemRecord.initial (fl : Doubles D) (id : String) : ItemRecord D where
  toItemInfo := .plain (UInt32.ofInt (strtol id)) 100
  unitPrice := fl.zero

/-- The first comma of a number becomes a point. -/
def withPoint (value : String) : String := String.ofList (value.toList.replace ',' '.')

namespace ItemParserContext

variable (s : ItemParserContext D)

/-- A full block is doubled. -/
def grow : ItemParserContext D := if s.count = s.itemCapacity then { s with itemCapacity := s.itemCapacity * 2 } else s

/-- `ITEM_INFOS[ITEM_INFO_COUNT]` is written to. -/
def write (f : ItemRecord D → ItemRecord D) : Exec (ItemParserContext D) :=
  if s.count < s.itemCapacity then
    .ok { s with infos := Function.update s.infos s.count (f (s.infos s.count)) }
  else .error .outOfBounds

/-- One level deeper in what is skipped. -/
def deeper : ItemParserContext D := { s with skip := s.skip + 1 }

/-- The records there are. -/
def records : List (ItemRecord D) := (List.range s.count).map s.infos

end ItemParserContext

/-! ## Items -/

/-- An `int` of the section `info`. -/
def ItemRecord.setInt (key : String) (value : ℤ) (r : ItemRecord D) : ItemRecord D :=
  if key = "slotMax" then { r with slotMax := Int16.ofInt value }
  else if key = "price" then { r with price := Int32.ofInt value }
  else if key = "tradeBlock" then { r with untradable := decide (0 < value) }
  else if key = "only" then { r with oneOfAKind := decide (0 < value) }
  else if key = "monsterBook" then { r with monsterBook := decide (0 < value) }
  else if key = "quest" then { r with quest := decide (0 < value) }
  else r

/-- A `double` of the section `info`. -/
def ItemRecord.setDouble (fl : Doubles D) (key : String) (value : String) (r : ItemRecord D) : ItemRecord D :=
  if key = "unitPrice" then { r with unitPrice := fl.strtod (withPoint value) } else r

/-- `on_item_start`. -/
def onItemStart (fl : Doubles D) (t : Tag) (s : ItemParserContext D) : Exec (ItemParserContext D) :=
  if 0 < s.skip then .ok s.deeper
  else
    match s.head with
    | [] => if t.name = "imgdir" then .ok { s with head := [.topLevel] } else .error .assertion
    | .topLevel :: _ =>
      if t.name = "imgdir" then do
        let id ← t.first
        let s ← s.grow.write fun _ => .initial fl id
        .ok { s with head := .item :: s.head }
      else .error .assertion
    | .item :: _ =>
      if t.name = "imgdir" then do
        let section_ ← t.first
        if section_ = "info" then .ok { s with head := .info :: s.head } else .ok s.deeper
      else .ok s.deeper
    | .info :: _ =>
      if t.name = "int" then do
        let (key, value) ← t.keyValue
        s.deeper.write (.setInt key (strtol value))
      else if t.name = "double" then do
        let (key, value) ← t.keyValue
        s.deeper.write (.setDouble fl key value)
      else .ok s.deeper

/-- `on_item_end`. -/
def onItemEnd (s : ItemParserContext D) : Exec (ItemParserContext D) :=
  if 0 < s.skip then .ok { s with skip := s.skip - 1 }
  else
    match s.head with
    | [] => .error .nullPointer
    | .item :: head => .ok { s with head := head, count := s.count + 1 }
    | _ :: head => .ok { s with head := head }

/-- The parser of items. -/
def itemParser (fl : Doubles D) : Parser Tag (ItemParserContext D) Fault :=
  ⟨onItemStart fl, onItemEnd, (·.stopped)⟩

/-! ## Equipment -/

/-- An `int` of the section `info`. -/
def ItemRecord.setEquipInt (key : String) (value : ℤ) (r : ItemRecord D) : ItemRecord D :=
  if key = "slotMax" then { r with slotMax := Int16.ofInt value }
  else if key = "price" then { r with price := Int32.ofInt value }
  else if key = "tradeBlock" then { r with untradable := decide (0 < value) }
  else if key = "only" then { r with oneOfAKind := decide (0 < value) }
  else if key = "monsterBook" then { r with monsterBook := decide (0 < value) }
  else if key = "quest" then { r with monsterBook := decide (0 < value) }
  else r

/-- `on_equip_item_start`. -/
def onEquipItemStart (fl : Doubles D) (t : Tag) (s : ItemParserContext D) : Exec (ItemParserContext D) :=
  if 0 < s.skip then .ok s.deeper
  else
    match s.head2 with
    | [] => do
      let id ← t.first
      let s ← s.grow.write fun _ => .initial fl id
      if t.name = "imgdir" then .ok { s with head2 := [.topLevel] } else .error .assertion
    | .topLevel :: _ => do
      let section_ ← t.first
      if section_ = "info" then .ok { s with head2 := .info :: s.head2 } else .ok s.deeper
    | .info :: _ =>
      if t.name = "int" then do
        let (key, value) ← t.keyValue
        s.deeper.write (.setEquipInt key (strtol value))
      else if t.name = "double" then do
        let (key, value) ← t.keyValue
        s.deeper.write (.setDouble fl key value)
      else .ok s.deeper

/-- `on_equip_item_end`. After the section nothing else is parsed. -/
def onEquipItemEnd (s : ItemParserContext D) : Exec (ItemParserContext D) :=
  if 0 < s.skip then .ok { s with skip := s.skip - 1 }
  else
    match s.head2 with
    | [] => .error .nullPointer
    | .info :: _ => .ok { s with head2 := [], stopped := true, count := s.count + 1 }
    | .topLevel :: head2 => .ok { s with head2 := head2 }

/-- The parser of equipment. -/
def equipItemParser (fl : Doubles D) : Parser Tag (ItemParserContext D) Fault :=
  ⟨onEquipItemStart fl, onEquipItemEnd, (·.stopped)⟩

/-! ## All documents -/

/-- A document is parsed, and the parser reset. -/
def parseDocument (p : Parser Tag (ItemParserContext D) Fault) (s : ItemParserContext D) (d : Xml) :
    Exec (ItemParserContext D) := do
  let s ← p.run d.events s
  .ok { s with stopped := false }

/-- The part of `wz_init` about items. The memory of the records is as it is. -/
def wzInitItems (fl : Doubles D) (memory : ℕ → ItemRecord D) (items equips : List Xml) :
    Exec (ItemParserContext D) := do
  let s ← items.foldlM (parseDocument (itemParser fl))
    { head := [], head2 := [], itemCapacity := 1, skip := 0, stopped := false, infos := memory, count := 0 }
  equips.foldlM (parseDocument (equipItemParser fl)) { s with head := [], head2 := [], skip := 0 }

end Syrup
