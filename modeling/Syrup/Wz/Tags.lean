import Syrup.Exec
import Syrup.Lib.Sax

/-!
# The tags of game data

The game data is in XML documents. Each of their elements is an `imgdir` with elements in it, or a value of
some type; all have an attribute `name`, and those with a value an attribute `value`.
-/

namespace Syrup

/-- A start tag: the name of the element, and its attributes in order. -/
structure Tag where
  name : String
  attrs : List (String × String)
  deriving DecidableEq

namespace Tag

variable (t : Tag)

/-- The loop in which an attribute is looked for: the last one with its name is taken. -/
def attr (key : String) : Option String := t.attrs.reverse.findSome? fun a => if a.1 = key then some a.2 else none

/-- `attrs[1]`, which is beyond the end if there are no attributes. -/
def first : Exec String :=
  match t.attrs with
  | [] => .error .outOfBounds
  | a :: _ => .ok a.2

/-- `assert(key != NULL && value != NULL)`, after the loop in which the two are looked for. -/
def keyValue : Exec (String × String) :=
  match t.attr "name", t.attr "value" with
  | some key, some value => .ok (key, value)
  | _, _ => .error .assertion

end Tag

/-- An element of a document. -/
abbrev Xml := Sax.Element Tag

/-- The value of the first attribute, which is the name of the element. -/
def Tag.id (t : Tag) : String := (t.attrs.head?.map (·.2)).getD ""

theorem Tag.first_eq {t : Tag} (h : t.attrs ≠ []) : t.first = .ok t.id := by
  rw [Tag.first, Tag.id]
  cases hattrs : t.attrs with
  | nil => exact absurd hattrs h
  | cons a l => rfl

/-- A value has a name and a value. -/
def Xml.IsValue (c : Xml) : Prop := ∃ key value, c.tag.attr "name" = some key ∧ c.tag.attr "value" = some value

theorem Xml.IsValue.keyValue {c : Xml} (h : Xml.IsValue c) :
    ∃ key value, c.tag.attr "name" = some key ∧ c.tag.attr "value" = some value ∧
      c.tag.keyValue = .ok (key, value) := by
  obtain ⟨key, value, hkey, hvalue⟩ := h
  exact ⟨key, value, hkey, hvalue, by rw [Tag.keyValue, hkey, hvalue]⟩

/-! ## Numbers -/

/-- The value of digits. -/
def digits (l : List Char) : ℤ :=
  (l.takeWhile Char.isDigit).foldl (fun n c => 10 * n + (c.toNat - 48 : ℕ)) 0

/-- `strtol` with base 10: white space, a sign, and digits, up to the limits of a `long`. -/
def strtol (s : String) : ℤ :=
  match s.toList.dropWhile fun c => c = ' ' || ('\t' ≤ c && c ≤ '\r') with
  | '-' :: l => max (-2 ^ 63) (-digits l)
  | '+' :: l => min (2 ^ 63 - 1) (digits l)
  | l => min (2 ^ 63 - 1) (digits l)

example : strtol "100000000.img" = 100000000 := by decide

/-! ## Values -/

/-- The value of an `int`, if it is the attribute `key`. -/
def intOf (key : String) (c : Xml) : Option ℤ :=
  if c.tag.name = "int" ∧ (c.tag.attr "name").getD "" = key then some (strtol ((c.tag.attr "value").getD ""))
  else none

/-- The value given for an attribute. -/
def lastInt (cs : List Xml) (key : String) : Option ℤ := cs.reverse.findSome? (intOf key)

/-- The value of a `string`, if it is the attribute `key`. -/
def stringOf (key : String) (c : Xml) : Option String :=
  if c.tag.name = "string" ∧ (c.tag.attr "name").getD "" = key then some ((c.tag.attr "value").getD "") else none

/-- The text given for an attribute. -/
def lastString (cs : List Xml) (key : String) : Option String := cs.reverse.findSome? (stringOf key)

theorem findSome?_map {α β γ : Type} (f : α → Option β) (g : β → γ) (l : List α) :
    l.findSome? (fun a => (f a).map g) = (l.findSome? f).map g := by
  rw [List.map_findSome?]
  rfl

end Syrup
