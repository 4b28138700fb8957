import Gazetteer.Dict
import Gazetteer.Number.Shortest
import Gazetteer.Text.Hex
/-!
Interchange values and their compact text.  The fields of a record stand in ascending order of
their names, one for each name; numbers are whole numbers of 64 bits or doubles.
-/

namespace Gazetteer

inductive Json
  | null
  | bool (value : Bool)
  | int (value : Int)
  | float (value : Float)
  | text (value : String)
  | list (items : List Json)
  | record (fields : List (String × Json))
deriving Inhabited

namespace Json

/-- A character inside quotes: the quote, the backslash and the control characters are escaped. -/
def escapeChar (c : Char) : List Char :=
  if c = '"' then ['\\', '"']
  else if c = '\\' then ['\\', '\\']
  else if c = '\n' then ['\\', 'n']
  else if c = '\r' then ['\\', 'r']
  else if c = '\t' then ['\\', 't']
  else if c.toNat = 0x08 then ['\\', 'b']
  else if c.toNat = 0x0C then ['\\', 'f']
  else if c.toNat < 0x20 then
    ['\\', 'u', '0', '0', Text.hexDigit (c.toNat / 16), Text.hexDigit (c.toNat % 16)]
  else [c]

def quoted (s : String) : List Char :=
  '"' :: (s.toList.flatMap escapeChar ++ ['"'])

mutual

def write : Json → List Char
  | .null => ['n', 'u', 'l', 'l']
  | .bool true => ['t', 'r', 'u', 'e']
  | .bool false => ['f', 'a', 'l', 's', 'e']
  | .int n => (toString n).toList
  | .float x => (Number.Layout.interchange.text x).toList
  | .text s => quoted s
  | .list [] => ['[', ']']
  | .list (item :: items) => '[' :: (write item ++ writeItems items)
  | .record [] => [Char.ofNat 0x7B, Char.ofNat 0x7D]
  | .record ((name, value) :: fields) =>
      Char.ofNat 0x7B :: (quoted name ++ ':' :: (write value ++ writeFields fields))

/-- The items after the first one, and the bracket that closes the list. -/
def writeItems : List Json → List Char
  | [] => [']']
  | item :: items => ',' :: (write item ++ writeItems items)

/-- The fields after the first one, and the brace that closes the record. -/
def writeFields : List (String × Json) → List Char
  | [] => [Char.ofNat 0x7D]
  | (name, value) :: fields =>
      ',' :: (quoted name ++ ':' :: (write value ++ writeFields fields))

end

def compact (j : Json) : String :=
  String.ofList j.write

/-- A record from fields in any order; of two with one name the later one stays. -/
def ofFields (fields : List (String × Json)) : Json :=
  .record (fields.foldl (fun entries field => insertEntry field.1 field.2 entries) [])

def field? (j : Json) (name : String) : Option Json :=
  match j with
  | .record fields => findEntry name fields
  | _ => none

def ofOption {α : Type} (f : α → Json) : Option α → Json
  | none => .null
  | some a => f a

def ofTexts (texts : List String) : Json :=
  .list (texts.map .text)

end Json

end Gazetteer
