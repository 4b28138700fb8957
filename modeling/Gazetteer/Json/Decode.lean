import Gazetteer.Json.Value
/-!
Typed reading of interchange values.  Nothing is converted: a text is read from a text, a count
from a whole number, and only a measure takes whole numbers and doubles alike.  A structure is
read from a record, whose other fields are passed over, or from the list of its fields in order.
-/

namespace Gazetteer.Json.Decode

-- Powers are those of the core library, whichever others are known.
attribute [local instance (high)] instPowNat

def text : Json → Option String
  | .text s => some s
  | _ => none

def bool : Json → Option Bool
  | .bool b => some b
  | _ => none

def countLimit : Nat := 2 ^ (64 : Nat)

/-- A whole number from 0 up to `2 ^ 64 - 1`. -/
def count : Json → Option Nat
  | .int n => if 0 ≤ n ∧ n < countLimit then some n.toNat else none
  | _ => none

def measure : Json → Option Float
  | .int n => some (Number.ofInt n)
  | .float x => some x
  | _ => none

def nullable {α : Type} (decode : Json → Option α) : Json → Option (Option α)
  | .null => some none
  | j => (decode j).map some

def listOf {α : Type} (decode : Json → Option α) : Json → Option (List α)
  | .list items => items.mapM decode
  | _ => none

def dictOf {α : Type} (decode : Json → Option α) : Json → Option (Dict α)
  | .record fields =>
      (fields.mapM fun field => (decode field.2).map fun value => (field.1, value)).map Dict.ofList
  | _ => none

def Fields := String → Option Json

/-- Opens a structure whose fields have the given names in this order. -/
def fields (names : List String) : Json → Option Fields
  | .record entries => some fun name => findEntry name entries
  | .list items =>
      if items.length ≤ names.length then some fun name => findEntry name (names.zip items)
      else none
  | _ => none

def required {α : Type} (fs : Fields) (name : String) (decode : Json → Option α) : Option α :=
  (fs name).bind decode

/-- A field that stands for `fallback` when it is absent, but not when it is null. -/
def optional {α : Type} (fs : Fields) (name : String) (fallback : α)
    (decode : Json → Option α) : Option α :=
  match fs name with
  | none => some fallback
  | some j => decode j

/-- A choice among named cases: the name, or a record of the name alone with null under it. -/
def choice {α : Type} (cases : List (String × α)) : Json → Option α
  | .text name => findEntry name cases
  | .record [(name, .null)] => findEntry name cases
  | _ => none

def four {α : Type} (decode : Json → Option α) (j : Json) : Option (α × α × α × α) :=
  match listOf decode j with
  | some [a, b, c, d] => some (a, b, c, d)
  | _ => none

end Gazetteer.Json.Decode
