import Gazetteer.Interchange.References
import Gazetteer.Schema.Basic
/-!
Interchange records: loosely typed values keyed by field name, read into a resource and its
distributions, and written from a stored resource.
-/

namespace Gazetteer.Record

/-- The id of a record, if it has one that is not empty: a text without blanks at its ends, or the
text of a number. -/
def id? (record : Json) : Option String :=
  let id? : Option String :=
    match record.field? "id" with
    | some (.text s) => some (Text.trim s)
    | some (.int n) => some (Json.int n).compact
    | some (.float x) => some (Json.float x).compact
    | _ => none
  id?.filter fun id => !id.isEmpty

/-- The text of a single value, none if it is blank or no single value. -/
def cellText? (j : Json) : Option String :=
  let text? : Option String :=
    match j with
    | .text s => some s
    | .int n => some (Json.int n).compact
    | .float x => some (Json.float x).compact
    | .bool b => some (Json.bool b).compact
    | _ => none
  text?.filter fun text => !Text.allBlank text

def cellTexts (j : Json) : List String :=
  match j with
  | .list items => items.filterMap cellText?
  | other => (cellText? other).toList

/-- One field put into a resource.  Malformed names and fields without a value are passed over,
and a scalar field takes the first value. -/
def setField (schema : Schema) (r : Resource) (name : String) (value : Json) : Resource :=
  if !wellFormedName name then r
  else if schema.isScalar name then
    match cellTexts value with
    | [] => r
    | first :: _ => r.setScalar name first
  else
    match cellTexts value with
    | [] => r
    | values => r.setValues name values

def readFields (schema : Schema) (config : Config) (r : Resource) (ds : List Distribution) :
    List (String × Json) → Except Error (Resource × List Distribution)
  | [] => .ok (r, ds)
  | (name, value) :: rest =>
      if name == "id" then readFields schema config r ds rest
      else if name == referencesField then
        match References.read config value with
        | .error e => .error e
        | .ok found => readFields schema config r found rest
      else readFields schema config (setField schema r name value) ds rest

def read (schema : Schema) (config : Config) (record : Json) :
    Except Error (Resource × List Distribution) :=
  match record with
  | .record fields =>
      match id? record with
      | none => .error (.invalid .idRequired)
      | some id => readFields schema config (.ofId id) [] fields
  | _ => .error (.invalid .recordNotObject)

/-- The record of a stored resource: scalars as texts, repeatables as lists, and the distributions
as references text. -/
def ofResource (config : Config) (r : Resource) : Json :=
  .ofFields ([("id", .text r.id)] ++
    r.scalars.entries.map (fun entry => (entry.1, .text entry.2)) ++
    r.repeatables.entries.map (fun entry => (entry.1, .ofTexts entry.2)) ++
    ((References.text? config r.distributions).map fun text =>
      (referencesField, .text text)).toList)

end Gazetteer.Record
