import Gazetteer.Interchange.Record
/-!
Tabular input: what its columns stand for, what kind of table they make, and what one row says of a
resource or a distribution.
-/

namespace Gazetteer

abbrev TableRow := Dict String

inductive TableKind
  | resources
  | distributions
  | unrecognized
deriving DecidableEq, Repr

/-- The cells of a row, each under the field that its column stands for. -/
abbrev FieldCells := List (String × String)

/-- The field that a column stands for: by its alias, else by the alias or the field that differs
in letter case only, else by its own name. -/
def fieldOfColumn (aliases : Dict String) (schema : Schema) (column : String) : String :=
  let name := Text.trim column
  match aliases.get? name with
  | some field => field
  | none =>
      match aliases.entries.find? fun entry => Text.sameLetters entry.1 name with
      | some (_, field) => field
      | none => (schema.canonicalName? name).getD name

namespace TableKind

/-- What fields make of a table: resources have an id and a title, distributions an id, a type and
an address. -/
def ofFields (fields : List String) : TableKind :=
  let names := fields.map fun field => Text.fold (Text.trim field)
  let has (name : String) : Bool := names.contains name
  if has "id" && (has "dct_title_s" || has "title") then .resources
  else if has "id" && has "type" && has "url" then .distributions
  else .unrecognized

def ofRows (aliases : Dict String) (schema : Schema) (rows : List TableRow) : TableKind :=
  ofFields (rows.flatMap fun row => row.keys.map (fieldOfColumn aliases schema))

end TableKind

/-- The values in a cell between bars: without blanks at their ends, ascending, each once. -/
def splitCell (cell : String) : List String :=
  distinctTexts
    (((Text.pieces (· == '|') cell.toList).map fun piece => Text.trim (String.ofList piece)).filter
      fun value => !value.isEmpty)

namespace FieldCells

def ofRow (aliases : Dict String) (schema : Schema) (row : TableRow) : FieldCells :=
  row.entries.map fun entry => (fieldOfColumn aliases schema entry.1, entry.2)

/-- The first cell under a field, letter case aside, without blanks at its ends; none if nothing is
left of it. -/
def cell? (cells : FieldCells) (field : String) : Option String :=
  match cells.find? fun entry => Text.sameLetters entry.1 field with
  | some (_, value) =>
      let text := Text.trim value
      if text.isEmpty then none else some text
  | none => none

/-- One cell put into a resource.  Blank cells and malformed names are passed over. -/
def setField (schema : Schema) (r : Resource) (field text : String) : Resource :=
  if !wellFormedName field then r
  else if schema.isScalar field then r.setScalar field text
  else
    match splitCell text with
    | [] => r
    | values => r.setValues field values

/-- The cells of a row put into a resource.  A references cell that cannot be read is passed
over. -/
def setFields (schema : Schema) (config : Config) (r : Resource) (ds : List Distribution) :
    FieldCells → Resource × List Distribution
  | [] => (r, ds)
  | (field, value) :: rest =>
      let text := Text.trim value
      if text.isEmpty || Text.sameLetters field "id" then setFields schema config r ds rest
      else if field == referencesField then
        match References.read config (.text text) with
        | .ok found => setFields schema config r found rest
        | .error _ => setFields schema config r ds rest
      else setFields schema config (setField schema r field text) ds rest

def resource? (schema : Schema) (config : Config) (cells : FieldCells) :
    Option (Resource × List Distribution) :=
  (cells.cell? "id").map fun id => setFields schema config (.ofId id) [] cells

def distribution? (config : Config) (cells : FieldCells) : Option (String × Distribution) := do
  let id ← cells.cell? "id"
  let type ← cells.cell? "type"
  let url ← cells.cell? "url"
  return (id, ⟨config.relationKey type, url, cells.cell? "label"⟩)

end FieldCells

end Gazetteer
