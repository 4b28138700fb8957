import Gazetteer.Error
import Gazetteer.Resource
import Gazetteer.Schema.Field
import Gazetteer.Text.Blank
import Gazetteer.Text.Letter
import Gazetteer.Text.Lowercase
/-!
What a schema says about names and resources: where a field is stored, which names are well
formed, which resources may be written, and the text in which a resource is searched.
-/

namespace Gazetteer

/-- Field names are made of ASCII letters, digits and underscores. -/
def wellFormedName (name : String) : Bool :=
  !name.isEmpty && name.toList.all fun c => c.isAlphanum || c == '_'

def checkName (name : String) : Except Error Unit :=
  if wellFormedName name then .ok () else .error (.invalid (.malformedField name))

namespace Schema

/-- The last field declared under a name. -/
def field? (s : Schema) (name : String) : Option Field :=
  s.fields.reverse.find? fun f => f.name == name

/-- The spelling of the first field whose name equals `name` up to letter case. -/
def canonicalName? (s : Schema) (name : String) : Option String :=
  (s.fields.find? fun f => Text.sameLetters f.name name).map Field.name

def isScalar (s : Schema) (name : String) : Bool :=
  match s.field? name with
  | some f => f.isScalar
  | none => false

def isNumeric (s : Schema) (name : String) : Bool :=
  match s.field? name with
  | some f => f.numeric
  | none => false

/-- The scalar fields other than `id`, in the order of their declaration. -/
def scalarColumns (s : Schema) : List String :=
  (s.fields.filter fun f => f.isScalar && f.name != "id").map Field.name

def searchableFields (s : Schema) : List Field :=
  s.fields.filter Field.searchable

def checkScalars (s : Schema) : List String → Except Error Unit
  | [] => .ok ()
  | name :: rest =>
      if name == "id" || !s.isScalar name then .error (.invalid (.notScalar name))
      else s.checkScalars rest

def checkRepeatables (s : Schema) : List String → Except Error Unit
  | [] => .ok ()
  | name :: rest =>
      if !wellFormedName name then .error (.invalid (.malformedField name))
      else if s.isScalar name then .error (.invalid (.notRepeatable name))
      else s.checkRepeatables rest

/-- Whether a resource may be written: its id is not blank, its scalars are scalar fields, and its
repeatables have well-formed names that are not scalar fields. -/
def check (s : Schema) (r : Resource) : Except Error Unit :=
  if Text.allBlank r.id then .error (.invalid .idRequired)
  else
    match s.checkScalars r.scalars.keys with
    | .error e => .error e
    | .ok () => s.checkRepeatables r.repeatables.keys

/-- The values of a resource that take part in its searched text, blank ones left out. -/
def searchParts (s : Schema) (r : Resource) : List String :=
  (s.searchableFields.flatMap fun f =>
    match f.kind with
    | .scalar => (r.scalar? f.name).toList
    | .repeatable => r.values f.name).filter fun part => !Text.allBlank part

/-- The searched text of a resource: its searchable values in lowercase, a space between them. -/
def searchContent (s : Schema) (r : Resource) : String :=
  Text.lowercase (String.intercalate " " (s.searchParts r))

end Schema

end Gazetteer
