import Gazetteer.Store.Database
/-!
Column declarations: the name of a column as it is read between quotes, the words after it, which
give its affinity and constraints, and tables made from them.
-/

namespace Gazetteer

namespace Name

/-- What is read between two quotes, where two quotes stand for one.  A single one would end the
name, and nothing is read after a NUL. -/
def unquoteChars? : List Char → Option (List Char)
  | '"' :: '"' :: rest => (unquoteChars? rest).map ('"' :: ·)
  | c :: rest => if c == '"' || c.toNat == 0 then none else (unquoteChars? rest).map (c :: ·)
  | [] => some []

def unquote? (name : String) : Option String :=
  (unquoteChars? name.toList).map String.ofList

def unquoteAll {α : Type} : List (String × α) → Except Fault (List (String × α))
  | [] => .ok []
  | (name, a) :: rest =>
      match unquote? name with
      | none => .error .badDeclaration
      | some read => (unquoteAll rest).map ((read, a) :: ·)

end Name

structure Declaration where
  affinity : Affinity
  primaryKey : Bool
  unique : Bool
  required : Bool
  fallback : Cell
  /-- Whether the type is exactly `INTEGER`, by which a primary key orders the rows. -/
  integerType : Bool
deriving DecidableEq

namespace Declaration

private def contains (word part : List Char) : Bool :=
  match word with
  | [] => part.isEmpty
  | c :: cs => part.isPrefixOf (c :: cs) || contains cs part

def affinityOf (type : String) : Affinity :=
  let name := (Text.fold type).toList
  if contains name ['i', 'n', 't'] then .integer
  else if contains name ['c', 'h', 'a', 'r'] || contains name ['c', 'l', 'o', 'b'] ||
      contains name ['t', 'e', 'x', 't'] then .text
  else if contains name ['b', 'l', 'o', 'b'] || name.isEmpty then .none
  else if contains name ['r', 'e', 'a', 'l'] || contains name ['f', 'l', 'o', 'a'] ||
      contains name ['d', 'o', 'u', 'b'] then .real
  else .numeric

def literal? (word : String) : Option Cell :=
  match word.toList with
  | c :: rest =>
      if c.toNat = 39 then
        if rest.getLast? = some c then some (.text (String.ofList rest.dropLast)) else none
      else if Text.fold word == "null" then some .null
      else
        match Cell.ofNumericText word with
        | .text _ => none
        | number => some number
  | [] => none

private def constraints? (d : Declaration) : List String → Option Declaration
  | [] => some d
  | "primary" :: "key" :: rest => constraints? { d with primaryKey := true } rest
  | "not" :: "null" :: rest => constraints? { d with required := true } rest
  | "unique" :: rest => constraints? { d with unique := true } rest
  | "default" :: word :: rest =>
      (literal? word).bind fun value => constraints? { d with fallback := value } rest
  | _ => none

private def isConstraint (word : String) : Bool :=
  word == "primary" || word == "not" || word == "unique" || word == "default"

def ofText? (declaration : String) : Option Declaration :=
  let words := (Text.words declaration).map Text.fold
  let type := words.takeWhile fun w => !isConstraint w
  let name := String.intercalate " " type
  constraints? ⟨affinityOf name, false, false, false, .null, name == "integer"⟩
    (words.dropWhile fun w => !isConstraint w)

def column (d : Declaration) (name : String) : Column :=
  ⟨name, d.affinity, d.required, d.fallback⟩

end Declaration

def repeatedName? : List String → Option String
  | [] => none
  | name :: rest =>
      if rest.any (Text.sameLetters name) then some name else repeatedName? rest

namespace Table

/-- A table without rows from declared columns.  A primary key is unique, by an index without a
name; one of type `INTEGER` orders the rows. -/
def ofDeclarations (name : String) (columns : List (String × Declaration)) : Except Fault Table :=
  match repeatedName? (columns.map Prod.fst) with
  | some column => .error (.repeatedColumn column)
  | none =>
      let keys := columns.filter fun c => c.2.primaryKey
      if columns.isEmpty || keys.length > 1 then .error .badDeclaration
      else
        let unique := columns.filter fun c => c.2.primaryKey || c.2.unique
        .ok {
          name := name
          columns := columns.map fun c => c.2.column c.1
          rowKey := ((keys.filter fun c => c.2.integerType).map Prod.fst).head?
          rows := []
          indexes := unique.map fun c => ⟨"", [.column c.1], true⟩
          rejections := []
        }

/-- A column added by a declaration, which may not make it a key. -/
def addDeclared (t : Table) (name : String) (d : Declaration) : Except Fault Table :=
  if d.primaryKey || d.unique then .error .badDeclaration else t.addColumn (d.column name)

end Table

end Gazetteer
