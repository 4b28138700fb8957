import Gazetteer.Store.Declaration
/-! Databases given by their tables, as they were before the catalog came to use them. -/

namespace Gazetteer

/-- A table as it is declared, with its rows and its unique indexes. -/
structure TableSource where
  name : String
  /-- Column names, each with its declaration. -/
  columns : List (String × String)
  rows : List (List Cell)
  /-- Index names, each with its columns. -/
  unique : List (String × List String)

namespace TableSource

def declarations? : List (String × String) → Option (List (String × Declaration))
  | [] => some []
  | (name, words) :: rest => do
      let d ← Declaration.ofText? words
      return (name, d) :: (← declarations? rest)

def insertRows (columns : List String) (t : Table) : List (List Cell) → Except Fault Table
  | [] => .ok t
  | cells :: rest =>
      if cells.length = columns.length then
        match t.insert .abort (columns.zip cells) with
        | .error fault => .error fault
        | .ok (changed, _) => insertRows columns changed rest
      else .error .badDeclaration

def table (s : TableSource) : Except Fault Table :=
  match declarations? s.columns with
  | none => .error .badDeclaration
  | some columns =>
      match Table.ofDeclarations s.name columns with
      | .error fault => .error fault
      | .ok t => insertRows (s.columns.map Prod.fst) t s.rows

end TableSource

namespace Database

def addIndexes (db : Database) (name : String) : List (String × List String) →
    Except Fault Database
  | [] => .ok db
  | (index, columns) :: rest =>
      if db.hasIndex index then .error (.nameTaken index)
      else
        match db.ensureIndex name ⟨index, columns.map .column, true⟩ with
        | .error fault => .error fault
        | .ok changed => changed.addIndexes name rest

def addSource (db : Database) (s : TableSource) : Except Fault Database :=
  if (db.table? s.name).isSome then .error (.nameTaken s.name)
  else
    match db.ensureTable s.name s.table with
    | .error fault => .error fault
    | .ok changed => changed.addIndexes s.name s.unique

def ofSources (sources : List TableSource) : Except Fault Database :=
  sources.foldlM addSource empty

def insertRow (db : Database) (name : String) (values : List (String × Cell)) :
    Except Fault Database :=
  if values.isEmpty then .error .badDeclaration
  else (db.insert name .abort values).map Prod.fst

end Database

end Gazetteer
