import Gazetteer.Store.Table
/-! Databases: tables by name. -/

namespace Gazetteer

structure Database where
  tables : List Table
deriving DecidableEq, Inhabited

namespace Database

def empty : Database :=
  ⟨[]⟩

def table? (db : Database) (name : String) : Option Table :=
  db.tables.find? fun t => Text.sameLetters t.name name

def table (db : Database) (name : String) : Except Fault Table :=
  match db.table? name with
  | some t => .ok t
  | none => .error (.noTable name)

/-- The database with another table in the place of the first one of its name. -/
def put (db : Database) (t : Table) : Database :=
  ⟨replaceFirst db.tables⟩
where
  replaceFirst : List Table → List Table
    | [] => []
    | other :: rest =>
        if Text.sameLetters other.name t.name then t :: rest else other :: replaceFirst rest

def rows (db : Database) (name : String) : List Row :=
  match db.table? name with
  | some t => t.rows
  | none => []

def affinity (db : Database) (name column : String) : Affinity :=
  match db.table? name with
  | some t => t.affinity column
  | none => .none

/-- Whether all columns that a query names exist, each given with its table. -/
def need (db : Database) : List (String × String) → Except Fault Unit
  | [] => .ok ()
  | (name, column) :: rest =>
      match db.table name with
      | .error fault => .error fault
      | .ok t => if t.has column then db.need rest else .error (.noColumn name column)

def modify {α : Type} (db : Database) (name : String)
    (statement : Table → Except Fault (Table × α)) : Except Fault (Database × α) :=
  match db.table name with
  | .error fault => .error fault
  | .ok t =>
      match statement t with
      | .error fault => .error fault
      | .ok (changed, result) => .ok (db.put changed, result)

def insert (db : Database) (name : String) (conflict : Conflict)
    (values : List (String × Cell)) : Except Fault (Database × Bool) :=
  db.modify name fun t => t.insert conflict values

def delete (db : Database) (name column value : String) : Except Fault (Database × Nat) :=
  db.modify name fun t => t.delete column value

def drop (db : Database) (name : String) : Except Fault Database :=
  match db.table name with
  | .error fault => .error fault
  | .ok t => .ok ⟨db.tables.filter fun other => !Text.sameLetters other.name t.name⟩

def indexNames (db : Database) : List String :=
  db.tables.flatMap fun t => t.indexes.map Index.name

def columnNames (db : Database) (name : String) : List String :=
  match db.table? name with
  | some t => t.columns.map Column.name
  | none => []

/-- The indexes that were given a name of their own, in ascending order. -/
def namedIndexes (db : Database) : List String :=
  (db.indexNames.filter fun name => name.startsWith "idx").mergeSort fun a b => a ≤ b

def hasIndex (db : Database) (name : String) : Bool :=
  db.indexNames.any fun other => Text.sameLetters other name

def dropIndex (db : Database) (name : String) : Database :=
  ⟨db.tables.map fun t =>
    { t with indexes := t.indexes.filter fun i => !Text.sameLetters i.name name }⟩

/-- The database with an index on a table, unless there is an index of that name already. -/
def ensureIndex (db : Database) (name : String) (i : Index) : Except Fault Database :=
  match db.table name with
  | .error fault => .error fault
  | .ok t =>
      if (db.table? i.name).isSome then .error (.nameTaken i.name)
      else if db.hasIndex i.name then .ok db
      else (t.addIndex i).map db.put

/-- The database with a table, unless there is one of that name already. -/
def ensureTable (db : Database) (name : String) (make : Except Fault Table) :
    Except Fault Database :=
  match db.table? name with
  | some _ => .ok db
  | none =>
      if db.hasIndex name then .error (.nameTaken name)
      else make.map fun t => ⟨db.tables ++ [t]⟩

def reject (db : Database) (name : String) (rule : Rejection) : Except Fault Database :=
  (db.modify name fun t => .ok ({ t with rejections := t.rejections ++ [rule] }, ())).map Prod.fst

end Database

end Gazetteer
