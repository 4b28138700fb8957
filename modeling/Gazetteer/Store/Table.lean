import Gazetteer.Dict
import Gazetteer.Error
import Gazetteer.Store.Order
import Gazetteer.Text.Letter
/-!
Stored tables: columns with an affinity, rows in the order of their insertion, unique keys, and
rules that reject rows.  Names are compared without regard to letter case.  A statement either
gives the whole new table or the fault for which nothing of it was done.
-/

namespace Gazetteer

structure Column where
  name : String
  affinity : Affinity
  /-- Whether null is refused. -/
  required : Bool
  /-- The value of rows that give none. -/
  fallback : Cell
deriving DecidableEq

/-- What an index looks at: a column, or a column with the empty text in place of null. -/
inductive KeyPart
  | column (name : String)
  | orEmpty (name : String)
deriving DecidableEq

structure Index where
  name : String
  parts : List KeyPart
  unique : Bool
deriving DecidableEq

inductive RowEvent
  | insert
  | delete
deriving DecidableEq

/-- A rule by which rows with this text in a column may not be inserted, or not be deleted. -/
structure Rejection where
  event : RowEvent
  column : String
  value : String
deriving DecidableEq

/-- The cells of a row by folded column name; a column that is not listed holds null. -/
structure Row where
  cells : List (String × Cell)
deriving DecidableEq, Inhabited

structure Table where
  name : String
  columns : List Column
  /-- The column whose whole numbers order the rows, if one was declared for it. -/
  rowKey : Option String
  rows : List Row
  indexes : List Index
  rejections : List Rejection
deriving DecidableEq, Inhabited

inductive Conflict
  | abort
  | ignore
deriving DecidableEq

namespace Row

def cell (r : Row) (column : String) : Cell :=
  (findEntry (Text.fold column) r.cells).getD .null

def update (r : Row) (changes : List (String × Cell)) : Row :=
  let folded := changes.map fun change => (Text.fold change.1, change.2)
  ⟨r.cells.map (fun entry => (entry.1, (findEntry entry.1 folded).getD entry.2)) ++
    folded.filter fun change => !r.cells.any fun entry => entry.1 == change.1⟩

end Row

def KeyPart.cell (part : KeyPart) (r : Row) : Cell :=
  match part with
  | .column name => r.cell name
  | .orEmpty name =>
      match r.cell name with
      | .null => .text ""
      | c => c

def KeyPart.columnName : KeyPart → String
  | .column name => name
  | .orEmpty name => name

/-- Whether two rows have one key; null is no key. -/
def Index.collide (i : Index) (a b : Row) : Bool :=
  i.parts.all fun part => (part.cell a).equals (part.cell b)

def Index.fault (i : Index) : Fault :=
  .repeatedKey (i.parts.map KeyPart.columnName)

namespace Table

def column? (t : Table) (name : String) : Option Column :=
  t.columns.find? fun c => Text.sameLetters c.name name

def has (t : Table) (name : String) : Bool :=
  (t.column? name).isSome

def affinity (t : Table) (name : String) : Affinity :=
  match t.column? name with
  | some c => c.affinity
  | none => .none

def need (t : Table) : List String → Except Fault Unit
  | [] => .ok ()
  | name :: rest => if t.has name then t.need rest else .error (.noColumn t.name name)

/-- A text as it is compared with a column. -/
def wanted (t : Table) (column value : String) : Cell :=
  (Cell.text value).against (t.affinity column)

def select (t : Table) (column value : String) : List Row :=
  let c := t.wanted column value
  t.rows.filter fun r => (r.cell column).equals c

def without (t : Table) (column value : String) : List Row :=
  let c := t.wanted column value
  t.rows.filter fun r => !(r.cell column).equals c

def checkRejections (t : Table) (event : RowEvent) (r : Row) : Except Fault Unit :=
  match t.rejections.find? fun rule =>
      rule.event == event && (r.cell rule.column).equals (t.wanted rule.column rule.value) with
  | some rule => .error (.rejected rule.column rule.value)
  | none => .ok ()

/-- Rules are resolved before a statement runs: the columns they name must exist. -/
def checkRules (t : Table) (event : RowEvent) : Except Fault Unit :=
  t.need ((t.rejections.filter fun rule => rule.event == event).map Rejection.column)

def wholeCells (column : String) (rows : List Row) : List Int :=
  rows.filterMap fun r =>
    match r.cell column with
    | .int n => some n
    | _ => none

/-- The cell that orders the rows: the next free number in place of null. -/
def fillRowKey (t : Table) (r : Row) : Except Fault Row :=
  match t.rowKey with
  | none => .ok r
  | some column =>
      match r.cell column with
      | .null =>
          let last := (wholeCells column t.rows).foldl max 0
          .ok (r.update [(column, .int (last + 1))])
      | .int _ => .ok r
      | _ => .error (.notWhole column)

/-- A new row from the given cells: of two for one column the first counts, and columns without
one take their fallback. -/
def newRow (t : Table) (values : List (String × Cell)) : Row :=
  ⟨t.columns.map fun c =>
    let given := (values.find? fun value => Text.sameLetters value.1 c.name).map Prod.snd
    (Text.fold c.name, (given.getD c.fallback).store c.affinity)⟩

def missing? (t : Table) (r : Row) : Option Fault :=
  (t.columns.find? fun c => c.required && (r.cell c.name).isNull).map fun c =>
    .missingValue c.name

def collision? (t : Table) (rows : List Row) (r : Row) : Option Index :=
  t.indexes.find? fun i => i.unique && rows.any fun other => i.collide r other

/-- The rows with one more: the last, or in the place that the ordering column gives it. -/
def place (t : Table) (r : Row) : List Row :=
  match t.rowKey with
  | none => t.rows ++ [r]
  | some column =>
      let before (other : Row) : Bool := (other.cell column).atMost (r.cell column)
      t.rows.filter before ++ [r] ++ t.rows.filter fun other => !before other

/-- The table with one more row, and whether the row was taken. -/
def insert (t : Table) (conflict : Conflict) (values : List (String × Cell)) :
    Except Fault (Table × Bool) := do
  t.need (values.map Prod.fst)
  t.checkRules .insert
  let r ← t.fillRowKey (t.newRow values)
  t.checkRejections .insert r
  let broken := (t.missing? r).orElse fun _ => (t.collision? t.rows r).map Index.fault
  match broken, conflict with
  | some _, .ignore => return (t, false)
  | some fault, .abort => throw fault
  | none, _ => return ({ t with rows := t.place r }, true)

/-- A row inserted, or put into the place of the row with the same key: the changes of the columns
other than the key are taken over. -/
def upsert (t : Table) (key : String) (values : List (String × Cell)) : Except Fault Table := do
  t.need (values.map Prod.fst)
  t.checkRules .insert
  match t.indexes.find? fun i =>
      i.unique && i.parts.map (fun p => Text.fold p.columnName) == [Text.fold key] &&
        i.parts.all fun p => p == .column p.columnName with
  | none => throw (.noKey key)
  | some index =>
      let r ← t.fillRowKey (t.newRow values)
      t.checkRejections .insert r
      match t.missing? r with
      | some fault => throw fault
      | none => pure ()
      match t.rows.find? fun other => index.collide r other with
      | none =>
          match t.collision? t.rows r with
          | some broken => throw (Index.fault broken)
          | none => return { t with rows := t.place r }
      | some old =>
          let changes := (values.filter fun value => !Text.sameLetters value.1 key).map
            fun value => (value.1, r.cell value.1)
          let changed := old.update changes
          let others := t.rows.filter fun other => !index.collide r other
          match t.collision? others changed with
          | some broken => throw (Index.fault broken)
          | none =>
              return { t with rows := t.rows.map fun other =>
                if index.collide r other then changed else other }

def delete (t : Table) (column value : String) : Except Fault (Table × Nat) := do
  t.need [column]
  t.checkRules .delete
  let gone := t.select column value
  gone.forM (t.checkRejections .delete)
  return ({ t with rows := t.without column value }, gone.length)

/-- Other cells under some columns, for the rows among `rest` whose cell under `column` is the given
one, one row after the other. -/
def changeRows (t : Table) (column : String) (c : Cell) (changes : List (String × Cell))
    (done : List Row) : List Row → Except Fault (List Row)
  | [] => .ok done
  | r :: rest =>
      if (r.cell column).equals c then
        let changed := r.update changes
        match t.missing? changed, t.collision? (done ++ rest) changed with
        | some fault, _ => .error fault
        | none, some broken => .error (Index.fault broken)
        | none, none => t.changeRows column c changes (done ++ [changed]) rest
      else t.changeRows column c changes (done ++ [r]) rest

/-- Other cells under some columns, for the rows that have a text in a column; and how many rows
those are. -/
def change (t : Table) (column value : String) (changes : List (String × Cell)) :
    Except Fault (Table × Nat) := do
  t.need (column :: changes.map Prod.fst)
  let stored := changes.map fun entry => (entry.1, entry.2.store (t.affinity entry.1))
  let rows ← t.changeRows column (t.wanted column value) stored [] t.rows
  return ({ t with rows := rows }, (t.select column value).length)

def hasCollision (i : Index) : List Row → Bool
  | [] => false
  | r :: rest => rest.any (i.collide r) || hasCollision i rest

/-- The table with one more index, unless its columns are missing or its key is not unique. -/
def addIndex (t : Table) (i : Index) : Except Fault Table := do
  t.need (i.parts.map KeyPart.columnName)
  if i.unique && hasCollision i t.rows then throw (Index.fault i)
  else return { t with indexes := t.indexes ++ [i] }

def addColumn (t : Table) (c : Column) : Except Fault Table :=
  if t.has c.name then .error (.repeatedColumn c.name)
  else if c.required && c.fallback.isNull && !t.rows.isEmpty then .error (.missingValue c.name)
  else
    .ok { t with
      columns := t.columns ++ [c]
      rows := t.rows.map fun r =>
        ⟨r.cells ++ [(Text.fold c.name, c.fallback.store c.affinity)]⟩ }

end Table

end Gazetteer
