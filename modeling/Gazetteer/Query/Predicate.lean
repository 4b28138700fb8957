import Gazetteer.Query.Test
import Gazetteer.Request
/-!
The predicate of a request: the tests of its free text and box, which results and facets share, and
the tests of its conditions on fields.  All of them have to hold.
-/

namespace Gazetteer

/-- The tests of one condition. -/
abbrev Clause := List Test

namespace Clause

def fragment (c : Clause) : Fragment :=
  .conjunction (c.map Test.fragment)

def holds (db : Database) (c : Clause) (r : Row) : Bool :=
  c.all (Test.holds db r)

end Clause

/-- The clauses that all have to hold. -/
abbrev Predicate := List Clause

namespace Predicate

def fragment (p : Predicate) : Fragment :=
  .conjunction (p.map Clause.fragment)

def holds (db : Database) (p : Predicate) (r : Row) : Bool :=
  p.all fun c => c.holds db r

def needs (p : Predicate) : List (String × String) :=
  p.flatMap fun c => c.flatMap Test.needs

end Predicate

namespace Condition

/-- A scalar field has one value, which is all that the values asked for can be. -/
def scalarTests (field : String) (c : Condition) : List Test :=
  (match distinctTexts c.any with
    | [] => []
    | values => [.scalarIn field values]) ++
    (distinctTexts c.all).map (.scalarIs field) ++
    c.atLeast.toList.map (.scalarFrom field) ++
    c.atMost.toList.map (.scalarTo field)

def repeatableTests (field : String) (c : Condition) : List Test :=
  (match distinctTexts c.any with
    | [] => []
    | values => [.hasAny field values]) ++
    (match distinctTexts c.all with
    | [] => []
    | values => [.hasAll field values]) ++
    (if c.atLeast.isSome || c.atMost.isSome then [.hasWithin field c.atLeast c.atMost] else [])

/-- The clause of a condition on a field, none if the condition is empty. -/
def clause? (schema : Schema) (field : String) (c : Condition) :
    Except Error (Option Clause) :=
  match checkName field with
  | .error e => .error e
  | .ok () =>
      .ok (
        if c.isEmpty then none
        else if schema.isScalar field then some (c.scalarTests field)
        else some (c.repeatableTests field))

end Condition

namespace Request

def terms (r : Request) : List String :=
  match r.textQuery? with
  | some q => (Text.words q).map Text.lowercase
  | none => []

def globalClause (r : Request) : Clause :=
  (match r.textQuery? with
    | some _ => [.mentions r.terms]
    | none => []) ++
    r.box.toList.map .meets

/-- The clauses of conditions on fields, that on the omitted field left out. -/
def fieldClauses (schema : Schema) (omitted : Option String) :
    List (String × Condition) → Except Error Predicate
  | [] => .ok []
  | (field, condition) :: rest =>
      if omitted = some field then fieldClauses schema omitted rest
      else
        match condition.clause? schema field with
        | .error e => .error e
        | .ok clause => (fieldClauses schema omitted rest).map (clause.toList ++ ·)

/-- The predicate of a request, with or without its free text and box. -/
def predicate (schema : Schema) (r : Request) (omitted : Option String) (withGlobal : Bool) :
    Except Error Predicate :=
  (fieldClauses schema omitted r.filters.entries).map fun clauses =>
    (if withGlobal && !r.globalClause.isEmpty then [r.globalClause] else []) ++ clauses

end Request

end Gazetteer
