/-! What can go wrong, as causes, and the words for it. -/

namespace Gazetteer

/-- Input that is refused before anything is done with it. -/
inductive Complaint
  | malformedField (name : String)
  | idRequired
  | notScalar (name : String)
  | notRepeatable (name : String)
  | unknownSortField (name : String)
  | recordNotObject
  | linkWithoutUrl
  | malformedReferences (text : String)
  | unrecognizedTable
deriving DecidableEq, Repr

/-- The steps in which the stored state of a resource is replaced or removed. -/
inductive Step
  | deleteScalarRow
  | deleteAttributeRows
  | deleteDistributions
  | deleteSearchContent
  | deleteThumbnail
  | deleteStaticMap
  | insertScalarRow
  | prepareAttributeInsert
  | insertAttributeRow
  | readDistributionPosition
  | prepareDistributionInsert
  | insertDistribution
  | insertSearchContent
  | commit
deriving DecidableEq, Repr

/-- Why the store refuses a statement. -/
inductive Fault
  | noTable (name : String)
  | noColumn (table column : String)
  | repeatedColumn (name : String)
  | missingValue (column : String)
  | repeatedKey (columns : List String)
  | rejected (column value : String)
  | notWhole (column : String)
  | nameTaken (name : String)
  | badDeclaration
  | unexpectedType (column : String)
  | noKey (column : String)
deriving DecidableEq, Repr

inductive SnapshotFault
  | checksum (expected actual : String)
  | undecodable
deriving DecidableEq, Repr

inductive Error
  | invalid (complaint : Complaint)
  | notFound (id : String)
  | unavailable
  | unreconciled (id : String) (step : Step)
  | engine (fault : Fault)
  | json
  | file
  | snapshot (fault : SnapshotFault)
deriving DecidableEq, Repr

def Complaint.text : Complaint → String
  | .malformedField name => "malformed field name '" ++ name ++ "'"
  | .idRequired => "resource id is required"
  | .notScalar name => "'" ++ name ++ "' is not a scalar field"
  | .notRepeatable name => "'" ++ name ++ "' is a scalar field, not repeatable"
  | .unknownSortField name => "unknown sort field '" ++ name ++ "'"
  | .recordNotObject => "record is not a JSON object"
  | .linkWithoutUrl => "reference entry without url"
  | .malformedReferences text => "malformed references value: " ++ text
  | .unrecognizedTable => "tabular input is neither a resources nor a distributions table"

def Step.text : Step → String
  | .deleteScalarRow => "delete scalar row"
  | .deleteAttributeRows => "delete attribute rows"
  | .deleteDistributions => "delete distributions"
  | .deleteSearchContent => "delete search content"
  | .deleteThumbnail => "delete thumbnail"
  | .deleteStaticMap => "delete static map"
  | .insertScalarRow => "insert scalar row"
  | .prepareAttributeInsert => "prepare attribute insert"
  | .insertAttributeRow => "insert attribute row"
  | .readDistributionPosition => "read distribution position"
  | .prepareDistributionInsert => "prepare distribution insert"
  | .insertDistribution => "insert distribution"
  | .insertSearchContent => "insert search content"
  | .commit => "commit"

def Error.message : Error → Option String
  | .invalid complaint => some ("Invalid input: " ++ complaint.text)
  | .notFound id => some ("Not found: resource '" ++ id ++ "'")
  | .unavailable => some "Engine unavailable: catalog engine is not initialized"
  | .snapshot (.checksum expected actual) =>
      some ("Snapshot error: checksum mismatch: expected " ++ expected ++ ", got " ++ actual)
  | _ => none

end Gazetteer
