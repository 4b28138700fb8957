import Gazetteer.Catalog.Basic
import Gazetteer.Interchange.Requests
/-! Cells, fragments and the results of searches, imports and snapshots as interchange values. -/

namespace Gazetteer

namespace Cell

def toJson : Cell → Json
  | .null => .null
  | .int n => .ofFields [("int", .int n)]
  | .real x => .ofFields [("real", .ofMeasure x)]
  | .text s => .text s
  | .blob bytes => .ofFields [("hex", .text (Text.hex bytes))]

/-- Bytes that are to be text: text if they encode one, else no more than bytes. -/
def ofUtf8 (bytes : List UInt8) : Cell :=
  match String.fromUTF8? ⟨bytes.toArray⟩ with
  | some s => .text s
  | none => .blob bytes

def ofJson? (j : Json) : Option Cell :=
  match j with
  | .null => some .null
  | .text s => some (.text s)
  | .int n => some (if isWord n then .int n else .real (Number.ofInt n))
  | .float x => some (.real x)
  | .record [("hex", .text digits)] => (Text.ofHex? digits).map .blob
  | _ => none

end Cell

def Fragment.toJson (f : Fragment) : Json :=
  .ofFields [("sql", .text f.sql), ("params", .list (f.params.map Cell.toJson)),
    ("truth", .bool f.isTruth)]

def Bucket.toJson (b : Bucket) : Json :=
  .ofFields [("value", .text b.value), ("count", .int b.count)]

namespace Response

def facetsJson (r : Response) : Json :=
  .record (r.facets.entries.map fun entry => (entry.1, .list (entry.2.map Bucket.toJson)))

def toJson (r : Response) : Json :=
  .ofFields [("results", .list (r.results.map Resource.toJson)), ("facets", r.facetsJson),
    ("total", .int r.total)]

def idsJson (r : Response) : Json :=
  .ofFields [("ids", .ofTexts (r.results.map Resource.id)), ("facets", r.facetsJson),
    ("total", .int r.total)]

end Response

def ImportReport.toJson (r : ImportReport) : Json :=
  .ofFields [("processed", .int r.processed), ("skipped", .int r.skipped),
    ("failed", .int r.failed)]

def TableKind.name : TableKind → String
  | .resources => "Resources"
  | .distributions => "Distributions"
  | .unrecognized => "Unrecognized"

def TableSummary.toJson (s : TableSummary) : Json :=
  .ofFields [("kind", .text s.kind.name), ("added_count", .int s.added)]

/-- What can be seen of a snapshot.  One that was not damaged fits its own checksum. -/
def Snapshot.toJson (s : Snapshot) : Json :=
  .ofFields [("resource_count", .int s.resourceCount), ("compressed", .bool s.compressed),
    ("gzip", .bool s.looksCompressed), ("verified", .bool s.intact)]

def Sink.toJson (s : Sink) : Json :=
  .ofFields [("flushes", .int s.flushes), ("latest", .ofOption Snapshot.toJson s.latest)]

def TableRow.ofJson? (j : Json) : Option TableRow :=
  Json.Decode.dictOf Json.Decode.text j

namespace Table

/-- A row by the names of its columns, without what is null and without the time of its change. -/
def rowJson (t : Table) (r : Row) : Json :=
  .ofFields ((t.columns.filter fun c => !(r.cell c.name).isNull && c.name != "updated_at").map
    fun c => (c.name, (r.cell c.name).toJson))

def rowsJson (t : Table) : Json :=
  let rows := t.rows.map fun r => (t.rowJson r, (t.rowJson r).compact)
  .list ((rows.mergeSort fun a b => a.2 ≤ b.2).map Prod.fst)

end Table

end Gazetteer
