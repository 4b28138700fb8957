import Gazetteer.Config
import Gazetteer.Error
import Gazetteer.Json.Decode
import Gazetteer.Json.Reader
/-!
Settings as interchange values.  In a settings file a field of another name is passed over without
a look at its value, and a field given twice is an error.
-/

namespace Gazetteer.Config

open Json.Decode

def fieldNames : List String := [
  "database_path", "default_page_size", "default_facet_limit", "timeline_field",
  "timeline_facet_limit", "reference_relations", "column_aliases", "compress_snapshots",
  "verify_snapshots"
]

def ofJson? (j : Json) : Option Config := do
  let fs ← fields fieldNames j
  let path ← optional fs "database_path" none (nullable text)
  let pageSize ← optional fs "default_page_size" standard.defaultPageSize count
  let facetLimit ← optional fs "default_facet_limit" standard.defaultFacetLimit count
  let timeline ← optional fs "timeline_field" standard.timelineField text
  let timelineLimit ← optional fs "timeline_facet_limit" standard.timelineFacetLimit count
  let relations ← optional fs "reference_relations" standard.relations (dictOf text)
  let aliases ← optional fs "column_aliases" standard.aliases (dictOf text)
  let compress ← optional fs "compress_snapshots" standard.compressSnapshots bool
  let verify ← optional fs "verify_snapshots" standard.verifySnapshots bool
  return ⟨path, pageSize, facetLimit, timeline, timelineLimit, relations, aliases, compress,
    verify⟩

def knownFields? : List (Option String × Json.Tree) → Option (List (String × Json))
  | [] => some []
  | (none, _) :: _ => none
  | (some name, tree) :: rest =>
      (knownFields? rest).bind fun found =>
        if name ∉ fieldNames then some found
        else if (findEntry name found).isSome then none
        else (tree.value? (Json.depthLimit - 1)).map fun value => (name, value) :: found

def ofTree? : Json.Tree → Option Config
  | .record entries => (knownFields? entries).bind fun found => ofJson? (.ofFields found)
  | .list items =>
      (Json.Tree.values? (Json.depthLimit - 1) items).bind fun values => ofJson? (.list values)
  | _ => none

/-- The settings in the text of a file, if there is a file. -/
def ofFile : Option String → Except Error Config
  | none => .error .file
  | some content =>
      match (Json.Tree.ofText? content).bind ofTree? with
      | none => .error .json
      | some config => .ok config

/-- The settings as a record; without `full`, the two tables by their sizes only. -/
def toJson (c : Config) (full : Bool) : Json :=
  let table (d : Dict String) : Json :=
    if full then .record (d.entries.map fun entry => (entry.1, .text entry.2)) else .int d.size
  .ofFields [
    ("database_path", .ofOption .text c.databasePath),
    ("default_page_size", .int c.defaultPageSize),
    ("default_facet_limit", .int c.defaultFacetLimit),
    ("timeline_field", .text c.timelineField),
    ("timeline_facet_limit", .int c.timelineFacetLimit),
    ("reference_relations", table c.relations),
    ("column_aliases", table c.aliases),
    ("compress_snapshots", .bool c.compressSnapshots),
    ("verify_snapshots", .bool c.verifySnapshots)]

end Gazetteer.Config
