import Gazetteer.Config
import Gazetteer.Error
import Gazetteer.Json.Reader
import Gazetteer.Resource
import Gazetteer.Text.Blank
/-!
References: the access points of a resource as one interchange record, keyed by relation address.
A relation with one unlabelled address is written as a text, any other as a list of links.
-/

namespace Gazetteer.References

/-- An address with its label, before blanks are looked at. -/
structure Link where
  url : String
  label : Option String
deriving DecidableEq, Repr

def malformed (j : Json) : Error :=
  .invalid (.malformedReferences j.compact)

def textField? (j : Json) (name : String) : Option String :=
  match j.field? name with
  | some (.text s) => some s
  | _ => none

/-- One link: a bare address, or a record with an address and perhaps a label. -/
def link : Json → Except Error Link
  | .text url => .ok ⟨url, none⟩
  | .record fields =>
      match textField? (.record fields) "url" with
      | none => .error (.invalid .linkWithoutUrl)
      | some url => .ok ⟨url, textField? (.record fields) "label"⟩
  | other => .error (malformed other)

def links : List Json → Except Error (List Link)
  | [] => .ok []
  | item :: items =>
      match link item with
      | .error e => .error e
      | .ok first => (links items).map (first :: ·)

/-- The links under one relation address; null stands for none. -/
def entryLinks : Json → Except Error (List Link)
  | .text url => .ok [⟨url, none⟩]
  | .list items => links items
  | .record fields => (link (.record fields)).map ([·])
  | .null => .ok []
  | other => .error (malformed other)

/-- The distribution of a link, unless its address is blank.  A blank label counts as none. -/
def distribution? (relation : String) (l : Link) : Option Distribution :=
  let url := Text.trim l.url
  if url.isEmpty then none
  else some ⟨relation, url, l.label.filter fun label => !Text.allBlank label⟩

def readEntries (config : Config) : List (String × Json) → Except Error (List Distribution)
  | [] => .ok []
  | (address, entry) :: rest =>
      match entryLinks entry with
      | .error e => .error e
      | .ok found =>
          (readEntries config rest).map
            (found.filterMap (distribution? (config.relationKey address)) ++ ·)

/-- The record of entries that a references value stands for: itself, its text, or nothing. -/
def entries : Json → Except Error (List (String × Json))
  | .null => .ok []
  | .text s =>
      if Text.allBlank s then .ok []
      else
        match Json.ofText? s with
        | none => .error .json
        | some (.record fields) => .ok fields
        | some other => .error (malformed other)
  | .record fields => .ok fields
  | other => .error (malformed other)

def read (config : Config) (j : Json) : Except Error (List Distribution) :=
  match entries j with
  | .error e => .error e
  | .ok fields => readEntries config fields

/-- A distribution put at the end of the group of its relation, which comes last if it is new. -/
def addMember (d : Distribution) :
    List (String × List Distribution) → List (String × List Distribution)
  | [] => [(d.relation, [d])]
  | (relation, members) :: rest =>
      if relation = d.relation then (relation, members ++ [d]) :: rest
      else (relation, members) :: addMember d rest

/-- The distributions by relation, relations in the order of their first distribution. -/
def groups (ds : List Distribution) : List (String × List Distribution) :=
  ds.foldl (fun found d => addMember d found) []

def linkJson (d : Distribution) : Json :=
  .ofFields (("url", .text d.url) :: (d.label.map fun label => ("label", .text label)).toList)

def groupJson : List Distribution → Json
  | [⟨_, url, none⟩] => .text url
  | members => .list (members.map linkJson)

/-- The interchange record of distributions.  Of two relations with one address the later stays. -/
def record (config : Config) (ds : List Distribution) : Json :=
  .ofFields ((groups ds).map fun group => (config.relationAddress group.1, groupJson group.2))

def text? (config : Config) (ds : List Distribution) : Option String :=
  if ds.isEmpty then none else some (record config ds).compact

end Gazetteer.References
