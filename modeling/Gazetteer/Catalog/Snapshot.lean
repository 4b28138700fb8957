import Gazetteer.Catalog.Hydrate
import Gazetteer.Catalog.Write
import Gazetteer.Digest.Sha256
import Gazetteer.Gzip.Member
import Gazetteer.Text.Hex
import Gazetteer.Text.Letter
/-!
Snapshots: the image of a database, perhaps compressed, with a checksum of the image.  An image
from elsewhere is a list of bytes, of which only the empty one is an image of a database.
-/

namespace Gazetteer

inductive Payload
  | image (db : Database)
  /-- A part of an image. -/
  | fragment
  | bytes (raw : List UInt8)
deriving DecidableEq

structure Snapshot where
  payload : Payload
  resourceCount : Nat
  compressed : Bool
  /-- Whether the checksum is that of the payload. -/
  intact : Bool
deriving DecidableEq

inductive Damage
  | checksum
  | garbage
  | emptied
  | halved
deriving DecidableEq, Repr

namespace Snapshot

/-- The uncompressed image in some bytes, checked against a checksum if one is expected. -/
def decode (bytes : List UInt8) (expected : Option String) : Except Error (List UInt8) :=
  let image? := if Gzip.isCompressed bytes then Gzip.decompress? bytes else some bytes
  match image?, expected with
  | none, _ => .error (.snapshot .undecodable)
  | some image, none => .ok image
  | some image, some sum =>
      let actual := Text.hex (Digest.sha256 image)
      if Text.sameLetters actual sum then .ok image
      else .error (.snapshot (.checksum sum actual))

/-- The database of an image given as bytes: fewer than two bytes make an empty one. -/
def databaseOfBytes? (bytes : List UInt8) : Option Database :=
  match decode bytes none with
  | .ok image => if image.length < 2 then some .empty else none
  | .error _ => none

end Snapshot

def Payload.database? : Payload → Option Database
  | image db => some db
  | fragment => none
  | bytes raw => Snapshot.databaseOfBytes? raw

namespace Snapshot

/-- The database of a snapshot, if its payload can be read and, where that is asked for, has the
checksum. -/
def database? (s : Snapshot) (verify : Bool) : Option Database :=
  if verify && !s.intact then none else s.payload.database?

def damaged (s : Snapshot) : Damage → Snapshot
  | .checksum => { s with intact := false }
  | .garbage =>
      { s with payload := .bytes "this is not a database image".toUTF8.toList, intact := false }
  | .emptied => { s with payload := .bytes [], intact := false }
  | .halved => { s with payload := .fragment, intact := false }

def looksCompressed (s : Snapshot) : Bool :=
  match s.payload with
  | .bytes raw => Gzip.isCompressed raw
  | _ => s.compressed

end Snapshot

namespace Database

def snapshot (compress : Bool) (db : Database) : Except Fault Snapshot :=
  db.count.map fun count => ⟨.image db, count, compress, true⟩

def ofSnapshot (schema : Schema) (s : Snapshot) (verify : Bool) : Except Error Database :=
  match s.database? verify with
  | none => .error (.snapshot .undecodable)
  | some db => engineResult (db.prepare schema)

end Database

end Gazetteer
