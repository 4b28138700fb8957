import Mathlib
import Gazetteer.Catalog.Session
import Gazetteer.Proofs.Ledger.Read
import Gazetteer.Proofs.Ledger.Write
import Gazetteer.Proofs.Store.Layout
/-!
Writes that concern one resource, and runs of them.  On a catalog that holds a ledger, a write does
what it does to the ledger.
-/

namespace Gazetteer

inductive Edit
  | upsert (r : Resource) (ds : List Distribution)
  | upsertRecord (record : Json)
  | delete (id : String)
  | cacheThumbnail (id url : String)
  | cacheStaticMap (id url : String)

/-- The state after an operation; one that fails leaves it as it is. -/
def stateAfter {σ α : Type} (s : σ) : Except Error (σ × α) → σ
  | .ok changed => changed.1
  | .error _ => s

namespace Catalog

/-- An edit, and its answer if it is one that gives an answer. -/
def edit (c : Catalog) : Edit → Except Error (Catalog × Option Bool)
  | .upsert r ds => (c.upsert r ds).map fun changed => (changed.1, none)
  | .upsertRecord record => (c.upsertRecord record).map fun changed => (changed.1, none)
  | .delete id => (c.delete id).map fun changed => (changed.1, some changed.2)
  | .cacheThumbnail id url => (c.cacheThumbnail id url).map fun changed => (changed.1, none)
  | .cacheStaticMap id url => (c.cacheStaticMap id url).map fun changed => (changed.1, none)

def run (c : Catalog) (edits : List Edit) : Catalog :=
  edits.foldl (fun c e => stateAfter c (c.edit e)) c

theorem run_concat (c : Catalog) (edits : List Edit) (e : Edit) :
    c.run (edits ++ [e]) = stateAfter (c.run edits) ((c.run edits).edit e) := by
  rw [run, List.foldl_append]
  rfl

end Catalog

namespace Ledger

variable {L : Ledger}

def upsert (L : Ledger) (r : Resource) (ds : List Distribution) : Except Error Ledger :=
  (Schema.check .aardvark r).map fun _ => L.put r ds

def edit (L : Ledger) (config : Config) : Edit → Except Error (Ledger × Option Bool)
  | .upsert r ds => (L.upsert r ds).map (·, none)
  | .upsertRecord record =>
      match Record.read .aardvark config record with
      | .error e => .error e
      | .ok written => (L.upsert written.1 written.2).map (·, none)
  | .delete id =>
      if Text.allBlank id then .error (.invalid .idRequired)
      else .ok (L.remove id, some (L.has id))
  | .cacheThumbnail id url => .ok (L.cacheThumbnail id url, none)
  | .cacheStaticMap id url => .ok (L.cacheStaticMap id url, none)

theorem upsert_eq_put {r : Resource} {ds : List Distribution} {changed : Ledger} :
    L.upsert r ds = .ok changed ↔ Schema.Accepts .aardvark r ∧ L.put r ds = changed := by
  rw [Ledger.upsert, ← Schema.check_eq_ok]
  cases Schema.check .aardvark r <;> simp [Except.map]

theorem Sound.upsert (h : L.Sound) {r : Resource} {ds : List Distribution} {changed : Ledger}
    (hupsert : L.upsert r ds = .ok changed) : changed.Sound := by
  obtain ⟨hr, rfl⟩ := upsert_eq_put.mp hupsert
  exact h.put hr ds

theorem Sound.edit (h : L.Sound) {config : Config} {e : Edit} {changed : Ledger}
    {answer : Option Bool} (hedit : L.edit config e = .ok (changed, answer)) : changed.Sound := by
  have hupsert {r : Resource} {ds : List Distribution}
      (hr : (L.upsert r ds).map (·, none) = .ok (changed, answer)) : changed.Sound := by
    obtain ⟨_, hresult, heq⟩ := map_eq_ok.mp hr
    cases heq
    exact h.upsert hresult
  cases e with
  | upsert r ds => exact hupsert hedit
  | upsertRecord record =>
      rw [Ledger.edit] at hedit
      split at hedit
      · cases hedit
      · exact hupsert hedit
  | delete id =>
      rw [Ledger.edit] at hedit
      split at hedit
      · cases hedit
      · cases hedit
        exact h.remove id
  | cacheThumbnail id url =>
      cases hedit
      exact h.cacheThumbnail id url
  | cacheStaticMap id url =>
      cases hedit
      exact h.cacheStaticMap id url

private theorem none_eq : Contents.none = empty.contents := by
  funext p
  cases p <;> rfl

theorem prepare_empty : Database.empty.prepare .aardvark = .ok empty.database := by
  have hfresh : Database.fresh .aardvark = .ok empty.database := by
    rw [Contents.fresh_eq, none_eq]
    rfl
  rwa [Database.fresh] at hfresh

def snapshot (L : Ledger) (compress : Bool) : Snapshot :=
  ⟨.image L.database, L.resources.length, compress, true⟩

theorem snapshot_database (L : Ledger) (compress : Bool) :
    L.database.snapshot compress = .ok (L.snapshot compress) := by
  rw [Database.snapshot, count_database]
  rfl

end Ledger

namespace Catalog

def holding (c : Catalog) (L : Ledger) : Catalog :=
  { c with
    database := some L.database
    sink := c.sink.map fun sink =>
      ⟨sink.flushes + 1, some (L.snapshot c.config.compressSnapshots)⟩ }

variable {c : Catalog} {L : Ledger}

theorem flush_database (c : Catalog) (L : Ledger) : c.flush L.database = .ok (c.holding L) := by
  obtain ⟨config, database, sink⟩ := c
  cases sink with
  | none => rfl
  | some sink =>
      rw [flush, Ledger.snapshot_database]
      rfl

theorem prepared_eq {db ready : Database} (h : db.prepare .aardvark = .ok ready) :
    prepared db = some ready := by
  rw [prepared, schema, h]

theorem fresh_database (config : Config) (sink : Option Sink) :
    (fresh config sink).database = some Ledger.empty.database := by
  simp only [fresh, prepared_eq Ledger.prepare_empty]

theorem write_database {α : Type} (hc : c.database = some L.database) {idle : α}
    {operation : Database → Except Error (Database × α)} (result : Except Error (Ledger × α))
    (h : operation L.database = result.map fun changed => (changed.1.database, changed.2)) :
    c.write idle operation = result.map fun changed => (c.holding changed.1, changed.2) := by
  simp only [write, hc, h]
  cases result with
  | error e => rfl
  | ok changed =>
      simp only [Except.map, flush_database]

theorem get_database (hc : c.database = some L.database) (h : L.Sound) (id : String) :
    c.get id = match L.resource? id with
      | some r => .ok r
      | none => .error (.notFound id) := by
  have hone : [id].eraseDups = [id] := rfl
  simp only [get, getMany, read, hc, Ledger.hydrate_database h, hone, engineResult]
  cases hr : L.resource? id <;> simp [hr]

private theorem upsert_database (hc : c.database = some L.database) (r : Resource)
    (ds : List Distribution) :
    c.upsert r ds = (L.upsert r ds).map fun changed => (c.holding changed, ()) := by
  cases hcheck : Schema.check .aardvark r with
  | error e => simp only [upsert, Ledger.upsert, schema, hcheck, Except.map]
  | ok =>
      simp only [upsert, Ledger.upsert, schema, hcheck]
      refine write_database hc (.ok (L.put r ds, ())) ?_
      rw [Ledger.upsert_database, hcheck]
      rfl

theorem edit_database (hc : c.database = some L.database) (e : Edit) :
    c.edit e = (L.edit c.config e).map fun changed => (c.holding changed.1, changed.2) := by
  cases e with
  | upsert r ds =>
      rw [edit, Ledger.edit, upsert_database hc]
      cases L.upsert r ds <;> rfl
  | upsertRecord record =>
      rw [edit, Ledger.edit, upsertRecord, schema]
      cases Record.read .aardvark c.config record with
      | error e => rfl
      | ok written =>
          simp only [upsert_database hc]
          cases L.upsert written.1 written.2 <;> rfl
  | delete id =>
      rw [edit, Ledger.edit, delete, write_database hc
        (if Text.allBlank id then .error (.invalid .idRequired)
          else .ok (L.remove id, L.has id))]
      · cases Text.allBlank id <;> rfl
      · rw [Ledger.remove_database]
        cases Text.allBlank id <;> rfl
  | cacheThumbnail id url =>
      rw [edit, Ledger.edit, cacheThumbnail, write_database hc
        (.ok (L.cacheThumbnail id url, ()))]
      · rfl
      · rw [Ledger.cacheThumbnail_database]
        rfl
  | cacheStaticMap id url =>
      rw [edit, Ledger.edit, cacheStaticMap, write_database hc
        (.ok (L.cacheStaticMap id url, ()))]
      · rfl
      · rw [Ledger.cacheStaticMap_database]
        rfl

end Catalog

end Gazetteer
