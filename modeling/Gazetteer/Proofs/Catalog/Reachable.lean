import Mathlib
import Gazetteer.Proofs.Catalog.Edit
import Gazetteer.Proofs.Catalog.Import
/-!
The sessions that writes, imports, reopening and restoring lead to.  The database of each is that of
a sound ledger.
-/

namespace Gazetteer

inductive Action
  | edit (e : Edit)
  | importBulk (records : List Json)
  | importTabular (rows : List TableRow) (aliases : Option (Dict String))
  | reopen
  | restore (backup : Backup)
  | reimport

namespace Session

def step (s : Session) : Action → Except Error Session
  | .edit e => (s.write fun c => c.edit e).map Prod.fst
  | .importBulk records => (s.write fun c => c.importBulk records).map Prod.fst
  | .importTabular rows aliases => (s.write fun c => c.importTabular rows aliases).map Prod.fst
  | .reopen => .ok s.reopened
  | .restore backup => (s.restored backup).map fun restored => restored.getD s
  | .reimport => s.reimported.map Prod.fst

/-- The sessions that actions lead to from a catalog without resources, in memory or in an empty
file, with a sink that holds no snapshot if there is one.  An action that fails leads nowhere. -/
inductive Reachable : Session → Prop
  | memory (config : Config) {sink : Option Sink} (hsink : ∀ k ∈ sink, k.latest = none) :
      Reachable (start .memory config sink)
  | file (config : Config) {sink : Option Sink} (hsink : ∀ k ∈ sink, k.latest = none) :
      Reachable (start (.file .empty) config sink)
  | step {s t : Session} {a : Action} (hs : Reachable s) (ha : s.step a = .ok t) : Reachable t

end Session

/-! Databases of sound ledgers -/

namespace Database

def Sound (db : Database) : Prop :=
  ∃ L : Ledger, L.Sound ∧ L.database = db

variable {db changed : Database}

theorem sound_fresh : Ledger.empty.database.Sound :=
  ⟨.empty, Ledger.sound_empty, rfl⟩

theorem Sound.upsert (h : db.Sound) {r : Resource} {ds : List Distribution}
    (hupsert : db.upsert .aardvark r ds = .ok changed) : changed.Sound := by
  obtain ⟨L, hL, rfl⟩ := h
  obtain ⟨hr, hchanged⟩ := Ledger.upsert_eq_ok.mp hupsert
  exact ⟨_, hL.put hr ds, hchanged⟩

private theorem Sound.refresh (h : db.Sound) {r : Resource} {ds : List Distribution}
    (hrefresh : db.refresh .aardvark r ds = .ok changed) : changed.Sound := by
  obtain ⟨L, hL, rfl⟩ := h
  obtain ⟨hr, M, hM, hchanged⟩ := Ledger.refresh_eq_ok.mp hrefresh
  exact ⟨M, hL.replace? hr hM, hchanged⟩

private theorem Sound.append (h : db.Sound) {id : String} {ds : List Distribution} {count : Nat}
    (happend : db.append id ds = .ok (changed, count)) : changed.Sound := by
  obtain ⟨L, hL, rfl⟩ := h
  obtain ⟨M, hM, hchanged, -⟩ := Ledger.append_eq_ok.mp happend
  exact ⟨M, hL.extend? hM, hchanged⟩

theorem kept_sound (config : Config) : Kept config Sound where
  upsert hdb _ hupsert := hdb.upsert hupsert
  refresh hdb _ hrefresh := hdb.refresh hrefresh
  append hdb _ happend := hdb.append happend

/-- The rows of a resource without an envelope do not await one. -/
theorem Sound.prepare (h : db.Sound) : db.prepare .aardvark = .ok db := by
  obtain ⟨L, hL, rfl⟩ := h
  refine Contents.prepare_database L.contents fun row hrow hawaits => ?_
  obtain ⟨r, hr, rfl⟩ := List.mem_map.mp hrow
  have hminX := Resource.scalarRow_geometry (hL.accepted r hr)
    (show "geom_minx" ∈ Layout.geometryColumns by decide)
  rw [awaitsEnvelope, Bool.and_eq_true, hminX, Resource.envelope?] at hawaits
  rw [Resource.scalarRow_box (hL.accepted r hr)]
  cases hparse : r.boxText?.bind Envelope.parse? with
  | none => rfl
  | some e =>
      rw [hparse] at hawaits
      exact absurd hawaits.1 Bool.false_ne_true

end Database

/-! Ledgers of a kind -/

/-- A kind of sound ledgers that the empty one is of. -/
structure Ledger.Kind (P : Ledger → Prop) : Prop where
  empty : P .empty
  sound : ∀ L, P L → L.Sound

theorem Ledger.kind_sound : Kind Sound :=
  ⟨sound_empty, fun _ hL => hL⟩

variable {P Q : Ledger → Prop}

namespace Database

variable {db : Database}

def Stores (P : Ledger → Prop) (db : Database) : Prop :=
  ∃ L : Ledger, P L ∧ L.database = db

/-- A database that can be brought to the present layout, and is that of a ledger of the kind
then. -/
def OpensWith (P : Ledger → Prop) (db : Database) : Prop :=
  ∃ ready : Database, ready.Stores P ∧ db.prepare .aardvark = .ok ready

theorem Stores.mono (h : db.Stores P) (hPQ : ∀ L, P L → Q L) : db.Stores Q :=
  let ⟨L, hL, hdb⟩ := h
  ⟨L, hPQ L hL, hdb⟩

theorem OpensWith.mono (h : db.OpensWith P) (hPQ : ∀ L, P L → Q L) : db.OpensWith Q :=
  let ⟨ready, hready, hprepare⟩ := h
  ⟨ready, hready.mono hPQ, hprepare⟩

theorem Stores.opensWith (hP : Ledger.Kind P) (h : db.Stores P) : db.OpensWith P :=
  have hsound : db.Sound := h.mono hP.sound
  ⟨db, h, hsound.prepare⟩

theorem opensWith_empty (hP : Ledger.Kind P) : empty.OpensWith P :=
  ⟨Ledger.empty.database, ⟨.empty, hP.empty, rfl⟩, Ledger.prepare_empty⟩

end Database

/-! Snapshots -/

namespace Payload

/-- A payload that gives no database but one that opens with a ledger of the kind. -/
def OpensWith (P : Ledger → Prop) (p : Payload) : Prop :=
  ∀ db ∈ p.database?, db.OpensWith P

theorem opensWith_bytes (hP : Ledger.Kind P) (raw : List UInt8) : (bytes raw).OpensWith P := by
  intro db hdb
  have hempty : db = .empty := by
    change db ∈ Snapshot.databaseOfBytes? raw at hdb
    rw [Snapshot.databaseOfBytes?] at hdb
    split at hdb
    · split at hdb
      · cases hdb
        rfl
      · cases hdb
    · cases hdb
  exact hempty ▸ Database.opensWith_empty hP

theorem opensWith_fragment : fragment.OpensWith P :=
  fun _ hdb => absurd hdb (Option.not_mem_none _)

end Payload

/-- A spoilt snapshot gives no database that the snapshot does not give, but perhaps an empty
one. -/
theorem Session.opensWith_spoilt (hP : Ledger.Kind P) {s : Snapshot} (h : s.payload.OpensWith P)
    (damage : Option Damage) : (spoilt s damage).payload.OpensWith P := by
  cases damage with
  | none => exact h
  | some damage =>
      cases damage with
      | checksum => exact h
      | garbage => exact Payload.opensWith_bytes hP _
      | emptied => exact Payload.opensWith_bytes hP []
      | halved => exact Payload.opensWith_fragment

/-! Catalogs -/

/-- A sink whose latest snapshot, if it has one, gives no database but one that opens. -/
def Sink.OpensWith (P : Ledger → Prop) (k : Sink) : Prop :=
  ∀ s ∈ k.latest, s.payload.OpensWith P

namespace Catalog

/-- The catalog of a ledger of some kind, with a sink that keeps one. -/
structure Stores (P : Ledger → Prop) (c : Catalog) : Prop where
  database : ∃ L : Ledger, P L ∧ c.database = some L.database
  sink : ∀ k ∈ c.sink, k.OpensWith P

variable {c d : Catalog} {L : Ledger} {config : Config} {sink : Option Sink}

theorem Stores.mono (h : c.Stores P) (hPQ : ∀ L, P L → Q L) : c.Stores Q where
  database := let ⟨L, hL, hc⟩ := h.database
    ⟨L, hPQ L hL, hc⟩
  sink k hk s hs db hdb := (h.sink k hk s hs db hdb).mono hPQ

theorem config_fresh (config : Config) (sink : Option Sink) : (fresh config sink).config = config :=
  rfl

theorem stores_fresh (hP : Ledger.Kind P) (hsink : ∀ k ∈ sink, k.OpensWith P) :
    (fresh config sink).Stores P :=
  ⟨⟨.empty, hP.empty, fresh_database config sink⟩, hsink⟩

private theorem opensWith_snapshot (hP : Ledger.Kind P) (h : L.database.Stores P)
    (compress : Bool) : (L.snapshot compress).payload.OpensWith P := by
  intro db hdb
  cases hdb
  exact h.opensWith hP

theorem stores_holding (hP : Ledger.Kind P) (c : Catalog) (h : L.database.Stores P) :
    (c.holding L).Stores P := by
  obtain ⟨M, hM, hdatabase⟩ := id h
  refine ⟨⟨M, hM, congrArg some hdatabase.symm⟩, fun k hk => ?_⟩
  obtain ⟨old, -, rfl⟩ := Option.map_eq_some_iff.mp hk
  intro s hs
  cases hs
  exact opensWith_snapshot hP h _

theorem write_eq_ok {α : Type} {idle result : α} {db : Database} (hc : c.database = some db)
    {operation : Database → Except Error (Database × α)}
    (h : c.write idle operation = .ok (d, result)) :
    ∃ written, operation db = .ok (written, result) ∧ c.flush written = .ok d := by
  simp only [write, hc] at h
  split at h
  next => cases h
  next written answer hwritten =>
    obtain ⟨flushed, hflush, heq⟩ := map_eq_ok.mp h
    cases heq
    exact ⟨written, hwritten, hflush⟩

theorem importBulk_eq_ok {db : Database} (hc : c.database = some db) {records : List Json}
    {report : ImportReport} (h : c.importBulk records = .ok (d, report)) :
    c.flush (db.importRecords .aardvark c.config records).1 = .ok d := by
  obtain ⟨written, hwritten, hflush⟩ := write_eq_ok hc h
  have heq : (db.importRecords .aardvark c.config records).1 = written :=
    congrArg Prod.fst (Except.ok.inj hwritten)
  rwa [heq]

theorem stores_flush (hP : Ledger.Kind P) {db : Database} (hdb : db.Stores P)
    (h : c.flush db = .ok d) : d.Stores P := by
  obtain ⟨L, hL, rfl⟩ := hdb
  rw [flush_database] at h
  cases h
  exact stores_holding hP c ⟨L, hL, rfl⟩

theorem stores_ofSnapshot (hP : Ledger.Kind P) (hsink : ∀ k ∈ sink, k.OpensWith P) {s : Snapshot}
    (hs : s.payload.OpensWith P) (verify : Bool) : (ofSnapshot config sink s verify).Stores P := by
  rw [ofSnapshot, Database.ofSnapshot]
  cases hdatabase : s.database? verify with
  | none => exact stores_fresh hP hsink
  | some db =>
      have hpayload : s.payload.database? = some db := by
        rw [Snapshot.database?] at hdatabase
        split at hdatabase
        · cases hdatabase
        · exact hdatabase
      obtain ⟨_, ⟨L, hL, rfl⟩, hprepare⟩ := hs db hpayload
      simp only [schema, hprepare, engineResult]
      exact ⟨⟨L, hL, rfl⟩, hsink⟩

end Catalog

/-! Sessions -/

def Place.OpensWith (P : Ledger → Prop) : Place → Prop
  | .memory => True
  | .file stored => stored.OpensWith P
  | .unreachable => False

namespace Session

structure Stores (P : Ledger → Prop) (s : Session) : Prop where
  place : s.place.OpensWith P
  catalog : s.catalog.Stores P

variable {s t : Session} {c : Catalog} {L : Ledger} {a : Action}

theorem Stores.mono (h : s.Stores P) (hPQ : ∀ L, P L → Q L) : s.Stores Q := by
  refine ⟨?_, h.catalog.mono hPQ⟩
  have hplace := h.place
  cases hs : s.place with
  | memory => trivial
  | file stored =>
      rw [hs] at hplace
      exact Database.OpensWith.mono hplace hPQ
  | unreachable =>
      rw [hs] at hplace
      exact hplace.elim

/-- What a write leaves as the database of the catalog. -/
inductive Written (s : Session) (L : Ledger) : Action → Database → Prop
  | edit {e : Edit} {M : Ledger} {answer : Option Bool}
      (h : L.edit s.catalog.config e = .ok (M, answer)) : Written s L (.edit e) M.database
  | importBulk (records : List Json) : Written s L (.importBulk records)
      (L.database.importRecords .aardvark s.catalog.config records).1
  | importTabular {rows : List TableRow} {aliases : Option (Dict String)} {changed : Database}
      {summary : TableSummary} (h : L.database.importRows .aardvark s.catalog.config
        (aliases.getD s.catalog.config.aliases) rows = .ok (changed, summary)) :
      Written s L (.importTabular rows aliases) changed
  | reimport {records : List Json} (h : s.catalog.exportRecords = .ok records) :
      Written s L .reimport
        (Ledger.empty.database.importRecords .aardvark s.catalog.config records).1

private theorem stores_openCatalog (hP : Ledger.Kind P) {place : Place} (h : place.OpensWith P)
    (config : Config) {sink : Option Sink} (hsink : ∀ k ∈ sink, k.OpensWith P) :
    (place.openCatalog config sink).Stores P := by
  cases place with
  | memory => exact Catalog.stores_fresh hP hsink
  | file stored =>
      obtain ⟨_, ⟨L, hL, rfl⟩, hprepare⟩ := h
      exact ⟨⟨L, hL, Catalog.prepared_eq hprepare⟩, hsink⟩
  | unreachable => exact h.elim

private theorem opensWith_keep (hP : Ledger.Kind P) {place : Place} (h : place.OpensWith P)
    (hc : c.Stores P) : (place.keep c.database).OpensWith P := by
  obtain ⟨L, hL, hdatabase⟩ := hc.database
  rw [hdatabase]
  cases place with
  | memory => trivial
  | file stored => exact Database.Stores.opensWith hP ⟨L, hL, rfl⟩
  | unreachable => exact h.elim

private theorem stores_settle (hP : Ledger.Kind P) (hplace : s.place.OpensWith P)
    (hc : c.Stores P) : (s.settle c).Stores P := by
  refine ⟨?_, hc⟩
  rw [Session.settle]
  cases s.atHome with
  | true => exact opensWith_keep hP hplace hc
  | false => exact hplace

private theorem Stores.write (hP : Ledger.Kind P) (h : s.Stores P) {α : Type}
    {operation : Catalog → Except Error (Catalog × α)}
    (hoperation : ∀ {changed : Catalog} {result : α},
      operation s.catalog = .ok (changed, result) → changed.Stores P)
    (ht : (s.write operation).map Prod.fst = .ok t) : t.Stores P := by
  obtain ⟨_, hwrite, rfl⟩ := map_eq_ok.mp ht
  obtain ⟨_, hchanged, rfl⟩ := map_eq_ok.mp hwrite
  exact stores_settle hP h.place (hoperation hchanged)

private theorem snapshot_opensWith (hP : Ledger.Kind P) (hc : c.Stores P) {found : Snapshot}
    (hfound : c.snapshot = .ok found) : found.payload.OpensWith P := by
  obtain ⟨L, hL, hdatabase⟩ := hc.database
  simp only [Catalog.snapshot, hdatabase, Ledger.snapshot_database, engineResult] at hfound
  cases hfound
  exact Catalog.opensWith_snapshot hP ⟨L, hL, rfl⟩ _

private theorem Stores.restored (hP : Ledger.Kind P) (h : s.Stores P) {backup : Backup}
    {found : Option Session} (hfound : s.restored backup = .ok found) :
    ∀ t ∈ found, t.Stores P := by
  have hmoved {snapshot : Snapshot} (hs : snapshot.payload.OpensWith P) (verify : Bool) :
      (s.moved (.ofSnapshot s.catalog.config s.catalog.sink snapshot verify)).Stores P :=
    ⟨h.place, Catalog.stores_ofSnapshot hP h.catalog.sink hs verify⟩
  have hbytes (bytes : Option (List UInt8)) :
      (s.moved (.restoreBytes s.catalog.config s.catalog.sink bytes)).Stores P :=
    ⟨h.place, Catalog.stores_ofSnapshot hP h.catalog.sink
      (Payload.opensWith_bytes hP (bytes.getD [])) false⟩
  have hown {make : Snapshot → Session} (hmake : ∀ {snapshot : Snapshot},
      snapshot.payload.OpensWith P → (make snapshot).Stores P)
      (hresult : (s.catalog.snapshot.map fun snapshot => some (make snapshot)) = .ok found) :
      ∀ t ∈ found, t.Stores P := by
    obtain ⟨snapshot, hsnapshot, rfl⟩ := map_eq_ok.mp hresult
    intro t ht
    cases ht
    exact hmake (snapshot_opensWith hP h.catalog hsnapshot)
  cases backup with
  | absent =>
      cases hfound
      intro t ht
      cases ht
      exact hbytes none
  | bytes raw =>
      cases hfound
      intro t ht
      cases ht
      exact hbytes (some raw)
  | own damage => exact hown (fun hs => hmoved (opensWith_spoilt hP hs damage) _) hfound
  | ownBytes damage => exact hown (fun hs => hmoved (opensWith_spoilt hP hs damage) _) hfound
  | sink damage =>
      rw [Session.restored] at hfound
      cases hlatest : s.catalog.sink.bind Sink.latest with
      | none =>
          simp only [hlatest] at hfound
          cases hfound
          exact fun t ht => absurd ht (Option.not_mem_none _)
      | some snapshot =>
          simp only [hlatest] at hfound
          cases hfound
          intro t ht
          cases ht
          obtain ⟨k, hk, hsnapshot⟩ := Option.bind_eq_some_iff.mp hlatest
          exact hmoved (opensWith_spoilt hP (h.catalog.sink k hk snapshot hsnapshot) damage) _

private theorem Stores.reimported (hP : Ledger.Kind P) (h : s.Stores P)
    (hnew : ∀ db, Written s L .reimport db → db.Stores P) {report : ImportReport}
    (ht : s.reimported = .ok (t, report)) : t.Stores P := by
  obtain ⟨_, hcatalog, heq⟩ := map_eq_ok.mp ht
  cases heq
  rw [Catalog.reimported] at hcatalog
  split at hcatalog
  next => cases hcatalog
  next records hrecords =>
    have hflush := Catalog.importBulk_eq_ok (Catalog.fresh_database _ _) hcatalog
    rw [Catalog.config_fresh] at hflush
    exact ⟨h.place, Catalog.stores_flush hP (hnew _ (.reimport hrecords)) hflush⟩

/-- A step keeps to ledgers of a kind if the database that it writes does. -/
theorem Stores.step (hP : Ledger.Kind P) (h : s.Stores P)
    (hc : s.catalog.database = some L.database)
    (hnew : ∀ db, Written s L a db → db.Stores P) (ha : s.step a = .ok t) : t.Stores P := by
  cases a with
  | edit e =>
      refine h.write hP (fun hedit => ?_) ha
      rw [Catalog.edit_database hc] at hedit
      obtain ⟨_, hresult, heq⟩ := map_eq_ok.mp hedit
      cases heq
      exact Catalog.stores_holding hP _ (hnew _ (.edit hresult))
  | importBulk records =>
      refine h.write hP (fun himport => ?_) ha
      have hflush := Catalog.importBulk_eq_ok hc himport
      exact Catalog.stores_flush hP (hnew _ (.importBulk records)) hflush
  | importTabular rows aliases =>
      refine h.write hP (fun himport => ?_) ha
      obtain ⟨written, hwritten, hflush⟩ := Catalog.write_eq_ok hc himport
      exact Catalog.stores_flush hP (hnew _ (.importTabular hwritten)) hflush
  | reopen =>
      cases ha
      exact stores_settle hP h.place (stores_openCatalog hP h.place _ h.catalog.sink)
  | restore backup =>
      obtain ⟨found, hrestored, rfl⟩ := map_eq_ok.mp ha
      cases found with
      | none => exact h
      | some moved => exact h.restored hP hrestored moved rfl
  | reimport =>
      obtain ⟨_, hresult, rfl⟩ := map_eq_ok.mp ha
      exact h.reimported hP hnew hresult

private theorem stores_start (hP : Ledger.Kind P) {place : Place} (h : place.OpensWith P)
    (config : Config) {sink : Option Sink} (hsink : ∀ k ∈ sink, k.latest = none) :
    (start place config sink).Stores P := by
  have hopens : ∀ k ∈ sink, k.OpensWith P := by
    intro k hk s hs
    rw [hsink k hk] at hs
    exact absurd hs (Option.not_mem_none s)
  exact stores_settle hP h (stores_openCatalog hP h config hopens)

theorem stores_memory (hP : Ledger.Kind P) (config : Config) {sink : Option Sink}
    (hsink : ∀ k ∈ sink, k.latest = none) : (start .memory config sink).Stores P :=
  stores_start hP (show Place.memory.OpensWith P from trivial) config hsink

theorem stores_file (hP : Ledger.Kind P) (config : Config) {sink : Option Sink}
    (hsink : ∀ k ∈ sink, k.latest = none) : (start (.file .empty) config sink).Stores P :=
  stores_start hP (show (Place.file .empty).OpensWith P from Database.opensWith_empty hP) config
    hsink

theorem Written.sound (hL : L.Sound) {db : Database} (h : Written s L a db) : db.Sound := by
  have hkept := Database.kept_sound s.catalog.config
  cases h with
  | edit hedit => exact ⟨_, hL.edit hedit, rfl⟩
  | importBulk records => exact hkept.importRecords ⟨L, hL, rfl⟩ records
  | importTabular himport => exact hkept.importRows ⟨L, hL, rfl⟩ himport
  | reimport hrecords => exact hkept.importRecords Database.sound_fresh _

theorem Reachable.stores (h : Reachable s) : s.Stores Ledger.Sound := by
  induction h with
  | memory config hsink => exact stores_memory Ledger.kind_sound config hsink
  | file config hsink => exact stores_file Ledger.kind_sound config hsink
  | step _ ha ih =>
      obtain ⟨L, hL, hc⟩ := ih.catalog.database
      exact ih.step Ledger.kind_sound hc (fun _ hwritten => hwritten.sound hL) ha

theorem step_upsert {L : Ledger} (hc : s.catalog.database = some L.database) {r : Resource}
    (hr : Schema.check .aardvark r = .ok ()) (ds : List Distribution) :
    s.step (.edit (.upsert r ds)) = .ok (s.settle (s.catalog.holding (L.put r ds))) := by
  have hedit := Catalog.edit_database hc (.upsert r ds)
  rw [Ledger.edit, Ledger.upsert, hr] at hedit
  rw [step, write]
  exact congrArg _ (congrArg _ hedit)

def afterUpsert (r : Resource) (ds : List Distribution) : Session :=
  (start .memory default none).settle
    ((Catalog.fresh default none).holding (Ledger.empty.put r ds))

theorem step_afterUpsert {r : Resource} (hr : Schema.check .aardvark r = .ok ())
    (ds : List Distribution) :
    (start .memory default none).step (.edit (.upsert r ds)) = .ok (afterUpsert r ds) := by
  have hcatalog : (start .memory default none).catalog = .fresh default none := rfl
  have hdatabase := Catalog.fresh_database default none
  rw [← hcatalog] at hdatabase
  rw [afterUpsert, ← hcatalog]
  exact step_upsert hdatabase hr ds

theorem reachable_afterUpsert {r : Resource} (hr : Schema.check .aardvark r = .ok ())
    (ds : List Distribution) : (afterUpsert r ds).Reachable :=
  .step (.memory default fun k hk => absurd hk (Option.not_mem_none k)) (step_afterUpsert hr ds)

theorem Reachable.ledger (h : Reachable s) :
    ∃ L : Ledger, L.Sound ∧ s.catalog.database = some L.database :=
  h.stores.catalog.database

end Session

end Gazetteer
