import Mathlib
import Gazetteer.Proofs.Catalog.Holdings
import Gazetteer.Proofs.Catalog.Reachable
import Gazetteer.Proofs.Interchange.Record
import Gazetteer.Proofs.Query.Selection
/-!
Records taken out of a catalog and into a catalog without resources.
-/

namespace Gazetteer

namespace Ledger

variable {L M : Ledger} {config : Config}

/-! The records of a ledger -/

def ids (L : Ledger) : List String :=
  (L.resources.map Resource.id).mergeSort fun a b => decide (a ≤ b)

theorem mem_ids {id : String} : id ∈ L.ids ↔ L.has id = true := by
  rw [ids, List.mem_mergeSort, has, List.any_eq_true, List.mem_map]
  simp only [beq_iff_eq]

theorem Sound.nodup_ids (h : L.Sound) : L.ids.Nodup :=
  (List.mergeSort_perm _ _).nodup_iff.mpr h.resources

theorem pairwise_ids (L : Ledger) : L.ids.Pairwise (· ≤ ·) := by
  have htrans (a b c : String) (hab : decide (a ≤ b) = true) (hbc : decide (b ≤ c) = true) :
      decide (a ≤ c) = true :=
    decide_eq_true (String.le_trans (of_decide_eq_true hab) (of_decide_eq_true hbc))
  have htotal (a b : String) : (decide (a ≤ b) || decide (b ≤ a)) = true := by
    simpa using String.le_total a b
  exact (List.pairwise_mergeSort htrans htotal _).imp of_decide_eq_true

theorem ids_eq (hL : L.Sound) (hM : M.Sound) (h : ∀ id, M.has id = L.has id) : M.ids = L.ids := by
  have hperm : M.ids.Perm L.ids := by
    refine (List.perm_ext_iff_of_nodup hM.nodup_ids hL.nodup_ids).mpr fun id => ?_
    rw [mem_ids, mem_ids, h]
  exact hperm.eq_of_pairwise (fun a b _ _ => String.le_antisymm) M.pairwise_ids L.pairwise_ids

theorem allIds_database (L : Ledger) : L.database.allIds = .ok L.ids := by
  have hneed : L.database.need [(Layout.resources, "id")] = .ok () :=
    need_known L (List.forall_mem_singleton.mpr known_id)
  have horder (a b : Resource) :
      Database.inOrder ["id"] a.scalarRow b.scalarRow = decide (a.id ≤ b.id) := by
    have hcompare : Database.compareBy ["id"] a.scalarRow b.scalarRow =
        Cell.compare .binary (.text a.id) (.text b.id) := by
      rw [Database.compareBy, Resource.scalarRow_id, Resource.scalarRow_id]
      exact Ordering.then_eq
    rw [Database.inOrder_eq, hcompare, Bool.eq_iff_iff, decide_eq_true_iff, ← String.not_lt,
      ← Cell.compare_text, ← Std.OrientedCmp.gt_iff_lt, Ordering.isLE_iff_ne_gt]
  have hread : (L.resources.mergeSort fun a b => decide (a.id ≤ b.id)).map Resource.scalarRow =
      (L.resources.map Resource.scalarRow).mergeSort (Database.inOrder ["id"]) :=
    List.map_mergeSort fun a _ b _ => (horder a b).symm
  have hids : (L.resources.mergeSort fun a b => decide (a.id ≤ b.id)).map Resource.id = L.ids :=
    List.map_mergeSort fun a _ b _ => rfl
  simp only [Database.allIds, hneed, rows_resources, ← hread, ← hids]
  exact mapM_map_eq_ok (fun r => by rw [Resource.scalarRow_id]; rfl) _

def exported (L : Ledger) : List Resource :=
  L.ids.filterMap L.resource?

theorem resource?_isSome (L : Ledger) (id : String) : (L.resource? id).isSome = L.has id := by
  rw [resource?, Option.isSome_map, List.isSome_find?, has]

theorem id_resource? {id : String} {r : Resource} (h : L.resource? id = some r) : r.id = id := by
  obtain ⟨stored, hstored, rfl⟩ := Option.map_eq_some_iff.mp h
  have hid : stored.id = id := by simpa using List.find?_some hstored
  exact hid

theorem mem_exported {r : Resource} : r ∈ L.exported ↔ L.resource? r.id = some r := by
  rw [exported, List.mem_filterMap]
  constructor
  · rintro ⟨id, -, hr⟩
    rwa [id_resource? hr]
  · intro hr
    refine ⟨r.id, mem_ids.mpr ?_, hr⟩
    rw [← resource?_isSome, hr, Option.isSome_some]

theorem id_exported (L : Ledger) : L.exported.map Resource.id = L.ids := by
  have hids : ∀ id ∈ L.ids, (L.resource? id).map Resource.id = some id := by
    intro id hid
    rw [mem_ids, ← resource?_isSome] at hid
    obtain ⟨r, hr⟩ := Option.isSome_iff_exists.mp hid
    rw [hr, Option.map_some, id_resource? hr]
  rw [exported, List.map_filterMap, List.filterMap_congr hids, List.filterMap_some]

theorem length_exported (L : Ledger) : L.exported.length = L.resources.length := by
  rw [← List.length_map Resource.id, id_exported, ids, List.length_mergeSort, List.length_map]

theorem Sound.accepts_of_mem_exported (h : L.Sound) {r : Resource} (hr : r ∈ L.exported) :
    Schema.Accepts .aardvark r := by
  obtain ⟨stored, hstored, rfl⟩ := Option.map_eq_some_iff.mp (mem_exported.mp hr)
  have haccepted := h.accepted stored (List.mem_of_find?_eq_some hstored)
  refine ⟨haccepted.id, haccepted.scalars, fun name hname => ?_⟩
  obtain ⟨values, hvalues⟩ := Dict.mem_keys_iff.mp hname
  rw [record, Dict.get?_filterMap] at hvalues
  obtain ⟨given, hgiven, -⟩ := Option.bind_eq_some_iff.mp hvalues
  exact haccepted.repeatables name (Dict.mem_keys_iff.mpr ⟨given, hgiven⟩)

/-! Records taken into a ledger -/

def putAll (L : Ledger) (written : List (Resource × List Distribution)) : Ledger :=
  written.foldl (fun L w => L.put w.1 w.2) L

/-- What records are read to, those left out that cannot be read. -/
def written (config : Config) (records : List Json) : List (Resource × List Distribution) :=
  records.filterMap fun record => (Record.read .aardvark config record).toOption

private theorem importRecord_database (L : Ledger) (config : Config) (report : ImportReport)
    {record : Json} (h : (Record.id? record).isSome = true) :
    Database.importRecord .aardvark config (L.database, report) record =
      match (Record.read .aardvark config record).toOption with
      | some w => ((L.put w.1 w.2).database, { report with processed := report.processed + 1 })
      | none => (L.database, { report with failed := report.failed + 1 }) := by
  obtain ⟨id, hid⟩ := Option.isSome_iff_exists.mp h
  simp only [Database.importRecord, hid, Database.upsertRecord]
  cases hread : Record.read .aardvark config record with
  | error e => rfl
  | ok w =>
      simp only [upsert_database, Schema.check_eq_ok.mpr (Record.taken_read hread).accepted]
      rfl

/-- An import of records with ids puts those that can be read into the ledger, one after the
other. -/
theorem importRecords_database (L : Ledger) (config : Config) {records : List Json}
    (h : ∀ record ∈ records, (Record.id? record).isSome = true) :
    L.database.importRecords .aardvark config records =
      ((L.putAll (written config records)).database, ⟨(written config records).length, 0,
        records.countP fun record => (Record.read .aardvark config record).toOption.isNone⟩) := by
  have hfold (L : Ledger) (processed failed : Nat) :
      records.foldl (Database.importRecord .aardvark config)
          (L.database, ⟨processed, 0, failed⟩) =
        ((L.putAll (written config records)).database,
          ⟨processed + (written config records).length, 0, failed + records.countP fun record =>
            (Record.read .aardvark config record).toOption.isNone⟩) := by
    induction records generalizing L processed failed with
    | nil => rfl
    | cons record rest ih =>
        obtain ⟨hrecord, hrest⟩ := List.forall_mem_cons.mp h
        rw [List.foldl_cons, importRecord_database L config _ hrecord, written,
          List.filterMap_cons, List.countP_cons]
        cases (Record.read .aardvark config record).toOption with
        | none =>
            refine (ih hrest L processed (failed + 1)).trans ?_
            rw [Nat.add_right_comm, ← Nat.add_assoc]
            rfl
        | some w =>
            refine (ih hrest (L.put w.1 w.2) (processed + 1) failed).trans ?_
            rw [Nat.add_right_comm, ← Nat.add_assoc]
            rfl
  have hstart := hfold L 0 0
  rwa [Nat.zero_add, Nat.zero_add] at hstart

/-- The records of resources that may be written give back those that are readable. -/
theorem id_written (config : Config) {rs : List Resource}
    (h : ∀ r ∈ rs, Schema.Accepts .aardvark r) :
    (written config (rs.map (Record.ofResource config))).map (fun w => w.1.id) =
        (rs.filter fun r => decide r.Readable).map (fun r => Text.trim r.id) ∧
      ((rs.map (Record.ofResource config)).countP fun record =>
        (Record.read .aardvark config record).toOption.isNone) =
          rs.countP fun r => decide ¬r.Readable := by
  induction rs with
  | nil => exact ⟨rfl, rfl⟩
  | cons r rest ih =>
      obtain ⟨hr, hrest⟩ := List.forall_mem_cons.mp h
      obtain ⟨hids, hcount⟩ := ih hrest
      have hexportable := Record.exportable_of_accepts hr
      rw [List.map_cons, List.countP_cons, List.countP_cons, hcount, written, List.filterMap_cons,
        List.filter_cons]
      by_cases hreadable : r.Readable
      · obtain ⟨back, hread, hid, -⟩ := Record.read_ofResource hexportable config hreadable
        simp only [hread, Except.toOption, hreadable, decide_true, if_true, List.map_cons, hid,
          not_true, decide_false, Option.isNone_some, Bool.false_eq_true, if_false, and_true]
        exact congrArg _ hids
      · obtain ⟨e, hread⟩ := Record.read_ofResource_error hexportable config hreadable
        simp only [hread, Except.toOption, hreadable, decide_false, Bool.false_eq_true, if_false,
          not_false_eq_true, decide_true, Option.isNone_none, if_true, and_true]
        exact hids

theorem isSome_description? (L : Ledger) (id : String) : (L.description? id).isSome = L.has id := by
  rw [description?, Option.isSome_map, List.isSome_find?, has]

theorem description?_put (L : Ledger) (r : Resource) (ds : List Distribution) (id : String) :
    (L.put r ds).description? id =
      if id = r.id then some (.ofWritten r ds) else L.description? id := by
  have hput := congrArg Holding.description (holding_put L r ds id)
  rw [apply_ite Holding.description] at hput
  exact hput

theorem has_putAll (L : Ledger) (written : List (Resource × List Distribution)) (id : String) :
    (L.putAll written).has id = (L.has id || written.any fun w => w.1.id == id) := by
  induction written generalizing L with
  | nil => simp [putAll]
  | cons w rest ih =>
      have hput : (L.put w.1 w.2).has id = (L.has id || w.1.id == id) := by
        rw [← isSome_description?, ← isSome_description?, description?_put]
        by_cases hid : id = w.1.id
        · simp [hid]
        · simp [hid, Ne.symm hid]
      refine (ih (L.put w.1 w.2)).trans ?_
      rw [hput, List.any_cons, Bool.or_assoc]

theorem accepts_written {config : Config} {records : List Json} :
    ∀ w ∈ written config records, Schema.Accepts .aardvark w.1 := by
  intro w hw
  obtain ⟨record, -, hread⟩ := List.mem_filterMap.mp hw
  exact (Record.taken_read (toOption_eq_some.mp hread)).accepted

theorem Sound.putAll (h : L.Sound) {written : List (Resource × List Distribution)}
    (hwritten : ∀ w ∈ written, Schema.Accepts .aardvark w.1) : (L.putAll written).Sound :=
  List.foldlRecOn written _ h fun _ hM w hw => hM.put (hwritten w hw) w.2

def reimported (L : Ledger) (config : Config) : Ledger :=
  empty.putAll (written config (L.exported.map (Record.ofResource config)))

theorem sound_reimported (L : Ledger) (config : Config) : (L.reimported config).Sound :=
  sound_empty.putAll accepts_written

theorem Sound.has_reimported (h : L.Sound) (config : Config) (id : String) :
    (L.reimported config).has id = true ↔
      ∃ r ∈ L.exported, r.Readable ∧ Text.trim r.id = id := by
  obtain ⟨hids, -⟩ := id_written config fun r hr => h.accepts_of_mem_exported hr
  have hnone : empty.has id = false := rfl
  have hany : (written config (L.exported.map (Record.ofResource config))).any
      (fun w => w.1.id == id) =
        ((L.exported.filter fun r => decide r.Readable).map fun r => Text.trim r.id).any (· == id) := by
    rw [← hids, List.any_map]
    rfl
  rw [reimported, has_putAll, hnone, Bool.false_or, hany]
  simp

end Ledger

namespace Catalog

variable {c : Catalog} {L : Ledger}

theorem exportRecords_database (hc : c.database = some L.database) (h : L.Sound) :
    c.exportRecords = .ok (L.exported.map (Record.ofResource c.config)) := by
  simp only [exportRecords, read, hc, Ledger.allIds_database, Ledger.hydrate_database h,
    eraseDups_of_nodup h.nodup_ids, engineResult, Except.map, Ledger.exported]

theorem importBulk_exported (h : L.Sound) (config : Config) (sink : Option Sink) :
    (fresh config sink).importBulk (L.exported.map (Record.ofResource config)) =
      .ok ((fresh config sink).holding (L.reimported config),
        ⟨L.exported.countP fun r => decide r.Readable, 0,
          L.exported.countP fun r => decide ¬r.Readable⟩) := by
  have haccepted : ∀ r ∈ L.exported, Schema.Accepts .aardvark r :=
    fun r hr => h.accepts_of_mem_exported hr
  have hrecords : ∀ record ∈ L.exported.map (Record.ofResource config),
      (Record.id? record).isSome = true := by
    intro record hrecord
    obtain ⟨r, hr, rfl⟩ := List.mem_map.mp hrecord
    rw [Record.id?_ofResource (Record.exportable_of_accepts (haccepted r hr)), Option.isSome_some]
  obtain ⟨hids, hfailed⟩ := Ledger.id_written config haccepted
  have hprocessed := congrArg List.length hids
  rw [List.length_map, List.length_map, ← List.countP_eq_length_filter] at hprocessed
  rw [importBulk, write_database (fresh_database config sink)
    (.ok (L.reimported config, ⟨L.exported.countP fun r => decide r.Readable, 0,
      L.exported.countP fun r => decide ¬r.Readable⟩))]
  · rfl
  · rw [← hprocessed, ← hfailed]
    exact congrArg Except.ok (Ledger.importRecords_database .empty config hrecords)

theorem isOk_get (hc : c.database = some L.database) (h : L.Sound) (id : String) :
    (∃ r, c.get id = .ok r) ↔ L.has id = true := by
  rw [← Ledger.resource?_isSome, get_database hc h]
  cases L.resource? id <;> simp

end Catalog

namespace Session

variable {s : Session}

/-- A catalog without resources takes in the records of those resources of a reachable session that
do not have references of their own in the place of distributions.  No record is skipped, the
others fail, and the ids come without the blanks at their ends. -/
theorem Reachable.reimport_readable (h : s.Reachable) :
    ∃ (stored : List Resource) (t : Session),
      (∀ r, r ∈ stored ↔ s.catalog.get r.id = .ok r) ∧ (stored.map Resource.id).Nodup ∧
      s.catalog.count = .ok stored.length ∧
      s.reimported = .ok (t, ⟨stored.countP fun r => decide r.Readable, 0,
        stored.countP fun r => decide ¬r.Readable⟩) ∧
      ∀ id, (∃ r, t.catalog.get id = .ok r) ↔ ∃ r ∈ stored, r.Readable ∧ Text.trim r.id = id := by
  obtain ⟨L, hL, hc⟩ := h.ledger
  let config := s.catalog.config
  let c := (Catalog.fresh config s.catalog.sink).holding (L.reimported config)
  refine ⟨L.exported, s.moved c, fun r => ?_, ?_, ?_, ?_, fun id => ?_⟩
  · rw [Ledger.mem_exported, Catalog.get_database hc hL]
    cases L.resource? r.id <;> simp
  · rw [Ledger.id_exported]
    exact hL.nodup_ids
  · rw [Ledger.length_exported, Catalog.count, Catalog.read, hc]
    simp only [Ledger.count_database, engineResult]
  · rw [Session.reimported, Catalog.reimported, Catalog.exportRecords_database hc hL]
    exact congrArg (Except.map _) (Catalog.importBulk_exported hL config s.catalog.sink)
  · rw [← hL.has_reimported config]
    exact Catalog.isOk_get rfl (L.sound_reimported config) id

/-- A resource that may be written, with references of its own in the place of distributions. -/
def shadowed : Resource :=
  (Resource.ofId "a").setValues referencesField ["shadow"]

theorem reimport_readable_shadowed :
    let s := afterUpsert shadowed []
    ∃ (stored : List Resource) (t : Session),
      (∀ r, r ∈ stored ↔ s.catalog.get r.id = .ok r) ∧ (stored.map Resource.id).Nodup ∧
      s.catalog.count = .ok stored.length ∧
      s.reimported = .ok (t, ⟨stored.countP fun r => decide r.Readable, 0,
        stored.countP fun r => decide ¬r.Readable⟩) ∧
      ∀ id, (∃ r, t.catalog.get id = .ok r) ↔ ∃ r ∈ stored, r.Readable ∧ Text.trim r.id = id :=
  Reachable.reimport_readable (reachable_afterUpsert (by decide) [])

/-- Its record is written by an export and cannot be read by an import. -/
theorem reimport_shadowed :
    (afterUpsert shadowed []).Reachable ∧ (afterUpsert shadowed []).catalog.count = .ok 1 ∧
      (afterUpsert shadowed []).reimported.map Prod.snd = .ok ⟨0, 0, 1⟩ := by
  have hcheck : Schema.check .aardvark shadowed = .ok () := by decide
  have hL : (Ledger.empty.put shadowed []).Sound :=
    Ledger.sound_empty.put (Schema.check_eq_ok.mp hcheck) []
  have hexported : (Ledger.empty.put shadowed []).exported =
      [(Ledger.empty.put shadowed []).record shadowed] := by
    have hids : (Ledger.empty.put shadowed []).ids = ["a"] := List.mergeSort_singleton _
    rw [Ledger.exported, hids]
    rfl
  have hunreadable : ¬((Ledger.empty.put shadowed []).record shadowed).Readable := by
    decide
  have hc : (afterUpsert shadowed []).catalog.database =
      some (Ledger.empty.put shadowed []).database := rfl
  refine ⟨reachable_afterUpsert hcheck [], ?_, ?_⟩
  · rw [Catalog.count, Catalog.read, hc]
    exact congrArg engineResult (Ledger.count_database _)
  · have himport := Catalog.importBulk_exported hL default none
    rw [hexported, List.countP_singleton, List.countP_singleton, decide_eq_false hunreadable,
      decide_eq_true hunreadable] at himport
    rw [Session.reimported, Catalog.reimported, Catalog.exportRecords_database hc hL, hexported]
    exact congrArg (fun result => (Except.map _ result).map Prod.snd) himport

end Session

end Gazetteer
