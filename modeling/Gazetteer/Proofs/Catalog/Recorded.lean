import Mathlib
import Gazetteer.Proofs.Catalog.Export
/-!
Catalogs to which only records and rows were written.  Their records taken into a catalog without
resources give the same records again.
-/

namespace Gazetteer

/-- The writes that take records or rows, remove a resource or cache an address. -/
inductive RecordWrite
  | upsertRecord (record : Json)
  | importBulk (records : List Json)
  | importTabular (rows : List TableRow) (aliases : Option (Dict String))
  | delete (id : String)
  | cacheThumbnail (id url : String)
  | cacheStaticMap (id url : String)

namespace Catalog

def afterWrite (c : Catalog) : RecordWrite → Catalog
  | .upsertRecord record => stateAfter c (c.upsertRecord record)
  | .importBulk records => stateAfter c (c.importBulk records)
  | .importTabular rows aliases => stateAfter c (c.importTabular rows aliases)
  | .delete id => stateAfter c (c.delete id)
  | .cacheThumbnail id url => stateAfter c (c.cacheThumbnail id url)
  | .cacheStaticMap id url => stateAfter c (c.cacheStaticMap id url)

def afterWrites (c : Catalog) (writes : List RecordWrite) : Catalog :=
  writes.foldl afterWrite c

end Catalog

/-! Regular ledgers -/

namespace Placement

theorem mem_place {id : String} {ds : List Distribution} {placements : List Placement}
    {position : Int} {p : Placement} (h : p ∈ place id placements position ds) :
    p ∈ placements ∨ p.distribution ∈ ds := by
  induction ds generalizing placements position with
  | nil => exact .inl h
  | cons d rest ih =>
      rw [place] at h
      rcases ih h with h | h
      · split at h
        · exact .inl h
        · rcases List.mem_append.mp h with h | h
          · exact .inl h
          · obtain rfl := List.mem_singleton.mp h
            exact .inr List.mem_cons_self
      · exact .inr (List.mem_cons_of_mem _ h)

theorem mem_append? {id : String} {ds : List Distribution} {placements placed : List Placement}
    (h : append? id ds placements = some placed) {p : Placement} (hp : p ∈ placed) :
    p ∈ placements ∨ p.distribution ∈ ds := by
  obtain ⟨position, rfl⟩ := exists_place_of_append? h
  exact mem_place hp

end Placement

namespace Ledger

variable {config : Config} {L : Ledger} {r : Resource} {ds : List Distribution}

/-- A sound ledger of resources and distributions as records and tables give them. -/
structure Recorded (config : Config) (L : Ledger) : Prop where
  sound : L.Sound
  resources : ∀ r ∈ L.resources, r.Regular
  placements : ∀ p ∈ L.placements, p.distribution.Regular config

theorem recorded_empty (config : Config) : empty.Recorded config :=
  ⟨sound_empty, List.forall_mem_nil _, List.forall_mem_nil _⟩

theorem Recorded.replace? (h : L.Recorded config) (htaken : Taken config r ds)
    {extent : Replacement} {replaced : Ledger} (hreplace : L.replace? r ds extent = some replaced) :
    replaced.Recorded config := by
  have hsound := h.sound.replace? htaken.accepted hreplace
  obtain ⟨placed, hplaced, rfl⟩ := Option.map_eq_some_iff.mp hreplace
  refine ⟨hsound, fun other hother => ?_, fun p hp => ?_⟩
  · rcases List.mem_append.mp hother with hother | hother
    · exact h.resources other (List.mem_filter.mp hother).1
    · exact List.mem_singleton.mp hother ▸ htaken.regular
  · rcases Placement.mem_append? hplaced hp with hp | hp
    · refine h.placements p ?_
      cases extent with
      | full => exact (List.mem_filter.mp hp).1
      | metadata => exact hp
    · exact htaken.distributions _ hp

theorem Recorded.put (h : L.Recorded config) (htaken : Taken config r ds) :
    (L.put r ds).Recorded config :=
  h.replace? htaken (L.replace?_full r ds)

theorem Recorded.extend? (h : L.Recorded config) {id : String}
    (hds : ∀ d ∈ ds, d.Regular config) {extended : Ledger}
    (hextend : L.extend? id ds = some extended) : extended.Recorded config := by
  have hsound := h.sound.extend? hextend
  obtain ⟨placed, hplaced, rfl⟩ := Option.map_eq_some_iff.mp hextend
  refine ⟨hsound, h.resources, fun p hp => ?_⟩
  exact (Placement.mem_append? hplaced hp).elim (h.placements p) (hds p.distribution)

theorem Recorded.remove (h : L.Recorded config) (id : String) : (L.remove id).Recorded config :=
  ⟨h.sound.remove id, fun r hr => h.resources r (List.mem_filter.mp hr).1,
    fun p hp => h.placements p (List.mem_filter.mp hp).1⟩

end Ledger

/-! Recorded catalogs -/

namespace Database

variable {config : Config} {db changed : Database}

def Recorded (config : Config) (db : Database) : Prop :=
  ∃ L : Ledger, L.Recorded config ∧ L.database = db

theorem Recorded.upsert (h : db.Recorded config) {r : Resource} {ds : List Distribution}
    (htaken : Taken config r ds) (hupsert : db.upsert .aardvark r ds = .ok changed) :
    changed.Recorded config := by
  obtain ⟨L, hL, rfl⟩ := h
  rw [Ledger.upsert_database, Schema.check_eq_ok.mpr htaken.accepted] at hupsert
  cases hupsert
  exact ⟨_, hL.put htaken, rfl⟩

private theorem Recorded.refresh (h : db.Recorded config) {r : Resource} {ds : List Distribution}
    (htaken : Taken config r ds) (hrefresh : db.refresh .aardvark r ds = .ok changed) :
    changed.Recorded config := by
  obtain ⟨L, hL, rfl⟩ := h
  rw [Ledger.refresh_database, Schema.check_eq_ok.mpr htaken.accepted] at hrefresh
  cases hreplace : L.replace? r ds .metadata with
  | none =>
      rw [hreplace] at hrefresh
      cases hrefresh
  | some refreshed =>
      rw [hreplace] at hrefresh
      cases hrefresh
      exact ⟨_, hL.replace? htaken hreplace, rfl⟩

private theorem Recorded.append (h : db.Recorded config) {id : String} {d : Distribution}
    (hd : d.Regular config) {count : Nat} (happend : db.append id [d] = .ok (changed, count)) :
    changed.Recorded config := by
  obtain ⟨L, hL, rfl⟩ := h
  rw [Ledger.append_database] at happend
  cases hextend : L.extend? id [d] with
  | none =>
      rw [hextend] at happend
      cases happend
  | some extended =>
      rw [hextend] at happend
      cases happend
      exact ⟨_, hL.extend? (List.forall_mem_singleton.mpr hd) hextend, rfl⟩

theorem kept_recorded (config : Config) : Kept config (Recorded config) where
  upsert hdb htaken hupsert := hdb.upsert htaken hupsert
  refresh hdb htaken hrefresh := hdb.refresh htaken hrefresh
  append hdb hd happend := hdb.append hd happend

end Database

namespace Catalog

variable {config : Config} {c : Catalog}

structure Recorded (config : Config) (c : Catalog) : Prop where
  settings : c.config = config
  ledger : ∃ L : Ledger, L.Recorded config ∧ c.database = some L.database

theorem recorded_fresh (config : Config) (sink : Option Sink) :
    (fresh config sink).Recorded config :=
  ⟨rfl, .empty, Ledger.recorded_empty config, fresh_database config sink⟩

theorem Recorded.write {α : Type} (h : c.Recorded config) {idle : α}
    {operation : Database → Except Error (Database × α)}
    (hoperation : ∀ {db changed : Database} {result : α}, db.Recorded config →
      operation db = .ok (changed, result) → changed.Recorded config) :
    (stateAfter c (c.write idle operation)).Recorded config := by
  obtain ⟨hconfig, L, hL, hc⟩ := h
  simp only [Catalog.write, hc]
  cases hresult : operation L.database with
  | error e => exact ⟨hconfig, L, hL, hc⟩
  | ok written =>
      obtain ⟨M, hM, hwritten⟩ := hoperation ⟨L, hL, rfl⟩ hresult
      simp only [← hwritten, flush_database]
      exact ⟨hconfig, M, hM, rfl⟩

theorem Recorded.afterWrite (h : c.Recorded config) (w : RecordWrite) :
    (c.afterWrite w).Recorded config := by
  cases w with
  | upsertRecord record =>
      rw [Catalog.afterWrite, upsertRecord, schema, h.settings]
      cases hread : Record.read .aardvark config record with
      | error e => exact h
      | ok found =>
          have htaken := Record.taken_read hread
          simp only [Catalog.upsert, schema, Schema.check_eq_ok.mpr htaken.accepted]
          refine h.write fun {db changed result} hdb hresult => ?_
          obtain ⟨_, hupsert, heq⟩ := map_eq_ok.mp hresult
          cases heq
          exact hdb.upsert htaken hupsert
  | importBulk records =>
      refine h.write fun {db changed report} hdb hresult => ?_
      have hchanged : (db.importRecords .aardvark c.config records).1 = changed :=
        congrArg Prod.fst (Except.ok.inj hresult)
      rw [h.settings] at hchanged
      exact hchanged ▸ (Database.kept_recorded config).importRecords hdb records
  | importTabular rows aliases =>
      refine h.write fun hdb hresult => ?_
      rw [h.settings] at hresult
      exact (Database.kept_recorded config).importRows hdb hresult
  | delete id =>
      refine h.write fun hdb hresult => ?_
      obtain ⟨L, hL, rfl⟩ := hdb
      rw [Ledger.remove_database] at hresult
      split at hresult
      · cases hresult
      · cases hresult
        exact ⟨_, hL.remove id, rfl⟩
  | cacheThumbnail id url =>
      refine h.write fun hdb hresult => ?_
      obtain ⟨L, hL, rfl⟩ := hdb
      rw [Ledger.cacheThumbnail_database] at hresult
      cases hresult
      exact ⟨_, ⟨hL.sound.cacheThumbnail id url, hL.resources, hL.placements⟩, rfl⟩
  | cacheStaticMap id url =>
      refine h.write fun hdb hresult => ?_
      obtain ⟨L, hL, rfl⟩ := hdb
      rw [Ledger.cacheStaticMap_database] at hresult
      cases hresult
      exact ⟨_, ⟨hL.sound.cacheStaticMap id url, hL.resources, hL.placements⟩, rfl⟩

theorem recorded_afterWrites (config : Config) (sink : Option Sink) (writes : List RecordWrite) :
    ((fresh config sink).afterWrites writes).Recorded config :=
  List.foldlRecOn writes _ (recorded_fresh config sink) fun _ hc w _ => hc.afterWrite w

end Catalog

/-! Recorded ledgers read back -/

namespace Ledger

variable {config : Config} {L : Ledger}

theorem resource?_eq (L : Ledger) (id : String) :
    L.resource? id = (L.description? id).map fun d =>
      { id := id
        scalars := d.scalars
        repeatables := d.repeatables
        distributions := d.distributions
        geometry := { Resource.ofId id with scalars := d.scalars : Resource }.envelope?
        thumbnail := findEntry id L.thumbnails } := by
  rw [resource?, description?, Option.map_map]
  cases hr : L.resources.find? fun r => r.id == id with
  | none => rfl
  | some r =>
      have hid : r.id = id := by simpa using List.find?_some hr
      subst hid
      rfl

theorem description?_putAll_of_ne {written : List (Resource × List Distribution)} {id : String}
    (h : ∀ w ∈ written, w.1.id ≠ id) (L : Ledger) :
    (L.putAll written).description? id = L.description? id := by
  induction written generalizing L with
  | nil => rfl
  | cons w rest ih =>
      obtain ⟨hw, hrest⟩ := List.forall_mem_cons.mp h
      refine (ih hrest (L.put w.1 w.2)).trans ?_
      rw [description?_put, if_neg (Ne.symm hw)]

theorem description?_putAll {written : List (Resource × List Distribution)}
    (h : (written.map fun w => w.1.id).Nodup) {w : Resource × List Distribution}
    (hw : w ∈ written) (L : Ledger) :
    (L.putAll written).description? w.1.id = some (.ofWritten w.1 w.2) := by
  induction written generalizing L with
  | nil => exact absurd hw List.not_mem_nil
  | cons first rest ih =>
      obtain ⟨hnew, hrest⟩ := List.nodup_cons.mp h
      rcases List.mem_cons.mp hw with rfl | hw
      · have hlater : ∀ other ∈ rest, other.1.id ≠ w.1.id :=
          fun other hother heq => hnew (List.mem_map.mpr ⟨other, hother, heq⟩)
        refine (description?_putAll_of_ne hlater (L.put w.1 w.2)).trans ?_
        rw [description?_put, if_pos rfl]
      · exact ih hrest hw (L.put first.1 first.2)

theorem caches_putAll (L : Ledger) (written : List (Resource × List Distribution)) :
    (L.putAll written).thumbnails = L.thumbnails ∧
      (L.putAll written).staticMaps = L.staticMaps := by
  induction written generalizing L with
  | nil => exact ⟨rfl, rfl⟩
  | cons w rest ih => exact ih (L.put w.1 w.2)

private theorem filter_keptValues (values : List String) :
    (Database.keptValues values).filter (fun value => !Text.allBlank value) =
      Database.keptValues values := by
  refine List.filter_eq_self.mpr fun value hvalue => ?_
  exact (List.mem_filter.mp (List.mem_eraseDups.mp hvalue)).2

private theorem kept_again {values kept : List String} (h : Resource.kept? values = some kept) :
    (Record.reread? kept).bind Description.values? = some kept := by
  rw [Resource.kept?] at h
  split at h
  · cases h
  next hne =>
    cases h
    have hdups : (Database.keptValues values).eraseDups = Database.keptValues values :=
      eraseDups_of_nodup (nodup_eraseDups _)
    simp only [Record.reread?, Description.values?, filter_keptValues, if_neg hne,
      Option.bind_some, hdups]

section

variable {r : Resource} (h : r.Regular) (name : String)

include h

private theorem filter_scalar :
    ((r.scalars.get? name).filter fun value => !Text.allBlank value) = r.scalars.get? name := by
  cases hvalue : r.scalars.get? name with
  | none => rfl
  | some value =>
      refine Option.filter_eq_some_iff.mpr ⟨rfl, ?_⟩
      rw [h.scalars name value hvalue]
      rfl

private theorem values?_reread :
    (if name = referencesField then none
      else ((r.repeatables.get? name).bind Resource.kept?).bind Record.reread?).bind
        Description.values? = (r.repeatables.get? name).bind Resource.kept? := by
  split
  next hname =>
    rw [hname, h.references]
    rfl
  next =>
    cases hgiven : (r.repeatables.get? name).bind Resource.kept? with
    | none => rfl
    | some kept =>
        obtain ⟨values, -, hvalues⟩ := Option.bind_eq_some_iff.mp hgiven
        exact kept_again hvalues

end

/-- No two distributions of a resource agree in relation, address and label. -/
theorem Sound.distributions_differ (h : L.Sound) (id : String) :
    ((L.placements.filter fun p => p.id == id).map Placement.distribution).Pairwise
      fun a b => b.sameAccess a = false := by
  rw [List.pairwise_map]
  refine (h.placements.sublist List.filter_sublist).imp_of_mem fun {p q} hp hq hapart => ?_
  have hid : q.id = p.id := by
    have hpid := (List.mem_filter.mp hp).2
    have hqid := (List.mem_filter.mp hq).2
    rw [beq_iff_eq] at hpid hqid
    rw [hpid, hqid]
  have hclash := (hapart hid).2
  simp only [Placement.clashes, hid, BEq.rfl, Bool.true_and] at hclash
  exact hclash

theorem Recorded.regular_distributions (h : L.Recorded config) {r : Resource}
    (hr : r ∈ L.exported) : ∀ d ∈ r.distributions, d.Regular config := by
  obtain ⟨stored, -, rfl⟩ := Option.map_eq_some_iff.mp (mem_exported.mp hr)
  intro d hd
  obtain ⟨p, hp, rfl⟩ := List.mem_map.mp hd
  exact h.placements p (List.mem_filter.mp hp).1

/-- The record of a resource gives back what the ledger tells of it, its distributions in the order
of the addresses of their relations. -/
theorem Recorded.read_exported (h : L.Recorded config) {r : Resource} (hr : r ∈ L.exported) :
    r.Readable ∧ Text.trim r.id = r.id ∧
      ∃ back, Record.read .aardvark config (Record.ofResource config r) =
          .ok (back, References.reread config r.distributions) ∧ back.id = r.id ∧
        Description.ofWritten back (References.reread config r.distributions) =
          ⟨r.scalars, r.repeatables, References.reread config r.distributions⟩ := by
  have haccepted := h.sound.accepts_of_mem_exported hr
  have hdistributions := References.agree_reread (h.regular_distributions hr)
  obtain ⟨stored, hstored, rfl⟩ := Option.map_eq_some_iff.mp (mem_exported.mp hr)
  have hregular := h.resources stored (List.mem_of_find?_eq_some hstored)
  have hkept (name : String) : (L.record stored).repeatables.get? name =
      (stored.repeatables.get? name).bind Resource.kept? := Dict.get?_filterMap _ _ _
  have hreadable : (L.record stored).Readable := .inr (by rw [hkept, hregular.references]; rfl)
  obtain ⟨back, hread, hid, hscalars, hrepeatables⟩ :=
    Record.read_ofResource (Record.exportable_of_accepts haccepted) config hreadable
  refine ⟨hreadable, hregular.id, back, hread, hid.trans hregular.id, ?_⟩
  have hsame : back.scalars = stored.scalars :=
    Dict.ext_get? fun name => (hscalars name).trans (filter_scalar hregular name)
  have hvalues : back.repeatables.filterMap Description.values? =
      (L.record stored).repeatables :=
    Dict.ext_get? fun name => by
      rw [Dict.get?_filterMap, hrepeatables, hkept]
      exact values?_reread hregular name
  -- in another order the distributions differ from each other as before
  have hplaces : (References.reread config (L.record stored).distributions).eraseDupsBy
      Distribution.sameAccess = References.reread config (L.record stored).distributions := by
    have hsymm {a b : Distribution} (hab : b.sameAccess a = false) : a.sameAccess b = false := by
      rwa [Distribution.sameAccess_comm]
    exact eraseDupsBy_of_pairwise ((hdistributions.perm.pairwise_iff hsymm).mpr
      (h.sound.distributions_differ stored.id))
  rw [Description.ofWritten, hsame, hvalues, hplaces]
  rfl

private theorem Recorded.nodup_written (h : L.Recorded config) :
    ((written config (L.exported.map (Record.ofResource config))).map fun w => w.1.id).Nodup := by
  have hreadable : L.exported.filter (fun r => decide r.Readable) = L.exported :=
    List.filter_eq_self.mpr fun r hr => decide_eq_true (h.read_exported hr).1
  have htrimmed : L.exported.map (fun r => Text.trim r.id) = L.exported.map Resource.id :=
    List.map_congr_left fun r hr => (h.read_exported hr).2.1
  rw [(id_written config fun r hr => h.sound.accepts_of_mem_exported hr).1, hreadable, htrimmed,
    id_exported]
  exact h.sound.nodup_ids

private theorem Recorded.description?_reimported (h : L.Recorded config) {id : String}
    {r : Resource} (hr : L.resource? id = some r) :
    (L.reimported config).description? id =
      some ⟨r.scalars, r.repeatables, References.reread config r.distributions⟩ := by
  have hid : r.id = id := id_resource? hr
  have hexported : r ∈ L.exported := mem_exported.mpr (by rw [hid, hr])
  obtain ⟨-, -, back, hread, hback, hwritten⟩ := h.read_exported hexported
  have hmem : (back, References.reread config r.distributions) ∈
      written config (L.exported.map (Record.ofResource config)) :=
    List.mem_filterMap.mpr ⟨_, List.mem_map_of_mem hexported, by rw [hread]; rfl⟩
  have htold := description?_putAll h.nodup_written hmem empty
  rwa [hback, hid, hwritten] at htold

/-- A ledger made of the records of a recorded one reads back the same resources, their
distributions in the order of the addresses of their relations, without cached addresses. -/
theorem Recorded.resource?_reimported (h : L.Recorded config) (id : String) :
    (L.reimported config).resource? id = (L.resource? id).map fun r =>
      { r with
        distributions := References.reread config r.distributions
        thumbnail := none } := by
  cases hr : L.resource? id with
  | none =>
      have hhas : ¬(L.reimported config).has id = true := by
        rw [h.sound.has_reimported]
        rintro ⟨r, hexported, -, hid⟩
        rw [(h.read_exported hexported).2.1] at hid
        rw [mem_exported, hid, hr] at hexported
        cases hexported
      rw [← resource?_isSome] at hhas
      exact Option.not_isSome_iff_eq_none.mp hhas
  | some r =>
      have hthumbnails : (L.reimported config).thumbnails = [] := (caches_putAll empty _).1
      rw [resource?_eq, h.description?_reimported hr, hthumbnails]
      rw [resource?_eq] at hr
      obtain ⟨d, -, rfl⟩ := Option.map_eq_some_iff.mp hr
      rfl

/-- The records of a recorded ledger are those of the ledger made of them. -/
theorem Recorded.records_reimported (h : L.Recorded config) :
    (L.reimported config).exported.map (Record.ofResource config) =
      L.exported.map (Record.ofResource config) := by
  have hids : (L.reimported config).ids = L.ids := by
    refine ids_eq h.sound (L.sound_reimported config) fun id => ?_
    rw [← resource?_isSome, ← resource?_isSome, h.resource?_reimported, Option.isSome_map]
  rw [exported, exported, hids, List.map_filterMap, List.map_filterMap]
  refine List.filterMap_congr fun id hid => ?_
  rw [h.resource?_reimported, Option.map_map]
  cases hr : L.resource? id with
  | none => rfl
  | some r =>
      have hexported : r ∈ L.exported := mem_exported.mpr (by rw [id_resource? hr, hr])
      have hregular := h.regular_distributions hexported
      have htext := (References.agree_reread hregular).text? hregular
      simp only [Option.map_some, Function.comp_apply, Record.ofResource, htext]

end Ledger

namespace Catalog

/-- Agreement of an answer with that of a catalog into which the records were taken: all but the
order of distributions of different relations and the thumbnail, which is gone. -/
def TakenOver : Except Error Resource → Except Error Resource → Prop
  | .ok r, .ok back =>
      back.id = r.id ∧ back.scalars = r.scalars ∧ back.repeatables = r.repeatables ∧
        back.geometry = r.geometry ∧ References.Agree r.distributions back.distributions ∧
          back.thumbnail = none
  | .error e, .error e' => e' = e
  | _, _ => False

/-- Taking the records of a catalog out and into a catalog without resources is undone by taking
them out again, if the catalog came about by writes of records and rows, removals and cached
addresses. -/
theorem reimport_afterWrites (config : Config) (sink other : Option Sink)
    (writes : List RecordWrite) :
    let c := (fresh config sink).afterWrites writes
    ∃ records c' report, c.exportRecords = .ok records ∧
      (fresh config other).importBulk records = .ok (c', report) ∧
      c'.exportRecords = .ok records ∧ (∀ id, TakenOver (c.get id) (c'.get id)) ∧
        ∀ id, c'.staticMap? id = .ok none := by
  obtain ⟨hconfig, L, hL, hc⟩ := recorded_afterWrites config sink writes
  have hM := L.sound_reimported config
  have hrecords := exportRecords_database hc hL.sound
  rw [hconfig] at hrecords
  refine ⟨_, _, _, hrecords, importBulk_exported hL.sound config other, ?_, fun id => ?_,
    fun id => ?_⟩
  · rw [exportRecords_database rfl hM, ← hL.records_reimported]
    rfl
  · rw [get_database hc hL.sound, get_database rfl hM, hL.resource?_reimported]
    cases hr : L.resource? id with
    | none => rfl
    | some r =>
        have hexported : r ∈ L.exported := Ledger.mem_exported.mpr (by
          rw [Ledger.id_resource? hr, hr])
        exact ⟨rfl, rfl, rfl, rfl, References.agree_reread (hL.regular_distributions hexported), rfl⟩
  · have hmaps : (L.reimported config).staticMaps = [] := (Ledger.caches_putAll .empty _).2
    have hc' : ((fresh config other).holding (L.reimported config)).database =
        some (L.reimported config).database := rfl
    simp only [staticMap?, read, hc', Ledger.staticMap?_database hM, hmaps]
    rfl

end Catalog

end Gazetteer
