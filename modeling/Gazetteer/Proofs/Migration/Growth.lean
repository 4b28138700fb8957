import Mathlib
import Gazetteer.Proofs.Store.Database
import Gazetteer.Proofs.Store.Name
import Gazetteer.Proofs.Text.Lowercase
import Gazetteer.Store.Layout
/-!
How a database grows when it is brought to the present layout: tables that were there gain columns,
tables that were not come into being without rows, and nothing else changes but indexes.
-/

namespace Gazetteer

open Layout

/-! Tables -/

/-- A table that gained columns, and perhaps other indexes. -/
structure Table.Grown (t u : Table) (added : List Column) : Prop where
  name : u.name = t.name
  columns : u.columns = t.columns ++ added
  rows : u.rows = t.rows.map fun r => r.extend added

namespace Table.Grown

variable {t u v : Table} {added more : List Column}

theorem refl (t : Table) : t.Grown t [] where
  name := rfl
  columns := (List.append_nil _).symm
  rows := by
    have hself (r : Row) : r.extend [] = r := congrArg Row.mk (List.append_nil _)
    simp only [hself, List.map_id']

theorem trans (h : t.Grown u added) (h' : u.Grown v more) : t.Grown v (added ++ more) where
  name := h'.name.trans h.name
  columns := by rw [h'.columns, h.columns, List.append_assoc]
  rows := by simp only [h'.rows, h.rows, List.map_map, Function.comp_def, Row.extend_extend]

theorem extend (t : Table) (added : List Column) : t.Grown (t.extend added) added :=
  ⟨rfl, rfl, rfl⟩

theorem withIndexes (t : Table) (indexes : List Index) :
    t.Grown { t with indexes := indexes } [] :=
  ⟨rfl, (refl t).columns, (refl t).rows⟩

theorem has (h : t.Grown u added) {column : String} (hcolumn : t.has column = true) :
    u.has column = true := by
  rw [Table.has_iff] at *
  rw [h.columns, List.map_append]
  exact List.mem_append_left _ hcolumn

end Table.Grown

namespace Database

variable {db changed : Database} {name : String}

theorem make_eq_ok {columns : List (String × Declaration)} {t : Table}
    (h : make name columns = .ok t) : ∃ read, Name.unquoteAll columns = .ok read ∧
      Table.ofDeclarations name read = .ok t :=
  bind_eq_ok.mp h

/-- Steps one after the other: before and after each of them stands a database that the relation
of a single step leads to and from. -/
theorem foldl_taken {α : Type} {R : Database → Database → Prop} (hrefl : ∀ db, R db db)
    (htrans : ∀ {a b c}, R a b → R b c → R a c) {step : Database → α → Database} {items : List α}
    (h : ∀ db, ∀ item ∈ items, R db (step db item)) (db : Database) :
    R db (items.foldl step db) ∧ ∀ item ∈ items, ∃ before,
      R db before ∧ R (step before item) (items.foldl step db) := by
  induction items generalizing db with
  | nil => exact ⟨hrefl db, fun item hitem => absurd hitem List.not_mem_nil⟩
  | cons first rest ih =>
      have hfirst := h db first List.mem_cons_self
      obtain ⟨hrest, htaken⟩ :=
        ih (fun db other hother => h db other (List.mem_cons_of_mem _ hother)) (step db first)
      refine ⟨htrans hfirst hrest, fun item hitem => ?_⟩
      rcases List.mem_cons.mp hitem with rfl | hitem
      · exact ⟨db, hrefl db, hrest⟩
      · obtain ⟨before, hbefore, hafter⟩ := htaken item hitem
        exact ⟨before, htrans hfirst hbefore, hafter⟩

/-! Growth -/

def layoutTables (schema : Schema) : List (String × List (String × Declaration)) :=
  [(resources, resourceColumns schema), (attributes, attributeColumns),
    (distributions, distributionColumns), (searchTexts, searchTextColumns),
    (thumbnails, thumbnailColumns), (staticMaps, staticMapColumns)]

def IsLater (schema : Schema) (name : String) (c : Column) : Prop :=
  ∃ entry ∈ laterColumns schema, Text.sameLetters entry.1 name = true ∧
    ∃ read, Name.unquote? entry.2.1 = some read ∧ c = entry.2.2.column read

theorem unquote?_geometry : ∀ column ∈ geometryColumns, Name.unquote? column = some column := by
  decide +kernel

private theorem geometryColumns_plain : (geometryColumns.all fun column =>
    Text.lowercase column == column &&
      column.toList.all fun c => c.toNat < 0x80 && c.toNat != 107) = true := by
  decide +kernel

theorem fold_eq_of_geometry {name column : String} (hcolumn : column ∈ geometryColumns)
    (h : Text.lowercase name = Text.lowercase column) : Text.fold name = column := by
  have hplain := List.all_eq_true.mp geometryColumns_plain column hcolumn
  simp only [Bool.and_eq_true, beq_iff_eq, List.all_eq_true, decide_eq_true_eq,
    bne_iff_ne] at hplain
  obtain ⟨hlower, hascii⟩ := hplain
  exact Text.fold_eq_of_lowercase_eq hascii (h.trans hlower)

theorem isLater_resources {schema : Schema} {name : String} {c : Column}
    (hname : Text.sameLetters resources name = true) (h : IsLater schema name c) :
    (∃ column ∈ schema.scalarColumns, ∃ read, Name.unquote? column = some read ∧
      c = (plain .text).column read) ∨
        ∃ column ∈ geometryColumns, c = (plain .real).column column := by
  obtain ⟨entry, hentry, hentryName, read, hread, rfl⟩ := h
  rw [laterColumns, List.mem_append, List.mem_append] at hentry
  rcases hentry with (hentry | hentry) | hentry
  · obtain ⟨column, hcolumn, rfl⟩ := List.mem_map.mp hentry
    exact Or.inl ⟨column, hcolumn, read, hread, rfl⟩
  · obtain ⟨column, hcolumn, rfl⟩ := List.mem_map.mp hentry
    rw [unquote?_geometry column hcolumn, Option.some.injEq] at hread
    subst hread
    exact Or.inr ⟨column, hcolumn, rfl⟩
  · exfalso
    rw [Text.sameLetters_comm] at hname
    have hresources := sameLetters_trans hentryName hname
    simp only [List.mem_cons, List.not_mem_nil, or_false] at hentry
    rcases hentry with rfl | rfl | rfl | rfl <;> exact absurd hresources (by decide)

def layoutIndexes : List (String × Index) :=
  [(attributes, plainIndex "idx_resources_mv_field_value" ["field", "value"]),
    (attributes, plainIndex "idx_resources_mv_id" ["id"]),
    (distributions, plainIndex "idx_distributions_resource" ["resource_id"]),
    (resources, geometryIndex), (distributions, labeledIndex)]

theorem ensureTable_mem_baseSteps {table : String × List (String × Declaration)}
    (htable : table ∈ layoutTables schema) :
    (·.ensureTable table.1 (make table.1 table.2)) ∈ baseSteps schema := by
  simp only [layoutTables, List.mem_cons, List.not_mem_nil, or_false] at htable
  rcases htable with rfl | rfl | rfl | rfl | rfl | rfl <;> simp [baseSteps]

/-- The steps that cannot be left out read the names of the fields, or they see to a table or to an
index of the layout. -/
theorem forall_baseSteps {P : (Database → Except Fault Database) → Prop}
    (hnames : P fun db => (Name.unquoteAll (resourceColumns schema)).map fun _ => db)
    (htables : ∀ table ∈ layoutTables schema, P (·.ensureTable table.1 (make table.1 table.2)))
    (hindexes : ∀ entry ∈ layoutIndexes, P (·.ensureIndex entry.1 entry.2)) :
    ∀ step ∈ baseSteps schema, P step := by
  simp only [layoutTables, layoutIndexes, List.forall_mem_cons] at htables hindexes
  obtain ⟨hresources, hattributes, hdistributions, htexts, hthumbnails, hmaps, -⟩ := htables
  obtain ⟨hvalues, hids, hplaces, -⟩ := hindexes
  simp only [baseSteps, List.forall_mem_cons]
  exact ⟨hnames, hresources, hattributes, hvalues, hids, hdistributions, hplaces, htexts,
    hthumbnails, hmaps, List.forall_mem_nil _⟩

/-- A table that gained columns and indexes of the layout, and may have lost indexes. -/
structure Gained (schema : Schema) (t u : Table) : Prop where
  columns : ∃ added, t.Grown u added ∧ ∀ c ∈ added, IsLater schema t.name c
  indexes : ∀ i ∈ u.indexes, i ∈ t.indexes ∨
    ∃ entry ∈ layoutIndexes, Text.sameLetters entry.1 t.name = true ∧ i = entry.2

/-- What bringing a database to the present layout makes of its tables: those that were there
gain columns, and those that were not are tables of the layout. -/
structure Grows (schema : Schema) (db changed : Database) : Prop where
  kept : ∀ {name t}, db.table? name = some t → ∃ u, changed.table? name = some u ∧
    Gained schema t u
  made : ∀ {name u}, db.table? name = none → changed.table? name = some u →
    ∃ entry ∈ layoutTables schema, ∃ t, make entry.1 entry.2 = .ok t ∧ Gained schema t u
  consistent : db.Consistent → changed.Consistent

variable {schema : Schema}

namespace Gained

variable {t u v : Table}

theorem sameName (h : Gained schema t u) : u.name = t.name := by
  obtain ⟨added, hgrown, -⟩ := h.columns
  exact hgrown.name

theorem withIndexes {indexes : List Index} (h : ∀ i ∈ indexes, i ∈ t.indexes ∨
    ∃ entry ∈ layoutIndexes, Text.sameLetters entry.1 t.name = true ∧ i = entry.2) :
    Gained schema t { t with indexes := indexes } :=
  ⟨⟨[], .withIndexes t indexes, fun _ hc => absurd hc List.not_mem_nil⟩, h⟩

theorem refl (t : Table) : Gained schema t t :=
  withIndexes fun _ => Or.inl

theorem trans (h : Gained schema t u) (h' : Gained schema u v) : Gained schema t v := by
  obtain ⟨added, hgrown, hlater⟩ := h.columns
  obtain ⟨more, hgrown', hlater'⟩ := h'.columns
  rw [h.sameName] at hlater'
  refine ⟨⟨added ++ more, hgrown.trans hgrown', ?_⟩, fun i hi => ?_⟩
  · exact List.forall_mem_append.mpr ⟨hlater, hlater'⟩
  · rcases h'.indexes i hi with hi | hi
    · exact h.indexes i hi
    · rw [h.sameName] at hi
      exact Or.inr hi

end Gained

theorem table?_dropIndex (db : Database) (name other : String) :
    (db.dropIndex name).table? other = (db.table? other).map fun t =>
      { t with indexes := t.indexes.filter fun i => !Text.sameLetters i.name name } := by
  rw [table?, dropIndex, List.find?_map]
  rfl

namespace Grows

theorem refl (db : Database) : Grows schema db db where
  kept h := ⟨_, h, .refl _⟩
  made hnone hsome := by
    rw [hnone] at hsome
    cases hsome
  consistent := id

theorem trans {db₁ db₂ db₃ : Database} (h : Grows schema db₁ db₂) (h' : Grows schema db₂ db₃) :
    Grows schema db₁ db₃ where
  kept ht := by
    obtain ⟨u, hu, hgained⟩ := h.kept ht
    obtain ⟨v, hv, hgained'⟩ := h'.kept hu
    exact ⟨v, hv, hgained.trans hgained'⟩
  made {name v} hnone hv := by
    cases hu : db₂.table? name with
    | none => exact h'.made hu hv
    | some u =>
        obtain ⟨entry, hentry, t, ht, hgained⟩ := h.made hnone hu
        obtain ⟨w, hw, hgained'⟩ := h'.kept hu
        rw [hv] at hw
        cases hw
        exact ⟨entry, hentry, t, ht, hgained.trans hgained'⟩
  consistent := h'.consistent ∘ h.consistent

theorem put {t u : Table} (ht : db.table? name = some t) (hgained : Gained schema t u)
    (hconsistent : t.Consistent → u.Consistent) : Grows schema db (db.put u) where
  kept {other found} hfound := by
    rw [table?_put, hfound, hgained.sameName]
    cases hname : Text.sameLetters t.name other with
    | false => exact ⟨found, rfl, .refl found⟩
    | true =>
        have hsame : db.table? other = db.table? name := table?_congr <| by
          rw [Text.sameLetters_comm] at hname
          exact sameLetters_trans hname (sameLetters_of_table? ht)
        rw [hfound, ht, Option.some.injEq] at hsame
        subst hsame
        exact ⟨u, rfl, hgained⟩
  made {other found} hnone hfound := by
    rw [table?_put, hnone, Option.map_none, ite_self] at hfound
    cases hfound
  consistent h := h.put (hconsistent (h t (mem_of_table? ht)))

theorem ensureTable {entry : String × List (String × Declaration)}
    (hentry : entry ∈ layoutTables schema)
    (h : db.ensureTable entry.1 (make entry.1 entry.2) = .ok changed) :
    Grows schema db changed := by
  rcases ensureTable_eq_ok h with ⟨-, rfl⟩ | ⟨-, t, ht, rfl⟩
  · exact refl _
  · refine ⟨fun {other u} hu => ?_, fun {other u} hnone hu => ?_, fun h => h.append ?_⟩
    · exact ⟨u, by rw [table?_append, hu, Option.some_or], .refl u⟩
    · rw [table?_append, hnone, Option.none_or, Option.ite_none_right_eq_some] at hu
      cases hu.2
      exact ⟨entry, hentry, t, ht, .refl t⟩
    · obtain ⟨read, -, hmade⟩ := make_eq_ok ht
      exact Table.consistent_ofDeclarations hmade

theorem ensureIndex {entry : String × Index} (hentry : entry ∈ layoutIndexes)
    (h : db.ensureIndex entry.1 entry.2 = .ok changed) : Grows schema db changed := by
  rcases ensureIndex_eq_ok h with rfl | ⟨t, u, ht, hu, rfl⟩
  · exact refl _
  · have hgained : Gained schema t u := by
      obtain ⟨-, -, rfl⟩ := Table.addIndex_eq_ok.mp hu
      refine .withIndexes fun i hi => ?_
      rcases List.mem_append.mp hi with hi | hi
      · exact Or.inl hi
      · refine Or.inr ⟨entry, hentry, ?_, List.mem_singleton.mp hi⟩
        rw [Text.sameLetters_comm]
        exact sameLetters_of_table? ht
    exact put ht hgained fun hconsistent => hconsistent.addIndex hu

theorem tryIndex (db : Database) {i : Index} (hentry : (name, i) ∈ layoutIndexes) :
    Grows schema db (db.tryIndex name i) := by
  rw [Database.tryIndex]
  split
  next changed h => exact ensureIndex hentry h
  next => exact refl db

theorem dropIndex (db : Database) (name : String) : Grows schema db (db.dropIndex name) := by
  refine ⟨fun {other t} ht => ?_, fun {other u} hnone hu => ?_, fun h u hu => ?_⟩
  · rw [table?_dropIndex, ht]
    exact ⟨_, rfl, .withIndexes fun i hi => Or.inl (List.mem_of_mem_filter hi)⟩
  · rw [table?_dropIndex, hnone] at hu
    cases hu
  · obtain ⟨t, ht, rfl⟩ := List.mem_map.mp hu
    exact (h t ht).withIndexes fun i hi => Or.inl (List.mem_of_mem_filter hi)

theorem isSome (h : Grows schema db changed) (ht : (db.table? name).isSome = true) :
    (changed.table? name).isSome = true := by
  obtain ⟨t, ht⟩ := Option.isSome_iff_exists.mp ht
  obtain ⟨u, hu, -⟩ := h.kept ht
  rw [hu]
  rfl

/-! Columns -/

theorem addColumn {entry : String × String × Declaration} (hentry : entry ∈ laterColumns schema)
    {added : Bool} (h : db.addColumn entry.1 entry.2.1 (some entry.2.2) = .ok (changed, added)) :
    Grows schema db changed := by
  rw [Database.addColumn] at h
  cases ht : db.table? entry.1 with
  | none =>
      rw [ht] at h
      cases h
  | some t =>
      simp only [ht] at h
      split at h
      · cases h
        exact refl _
      · split at h
        · cases h
        next read hread =>
          obtain ⟨u, hu, hchanged⟩ := map_eq_ok.mp h
          cases hchanged
          rw [Table.addDeclared] at hu
          split at hu
          · cases hu
          · have hgained : Gained schema t u := by
              obtain ⟨-, -, rfl⟩ := Table.addColumn_eq_ok.mp hu
              refine ⟨⟨_, .extend t _, List.forall_mem_singleton.mpr
                ⟨entry, hentry, ?_, read, hread, rfl⟩⟩, fun _ => Or.inl⟩
              rw [Text.sameLetters_comm]
              exact sameLetters_of_table? ht
            exact put ht hgained fun hconsistent => hconsistent.addColumn hu

private theorem laterColumn (db : Database) {entry : String × String × Declaration}
    (hentry : entry ∈ laterColumns schema) :
    Grows schema db (match db.addColumn entry.1 entry.2.1 (some entry.2.2) with
      | .ok (changed, _) => changed
      | .error _ => db) := by
  split
  next h => exact addColumn hentry h
  next => exact refl db

theorem addLaterColumns (db : Database) : Grows schema db (db.addLaterColumns schema) :=
  (foldl_taken refl trans (fun db _ hentry => laterColumn db hentry) db).1

/-- What comes after the columns changes indexes only. -/
theorem addLater (db : Database) :
    Grows schema (db.addLaterColumns schema) (db.addLater schema) := by
  have hgeometry : (resources, geometryIndex) ∈ layoutIndexes := by
    simp [layoutIndexes]
  have hlabeled : (distributions, labeledIndex) ∈ layoutIndexes := by
    simp [layoutIndexes]
  rw [Database.addLater]
  exact ((tryIndex _ hgeometry).trans (dropIndex _ _)).trans (tryIndex _ hlabeled)

/-! The steps that cannot be left out -/

theorem baseStep : ∀ step ∈ baseSteps schema, ∀ {db changed}, step db = .ok changed →
    Grows schema db changed := by
  refine forall_baseSteps (fun {db changed} h => ?_) (fun table htable => ensureTable htable)
    fun entry hentry => ensureIndex hentry
  obtain ⟨read, -, rfl⟩ := map_eq_ok.mp h
  exact refl db

end Grows

/-- Each of several steps was taken on the way, and what came after it only grew. -/
theorem afterAll_taken {steps : List (Database → Except Fault Database)}
    (hgrows : ∀ step ∈ steps, ∀ {db changed}, step db = .ok changed → Grows schema db changed)
    (h : db.afterAll steps = .ok changed) :
    Grows schema db changed ∧ ∀ step ∈ steps, ∃ before after,
      step before = .ok after ∧ Grows schema after changed := by
  induction steps generalizing db with
  | nil =>
      cases h
      exact ⟨.refl _, fun step hstep => absurd hstep List.not_mem_nil⟩
  | cons first rest ih =>
      rw [afterAll] at h
      split at h
      · cases h
      next after hafter =>
        obtain ⟨hrest, htaken⟩ :=
          ih (fun step hstep => hgrows step (List.mem_cons_of_mem _ hstep)) h
        refine ⟨(hgrows first List.mem_cons_self hafter).trans hrest, fun step hstep => ?_⟩
        rcases List.mem_cons.mp hstep with rfl | hstep
        · exact ⟨db, after, hafter, hrest⟩
        · exact htaken step hstep

theorem table?_of_ensureTable {columns : List (String × Declaration)}
    (h : db.ensureTable name (make name columns) = .ok changed) :
    (changed.table? name).isSome = true := by
  rcases ensureTable_eq_ok h with ⟨hsome, rfl⟩ | ⟨hnone, t, ht, rfl⟩
  · exact hsome
  · obtain ⟨read, -, hmade⟩ := make_eq_ok ht
    have hname := (Table.ofDeclarations_eq_ok hmade).1
    rw [table?_append, hnone, hname, Text.sameLetters_refl]
    rfl

theorem afterAll_baseSteps (h : db.afterAll (baseSteps schema) = .ok changed) :
    Grows schema db changed ∧
      ∀ entry ∈ layoutTables schema, (changed.table? entry.1).isSome = true := by
  obtain ⟨hgrows, htaken⟩ := afterAll_taken Grows.baseStep h
  refine ⟨hgrows, fun entry hentry => ?_⟩
  obtain ⟨before, after, hafter, hlater⟩ := htaken _ (ensureTable_mem_baseSteps hentry)
  exact hlater.isSome (table?_of_ensureTable hafter)

/-! The columns that are there in the end -/

def Offers (db : Database) (name column : String) : Prop :=
  ∃ t, db.table? name = some t ∧ ∃ c ∈ t.columns, Text.lowercase c.name = Text.lowercase column

theorem Grows.offers (h : Grows schema db changed) {column : String}
    (hoffers : db.Offers name column) : changed.Offers name column := by
  obtain ⟨t, ht, c, hc, hname⟩ := hoffers
  obtain ⟨u, hu, hgained⟩ := h.kept ht
  obtain ⟨added, hgrown, -⟩ := hgained.columns
  refine ⟨u, hu, c, ?_, hname⟩
  rw [hgrown.columns]
  exact List.mem_append_left _ hc

theorem addColumn_offers {column : String} (affinity : Affinity)
    (hread : Name.unquote? column = some column) {t : Table} (ht : db.table? name = some t) :
    ∃ changed added, db.addColumn name column (some (plain affinity)) = .ok (changed, added) ∧
      changed.Offers name column := by
  rw [addColumn, ht]
  simp only [hread]
  cases hany : t.columns.any fun c => Text.lowercase c.name == Text.lowercase column with
  | true =>
      obtain ⟨c, hc, hname⟩ := List.any_eq_true.mp hany
      exact ⟨db, false, rfl, t, ht, c, hc, beq_iff_eq.mp hname⟩
  | false =>
      have hhas : t.has column = false := by
        rw [Bool.eq_false_iff]
        intro h
        obtain ⟨c, hc, hname⟩ := List.mem_map.mp (Table.has_iff.mp h)
        have hlower := Text.lowercase_eq_of_sameLetters (beq_iff_eq.mpr hname)
        exact List.any_eq_false.mp hany c hc (beq_iff_eq.mpr hlower)
      have hadd : t.addDeclared column (plain affinity) =
          .ok (t.extend [(plain affinity).column column]) := by
        rw [Table.addDeclared, if_neg (by exact Bool.false_ne_true)]
        exact Table.addColumn_eq_ok.mpr ⟨hhas, fun h => absurd h Bool.false_ne_true, rfl⟩
      rw [hadd]
      exact ⟨_, true, rfl, _, table?_put_self ht rfl, _, List.mem_append_right _ List.mem_cons_self,
        rfl⟩

theorem addLater_offers {column : String} {affinity : Affinity}
    (hentry : (name, column, plain affinity) ∈ laterColumns schema)
    (hread : Name.unquote? column = some column) (ht : (db.table? name).isSome = true) :
    (db.addLater schema).Offers name column := by
  have hcolumns : (db.addLaterColumns schema).Offers name column := by
    obtain ⟨before, hbefore, hafter⟩ := (foldl_taken Grows.refl Grows.trans
      (fun db _ hentry => Grows.laterColumn db hentry) db).2 _ hentry
    obtain ⟨t, ht⟩ := Option.isSome_iff_exists.mp ht
    obtain ⟨u, hu, -⟩ := hbefore.kept ht
    obtain ⟨changed, added, hadd, hoffers⟩ := addColumn_offers affinity hread hu
    simp only [hadd] at hafter
    exact hafter.offers hoffers
  exact (Grows.addLater db).offers hcolumns

/-- A database that grew to have all tables of the layout, and all columns that can be added to
any table. -/
structure Completes (schema : Schema) (db later : Database) : Prop where
  grows : Grows schema db later
  tables : ∀ entry ∈ layoutTables schema, (later.table? entry.1).isSome = true
  columns : ∀ {name column affinity}, (name, column, plain affinity) ∈ laterColumns schema →
    Name.unquote? column = some column → name ∈ (layoutTables schema).map Prod.fst →
      later.Offers name column

theorem completes_addLater {base : Database} (h : db.afterAll (baseSteps schema) = .ok base) :
    Completes schema db (base.addLater schema) := by
  obtain ⟨hgrows, htables⟩ := afterAll_baseSteps h
  have hlater : Grows schema base (base.addLater schema) :=
    (Grows.addLaterColumns base).trans (.addLater base)
  refine ⟨hgrows.trans hlater, fun entry hentry => hlater.isSome (htables entry hentry),
    fun hentry hread hname => ?_⟩
  obtain ⟨table, htable, rfl⟩ := List.mem_map.mp hname
  exact addLater_offers hentry hread (htables table htable)

/-! Tables that came into being -/

private theorem layoutTables_apart {a b : String × List (String × Declaration)}
    (ha : a ∈ layoutTables schema) (hb : b ∈ layoutTables schema)
    (h : Text.sameLetters a.1 b.1 = true) : a = b := by
  have hnames : ([resources, attributes, distributions, searchTexts, thumbnails, staticMaps].map
      Text.fold).Nodup := by
    decide
  have hnodup : ((layoutTables schema).map fun entry => Text.fold entry.1).Nodup := hnames
  exact List.inj_on_of_nodup_map hnodup ha hb (beq_iff_eq.mp h)

theorem Completes.made {later : Database} (h : Completes schema db later)
    {entry : String × List (String × Declaration)} (hentry : entry ∈ layoutTables schema)
    (hnone : db.table? entry.1 = none) : ∃ u, later.table? entry.1 = some u ∧ u.rows = [] ∧
      ∀ c ∈ entry.2, '"' ∉ c.1.toList → u.has c.1 = true := by
  obtain ⟨u, hu⟩ := Option.isSome_iff_exists.mp (h.tables entry hentry)
  obtain ⟨source, hsource, t, ht, hgained⟩ := h.grows.made hnone hu
  obtain ⟨read, hread, hmade⟩ := make_eq_ok ht
  obtain ⟨hname, hcolumns, hrows⟩ := Table.ofDeclarations_eq_ok hmade
  obtain rfl : source = entry := by
    refine layoutTables_apart hsource hentry ?_
    rw [← hname, ← hgained.sameName]
    exact sameLetters_of_table? hu
  obtain ⟨added, hgrown, -⟩ := hgained.columns
  refine ⟨u, hu, by rw [hgrown.rows, hrows, List.map_nil], fun c hc hquote => hgrown.has ?_⟩
  obtain ⟨column, hcolumn, hmem⟩ := Name.exists_of_unquoteAll hread c hc
  rw [Name.eq_of_unquote? hquote hcolumn] at hmem
  rw [Table.has_iff, hcolumns, List.map_map]
  exact List.mem_map_of_mem (f := fun c : String × Declaration => Text.fold c.1) hmem

end Database

end Gazetteer
