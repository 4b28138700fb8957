import Mathlib
import Gazetteer.Proofs.Schema
/-!
The layout of a catalog is what a database without tables is brought to, and a database that has
it already stays as it is.
-/

namespace Gazetteer

open Layout

namespace Contents

def none : Contents :=
  fun _ => []

/-! Steps that find what they would add -/

private theorem ensureTable_database (c : Contents) (p : Part) (make : Except Fault Table) :
    c.database.ensureTable p.name make = .ok c.database := by
  rw [Database.ensureTable, table?_database]

private theorem table?_eq_none (c : Contents) {name : String}
    (h : ∀ p : Part, Text.sameLetters p.name name = false) : c.database.table? name = Option.none := by
  rw [Database.table?, List.find?_eq_none]
  intro t ht
  obtain ⟨p, -, rfl⟩ := List.mem_map.mp ht
  rw [Bool.not_eq_true]
  exact h p

private theorem indexNames_database (c : Contents) :
    c.database.indexNames = Part.all.flatMap fun p => p.indexes.map Index.name := by
  rw [Database.indexNames, database, List.flatMap_map]
  rfl

private theorem ensureIndex_database (c : Contents) (p : Part) {i : Index}
    (hname : ∀ q : Part, Text.sameLetters q.name i.name = false)
    (hhas : (Part.all.flatMap fun q => q.indexes.map Index.name).any
      (Text.sameLetters · i.name) = true) :
    c.database.ensureIndex p.name i = .ok c.database := by
  have hindex : c.database.hasIndex i.name = true := by
    rw [Database.hasIndex, indexNames_database]
    exact hhas
  simp only [Database.ensureIndex, table_database, table?_eq_none c hname, hindex]
  rfl

private theorem dropIndex_database (c : Contents) {name : String}
    (h : ∀ p : Part, p.indexes.filter (fun i => !Text.sameLetters i.name name) = p.indexes) :
    c.database.dropIndex name = c.database := by
  rw [Database.dropIndex, database, List.map_map]
  refine congrArg Database.mk (List.map_congr_left fun p _ => ?_)
  simp only [Function.comp_apply, Part.table, h]

private theorem addColumn_database (c : Contents) (p : Part) {column : String}
    (h : column ∈ p.columns.map Prod.fst) (d : Declaration) :
    c.database.addColumn p.name column (some d) = .ok (c.database, false) := by
  obtain ⟨entry, hentry, rfl⟩ := List.mem_map.mp h
  have hcolumns : ((p.table (c p)).columns.any fun c =>
      Text.lowercase c.name == Text.lowercase entry.1) = true :=
    List.any_eq_true.mpr ⟨entry.2.column entry.1, List.mem_map_of_mem hentry, beq_self_eq_true _⟩
  simp only [Database.addColumn, table?_database, hcolumns, if_true]

/-! The present layout -/

private theorem laterColumns_present : ∀ entry ∈ laterColumns .aardvark,
    ∃ p : Part, p.name = entry.1 ∧ entry.2.1 ∈ p.columns.map Prod.fst := by
  simp only [laterColumns, List.forall_mem_append, List.forall_mem_map, List.forall_mem_cons]
  refine ⟨⟨fun column hcolumn => ⟨.resources, rfl, ?_⟩, fun column hcolumn =>
    ⟨.resources, rfl, ?_⟩⟩, ⟨.distributions, rfl, ?_⟩, ⟨.distributions, rfl, ?_⟩,
    ⟨.thumbnails, rfl, ?_⟩, ⟨.staticMaps, rfl, ?_⟩, List.forall_mem_nil _⟩
  · simp [Part.columns, resourceColumns, hcolumn]
  · simp [Part.columns, resourceColumns, hcolumn]
  all_goals simp [Part.columns, distributionColumns]

private theorem addLaterColumns_database (c : Contents) :
    c.database.addLaterColumns .aardvark = c.database := by
  rw [Database.addLaterColumns]
  have hall : ∀ entry ∈ laterColumns .aardvark,
      c.database.addColumn entry.1 entry.2.1 (some entry.2.2) = .ok (c.database, false) := by
    intro entry hentry
    obtain ⟨p, hname, hcolumn⟩ := laterColumns_present entry hentry
    rw [← hname]
    exact addColumn_database c p hcolumn entry.2.2
  generalize laterColumns .aardvark = entries at hall
  induction entries with
  | nil => rfl
  | cons entry rest ih =>
      rw [List.foldl_cons]
      simp only [hall entry List.mem_cons_self]
      exact ih fun other hother => hall other (List.mem_cons_of_mem _ hother)

private theorem tryIndex_database (c : Contents) (p : Part) {i : Index}
    (hname : ∀ q : Part, Text.sameLetters q.name i.name = false)
    (hhas : (Part.all.flatMap fun q => q.indexes.map Index.name).any
      (Text.sameLetters · i.name) = true) : c.database.tryIndex p.name i = c.database := by
  rw [Database.tryIndex, ensureIndex_database c p hname hhas]

private theorem names_distinct (i : Index) (h : ∀ p ∈ Part.all, Text.sameLetters p.name i.name = false)
    (q : Part) : Text.sameLetters q.name i.name = false :=
  h q (by cases q <;> decide)

private theorem addLater_database (c : Contents) :
    c.database.addLater .aardvark = c.database := by
  have hgeometry : c.database.tryIndex Part.resources.name geometryIndex = c.database :=
    tryIndex_database c .resources (names_distinct _ (by decide)) (by decide)
  have hlabeled : c.database.tryIndex Part.distributions.name labeledIndex = c.database :=
    tryIndex_database c .distributions (names_distinct _ (by decide)) (by decide)
  have hdrop : c.database.dropIndex unlabeledIndexName = c.database :=
    dropIndex_database c fun p => by cases p <;> decide
  rw [Database.addLater, addLaterColumns_database]
  change ((c.database.tryIndex Part.resources.name geometryIndex).dropIndex
    unlabeledIndexName).tryIndex Part.distributions.name labeledIndex = _
  rw [hgeometry, hdrop, hlabeled]

private theorem baseSteps_database (c : Contents) :
    c.database.afterAll (Database.baseSteps .aardvark) = .ok c.database := by
  have hstep : ∀ step ∈ Database.baseSteps .aardvark, step c.database = .ok c.database := by
    simp only [Database.baseSteps, List.mem_cons, List.not_mem_nil, or_false]
    rintro step (rfl | rfl | rfl | rfl | rfl | rfl | rfl | rfl | rfl | rfl)
    · simp only [Name.unquoteAll_eq_self Schema.unquote?_resourceColumns]
      rfl
    · exact ensureTable_database c .resources _
    · exact ensureTable_database c .attributes _
    · exact ensureIndex_database c .attributes (names_distinct _ (by decide))
        (by decide)
    · exact ensureIndex_database c .attributes (names_distinct _ (by decide))
        (by decide)
    · exact ensureTable_database c .distributions _
    · exact ensureIndex_database c .distributions (names_distinct _ (by decide))
        (by decide)
    · exact ensureTable_database c .searchTexts _
    · exact ensureTable_database c .thumbnails _
    · exact ensureTable_database c .staticMaps _
  generalize Database.baseSteps .aardvark = steps at hstep
  induction steps with
  | nil => rfl
  | cons step rest ih =>
      simp only [Database.afterAll, hstep step List.mem_cons_self]
      exact ih fun other hother => hstep other (List.mem_cons_of_mem _ hother)

private theorem backfill_database (c : Contents)
    (h : ∀ r ∈ c .resources, Database.awaitsEnvelope r = true →
      (r.cell boxField).envelope? = Option.none) : c.database.backfill = .ok (c.database, 0) := by
  have hgeometry : (Part.resources.column? "geom_minx").isSome = true :=
    Part.has_of_name (by simp [Part.columns, resourceColumns, geometryColumns])
  have hscalar : (boxField, plain .text) ∈ Part.resources.columns :=
    Schema.mem_columns_of_isScalar (by decide) (by decide)
  have hbox := Part.has_of_mem hscalar
  have hneed : c.database.need [(resources, "geom_minx"), (resources, boxField)] = .ok () := by
    refine need_database c (List.forall_mem_cons.mpr ⟨?_, List.forall_mem_singleton.mpr ?_⟩)
    · exact ⟨.resources, rfl, hgeometry⟩
    · exact ⟨.resources, rfl, hbox⟩
  have hrows : c.database.awaiting = .ok ((c .resources).filter Database.awaitsEnvelope) := by
    rw [Database.awaiting, hneed]
    exact congrArg Except.ok (congrArg _ (rows_database c .resources))
  have hall : ((c .resources).filter Database.awaitsEnvelope).all
      (fun r => (r.cell boxField).envelope?.isNone) = true := by
    rw [List.all_eq_true]
    intro r hr
    obtain ⟨hmem, hawaits⟩ := List.mem_filter.mp hr
    rw [h r hmem hawaits]
    rfl
  simp only [Database.backfill, hrows, ok_bind, hall, if_true]
  rfl

-- For any schema, so that no check of a step at a known schema carries the step out.
private theorem prepare_of_steps {schema : Schema} {db base filled : Database} {n : Nat}
    (hbase : db.afterAll (Database.baseSteps schema) = .ok base)
    (hfilled : (base.addLater schema).backfill = .ok (filled, n)) :
    db.prepare schema = .ok filled := by
  simp only [Database.prepare, hbase, hfilled]

/-- A database in the present layout stays as it is, if no envelope is to be filled in. -/
theorem prepare_database (c : Contents)
    (h : ∀ r ∈ c .resources, Database.awaitsEnvelope r = true →
      (r.cell boxField).envelope? = Option.none) :
    c.database.prepare .aardvark = .ok c.database := by
  have hlater := addLater_database c
  refine prepare_of_steps (baseSteps_database c) (n := 0) ?_
  rw [hlater, backfill_database c h]

theorem fresh_eq : Database.fresh .aardvark = .ok none.database := by
  decide +kernel

end Contents

end Gazetteer
