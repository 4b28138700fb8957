import Mathlib
import Gazetteer.Proofs.Migration.Backfill
/-!
A database that was brought to the layout stays as it is when it is brought there again: each step
finds what it would add, or is refused as it was before.
-/

namespace Gazetteer

open Layout

namespace Database

variable {db changed later : Database} {name : String} {t u : Table} {schema : Schema}

/-! Indexes by name -/

theorem hasIndex_iff : db.hasIndex name = true ↔
    ∃ t ∈ db.tables, ∃ i ∈ t.indexes, Text.sameLetters i.name name = true := by
  simp only [hasIndex, indexNames, List.any_flatMap, List.any_map, List.any_eq_true,
    Function.comp_apply]

theorem hasIndex_put {index : String} (ht : db.table? name = some t) (hname : u.name = t.name)
    (hindexes : ∀ i ∈ t.indexes, i ∈ u.indexes) (h : db.hasIndex index = true) :
    (db.put u).hasIndex index = true := by
  obtain ⟨before, after, htables, hput⟩ := put_tables ht hname
  rw [hasIndex_iff, htables] at h
  rw [hasIndex_iff, hput]
  obtain ⟨found, hfound, i, hi, hsame⟩ := h
  rcases List.mem_append.mp hfound with hfound | hfound
  · exact ⟨found, List.mem_append_left _ hfound, i, hi, hsame⟩
  · rcases List.mem_cons.mp hfound with rfl | hfound
    · exact ⟨u, List.mem_append_right _ List.mem_cons_self, i, hindexes i hi, hsame⟩
    · exact ⟨found, List.mem_append_right _ (List.mem_cons_of_mem _ hfound), i, hi, hsame⟩

theorem dropIndex_eq_self (h : db.hasIndex name = false) : db.dropIndex name = db := by
  have hkept : ∀ t ∈ db.tables,
      { t with indexes := t.indexes.filter fun i => !Text.sameLetters i.name name } = t := by
    intro t ht
    have hindexes : t.indexes.filter (fun i => !Text.sameLetters i.name name) = t.indexes := by
      rw [List.filter_eq_self]
      intro i hi
      rw [Bool.not_eq_true', Bool.eq_false_iff]
      intro hsame
      rw [hasIndex_iff.mpr ⟨t, ht, i, hi, hsame⟩] at h
      cases h
    rw [hindexes]
  exact congrArg Database.mk ((List.map_congr_left hkept).trans (List.map_id _))

theorem hasIndex_dropIndex (db : Database) (name index : String) :
    (db.dropIndex name).hasIndex index = true ↔
      ∃ t ∈ db.tables, ∃ i ∈ t.indexes, Text.sameLetters i.name name = false ∧
        Text.sameLetters i.name index = true := by
  simp only [hasIndex_iff, dropIndex, List.mem_map, exists_exists_and_eq_and, List.mem_filter,
    Bool.not_eq_true', and_assoc]

/-! What stays -/

/-- What a step leaves to later ones: tables with their columns, indexes of the layout, and their
names where no table has them. -/
structure Retains (db changed : Database) : Prop where
  tables : ∀ {name t}, db.table? name = some t →
    ∃ u, changed.table? name = some u ∧ ∀ c ∈ t.columns, c ∈ u.columns
  free : ∀ entry ∈ layoutIndexes, db.table? entry.2.name = none →
    changed.table? entry.2.name = none
  indexes : ∀ entry ∈ layoutIndexes, db.hasIndex entry.2.name = true →
    changed.hasIndex entry.2.name = true

namespace Retains

theorem refl (db : Database) : Retains db db :=
  ⟨fun ht => ⟨_, ht, fun _ => id⟩, fun _ _ => id, fun _ _ => id⟩

theorem trans (h : Retains db changed) (h' : Retains changed later) : Retains db later where
  tables ht := by
    obtain ⟨u, hu, hcolumns⟩ := h.tables ht
    obtain ⟨v, hv, hcolumns'⟩ := h'.tables hu
    exact ⟨v, hv, fun c hc => hcolumns' c (hcolumns c hc)⟩
  free entry hentry hnone := h'.free entry hentry (h.free entry hentry hnone)
  indexes entry hentry hindex := h'.indexes entry hentry (h.indexes entry hentry hindex)

theorem isSome (h : Retains db changed) (ht : (db.table? name).isSome = true) :
    (changed.table? name).isSome = true := by
  obtain ⟨t, ht⟩ := Option.isSome_iff_exists.mp ht
  obtain ⟨u, hu, -⟩ := h.tables ht
  rw [hu]
  rfl

/-- No table of the layout has the name of an index. -/
private theorem layoutTables_free {table : String × List (String × Declaration)}
    (htable : table ∈ layoutTables schema) {entry : String × Index} (hentry : entry ∈ layoutIndexes) :
    Text.sameLetters table.1 entry.2.name = false := by
  have hnames : ∀ name ∈ [resources, attributes, distributions, searchTexts, thumbnails,
      staticMaps], ∀ entry ∈ layoutIndexes, Text.sameLetters name entry.2.name = false := by
    decide
  exact hnames table.1 (List.mem_map_of_mem (f := Prod.fst) htable) entry hentry

theorem of_grows (h : Grows schema db changed)
    (hindexes : ∀ entry ∈ layoutIndexes, db.hasIndex entry.2.name = true →
      changed.hasIndex entry.2.name = true) : Retains db changed where
  tables ht := by
    obtain ⟨u, hu, hgained⟩ := h.kept ht
    obtain ⟨added, hgrown, -⟩ := hgained.columns
    refine ⟨u, hu, fun c hc => ?_⟩
    rw [hgrown.columns]
    exact List.mem_append_left _ hc
  free entry hentry hnone := by
    rw [Option.eq_none_iff_forall_ne_some]
    intro u hu
    obtain ⟨table, htable, made, hmade, hgained⟩ := h.made hnone hu
    obtain ⟨read, -, hmade⟩ := make_eq_ok hmade
    have hname := sameLetters_of_table? hu
    rw [hgained.sameName, (Table.ofDeclarations_eq_ok hmade).1,
      layoutTables_free htable hentry] at hname
    cases hname
  indexes := hindexes

theorem put (ht : db.table? name = some t) (hname : u.name = t.name)
    (hcolumns : ∀ c ∈ t.columns, c ∈ u.columns) (hindexes : ∀ i ∈ t.indexes, i ∈ u.indexes) :
    Retains db (db.put u) where
  tables {other found} hfound := by
    rw [table?_put, hfound, hname]
    cases hother : Text.sameLetters t.name other with
    | false => exact ⟨found, rfl, fun _ => id⟩
    | true =>
        have hsame : db.table? other = db.table? name := table?_congr <| by
          rw [Text.sameLetters_comm] at hother
          exact sameLetters_trans hother (sameLetters_of_table? ht)
        rw [hfound, ht, Option.some.injEq] at hsame
        subst hsame
        exact ⟨u, rfl, hcolumns⟩
  free entry _ hnone := by
    rw [table?_put, hnone, Option.map_none, ite_self]
  indexes _ _ hindex := hasIndex_put ht hname hindexes hindex

theorem ensureTable {table : String × List (String × Declaration)}
    (htable : table ∈ layoutTables schema)
    (h : db.ensureTable table.1 (make table.1 table.2) = .ok changed) : Retains db changed := by
  refine of_grows (Grows.ensureTable htable h) fun entry _ hindex => ?_
  rcases ensureTable_eq_ok h with ⟨-, rfl⟩ | ⟨-, t, -, rfl⟩
  · exact hindex
  · rw [hasIndex_iff] at hindex ⊢
    obtain ⟨found, hfound, hindex⟩ := hindex
    exact ⟨found, List.mem_append_left _ hfound, hindex⟩

theorem ensureIndex {i : Index} (h : db.ensureIndex name i = .ok changed) :
    Retains db changed := by
  rcases ensureIndex_eq_ok h with rfl | ⟨t, u, ht, hu, rfl⟩
  · exact refl _
  · obtain ⟨-, -, rfl⟩ := Table.addIndex_eq_ok.mp hu
    exact put ht rfl (fun _ => id) fun _ hi => List.mem_append_left _ hi

theorem tryIndex (db : Database) (name : String) (i : Index) :
    Retains db (db.tryIndex name i) := by
  rw [Database.tryIndex]
  split
  next changed h => exact ensureIndex h
  next => exact refl db

theorem dropIndex (db : Database) : Retains db (db.dropIndex unlabeledIndexName) where
  tables {name t} ht := by
    rw [table?_dropIndex, ht]
    exact ⟨_, rfl, fun _ => id⟩
  free entry _ hnone := by
    rw [table?_dropIndex, hnone]
    rfl
  indexes entry hentry hindex := by
    have hother : ∀ entry ∈ layoutIndexes,
        Text.sameLetters entry.2.name unlabeledIndexName = false := by
      decide
    obtain ⟨t, ht, i, hi, hsame⟩ := hasIndex_iff.mp hindex
    exact (hasIndex_dropIndex db _ _).mpr
      ⟨t, ht, i, hi, sameLetters_eq_false hsame (hother entry hentry), hsame⟩

end Retains

/-! The steps that cannot be left out -/

/-- Whether a step leaves as they are all databases that kept what it once left. -/
def Settles (step : Database → Except Fault Database) : Prop :=
  ∀ db changed, step db = .ok changed →
    Retains db changed ∧ ∀ later, Retains changed later → step later = .ok later

/-- An index that a database has, under a name that is not a table's. -/
structure Indexed (db : Database) (name : String) (i : Index) : Prop where
  table : (db.table? name).isSome = true
  free : db.table? i.name = none
  has : db.hasIndex i.name = true

theorem indexed_of_ensureIndex {i : Index} (h : db.ensureIndex name i = .ok changed) :
    changed.Indexed name i := by
  rw [ensureIndex, Database.table] at h
  cases ht : db.table? name with
  | none =>
      rw [ht] at h
      cases h
  | some t =>
      simp only [ht] at h
      split at h
      · cases h
      next hfree =>
        rw [Bool.not_eq_true, Option.isSome_eq_false_iff, Option.isNone_iff_eq_none] at hfree
        split at h
        next hindex =>
          cases h
          exact ⟨by rw [ht]; rfl, hfree, hindex⟩
        next =>
          obtain ⟨u, hu, rfl⟩ := map_eq_ok.mp h
          obtain ⟨-, -, rfl⟩ := Table.addIndex_eq_ok.mp hu
          have hname : { t with indexes := t.indexes ++ [i] : Table }.name = t.name := rfl
          obtain ⟨before, after, -, hput⟩ := put_tables ht hname
          refine ⟨?_, ?_, hasIndex_iff.mpr ?_⟩
          · rw [table?_put_self ht hname]
            rfl
          · rw [table?_put, hfree, Option.map_none, ite_self]
          · rw [hput]
            exact ⟨_, List.mem_append_right _ List.mem_cons_self, i,
              List.mem_append_right _ List.mem_cons_self, Text.sameLetters_refl i.name⟩

theorem Indexed.ensureIndex {i : Index} (h : db.Indexed name i) :
    db.ensureIndex name i = .ok db := by
  obtain ⟨t, ht⟩ := Option.isSome_iff_exists.mp h.table
  simp only [Database.ensureIndex, Database.table, ht, h.free, h.has]
  rfl

theorem Indexed.retained {entry : String × Index} (hentry : entry ∈ layoutIndexes)
    (h : db.Indexed entry.1 entry.2) (hretains : Retains db later) :
    later.Indexed entry.1 entry.2 :=
  ⟨hretains.isSome h.table, hretains.free entry hentry h.free, hretains.indexes entry hentry h.has⟩

private theorem settles_ensureTable {table : String × List (String × Declaration)}
    (htable : table ∈ layoutTables schema) :
    Settles (·.ensureTable table.1 (make table.1 table.2)) := by
  intro db changed h
  refine ⟨.ensureTable htable h, fun later hlater => ?_⟩
  obtain ⟨t, ht⟩ := Option.isSome_iff_exists.mp (hlater.isSome (table?_of_ensureTable h))
  simp only [ensureTable, ht]

private theorem settles_ensureIndex {entry : String × Index} (hentry : entry ∈ layoutIndexes) :
    Settles (·.ensureIndex entry.1 entry.2) := by
  intro db changed h
  refine ⟨.ensureIndex h, fun later hlater => ?_⟩
  exact ((indexed_of_ensureIndex h).retained hentry hlater).ensureIndex

theorem settles_baseStep : ∀ step ∈ baseSteps schema, Settles step := by
  refine forall_baseSteps (fun db changed h => ?_) (fun table htable => settles_ensureTable htable)
    fun entry hentry => settles_ensureIndex hentry
  obtain ⟨read, hread, rfl⟩ := map_eq_ok.mp h
  exact ⟨.refl db, fun later _ => map_eq_ok.mpr ⟨read, hread, rfl⟩⟩

theorem settles_afterAll {steps : List (Database → Except Fault Database)}
    (hsteps : ∀ step ∈ steps, Settles step) : Settles (·.afterAll steps) := by
  induction steps with
  | nil =>
      intro db changed h
      cases h
      exact ⟨.refl db, fun later _ => rfl⟩
  | cons first rest ih =>
      obtain ⟨hfirst, hrest⟩ := List.forall_mem_cons.mp hsteps
      intro db changed h
      simp only [afterAll] at h
      split at h
      · cases h
      next after hafter =>
        obtain ⟨hretains, hagain⟩ := hfirst db after hafter
        obtain ⟨hretains', hagain'⟩ := ih hrest after changed h
        refine ⟨hretains.trans hretains', fun later hlater => ?_⟩
        simp only [afterAll, hagain later (hretains'.trans hlater)]
        exact hagain' later hlater

/-! Columns -/

/-- A table has a column of a name up to letter case, or it would have it twice under the name that
is read. -/
def Asked (db : Database) (name column : String) : Prop :=
  ∃ t, db.table? name = some t ∧
    ((∃ c ∈ t.columns, Text.lowercase c.name = Text.lowercase column) ∨
      ∀ read, Name.unquote? column = some read → t.has read = true)

def withColumn (db : Database) (entry : String × String × Declaration) : Database :=
  match db.addColumn entry.1 entry.2.1 (some entry.2.2) with
  | .ok (changed, _) => changed
  | .error _ => db

structure Addable (d : Declaration) : Prop where
  plain : d.primaryKey = false ∧ d.unique = false
  fallback : d.required = true → d.fallback.isNull = false

theorem addable_laterColumns : ∀ entry ∈ laterColumns schema, Addable entry.2.2 := by
  have hplain (affinity : Affinity) : Addable (plain affinity) :=
    ⟨⟨rfl, rfl⟩, fun h => absurd h Bool.false_ne_true⟩
  refine List.forall_mem_append.mpr ⟨List.forall_mem_append.mpr ⟨?_, ?_⟩, ?_⟩
  · exact List.forall_mem_map.mpr fun column _ => hplain .text
  · exact List.forall_mem_map.mpr fun column _ => hplain .real
  · simp only [List.forall_mem_cons, List.not_mem_nil, false_imp_iff, implies_true, and_true]
    exact ⟨hplain .text, ⟨⟨rfl, rfl⟩, fun _ => rfl⟩, hplain .text, hplain .text⟩

theorem laterColumns_tables : ∀ entry ∈ laterColumns schema,
    entry.1 ∈ (layoutTables schema).map Prod.fst := by
  refine List.forall_mem_append.mpr ⟨List.forall_mem_append.mpr ⟨?_, ?_⟩, ?_⟩
  · exact List.forall_mem_map.mpr fun column _ => List.mem_cons_self
  · exact List.forall_mem_map.mpr fun column _ => List.mem_cons_self
  · simp [layoutTables]

variable {entry : String × String × Declaration}

theorem withColumn_eq (hdeclaration : Addable entry.2.2) (ht : db.table? entry.1 = some t) :
    db.withColumn entry =
      if t.columns.any fun c => Text.lowercase c.name == Text.lowercase entry.2.1 then db
      else
        match Name.unquote? entry.2.1 with
        | none => db
        | some read => if t.has read then db else db.put (t.extend [entry.2.2.column read]) := by
  have hdeclared (read : String) :
      t.addDeclared read entry.2.2 = t.addColumn (entry.2.2.column read) := by
    rw [Table.addDeclared, hdeclaration.plain.1, hdeclaration.plain.2]
    rfl
  simp only [withColumn, addColumn, ht, hdeclared]
  cases t.columns.any fun c => Text.lowercase c.name == Text.lowercase entry.2.1 with
  | true => rfl
  | false =>
      cases Name.unquote? entry.2.1 with
      | none => rfl
      | some read =>
          cases hhas : t.has read with
          | true =>
              have hrefused : t.addColumn (entry.2.2.column read) =
                  .error (.repeatedColumn read) := if_pos hhas
              simp only [hrefused, hhas]
              rfl
          | false =>
              have hadd : t.addColumn (entry.2.2.column read) =
                  .ok (t.extend [entry.2.2.column read]) := by
                refine Table.addColumn_eq_ok.mpr ⟨hhas, fun hrequired hnull => ?_, rfl⟩
                exact absurd ((hdeclaration.fallback hrequired).symm.trans hnull) Bool.false_ne_true
              simp only [hadd, hhas]
              rfl

theorem asked_withColumn (hdeclaration : Addable entry.2.2)
    (ht : (db.table? entry.1).isSome = true) : (db.withColumn entry).Asked entry.1 entry.2.1 := by
  obtain ⟨t, ht⟩ := Option.isSome_iff_exists.mp ht
  rw [withColumn_eq hdeclaration ht]
  split
  next hany =>
    obtain ⟨c, hc, hname⟩ := List.any_eq_true.mp hany
    exact ⟨t, ht, Or.inl ⟨c, hc, beq_iff_eq.mp hname⟩⟩
  next =>
    cases hread : Name.unquote? entry.2.1 with
    | none => exact ⟨t, ht, Or.inr fun read h => by cases hread.symm.trans h⟩
    | some read =>
        have hsame {other : String} (h : Name.unquote? entry.2.1 = some other) : other = read :=
          Option.some_inj.mp (h.symm.trans hread)
        dsimp only
        split
        next hhas => exact ⟨t, ht, Or.inr fun other h => hsame h ▸ hhas⟩
        next =>
          refine ⟨_, table?_put_self ht rfl, Or.inr fun other h => ?_⟩
          rw [hsame h, Table.has_iff, Table.extend, List.map_append]
          exact List.mem_append_right _ List.mem_cons_self

theorem Asked.retained {column : String} (h : db.Asked name column) (hretains : Retains db later) :
    later.Asked name column := by
  obtain ⟨t, ht, h⟩ := h
  obtain ⟨u, hu, hcolumns⟩ := hretains.tables ht
  refine ⟨u, hu, h.imp (fun ⟨c, hc, hname⟩ => ⟨c, hcolumns c hc, hname⟩) fun h read hread => ?_⟩
  have hhas := h read hread
  rw [Table.has_iff] at hhas ⊢
  exact List.map_subset _ hcolumns hhas

theorem Asked.withColumn (h : db.Asked entry.1 entry.2.1) (hdeclaration : Addable entry.2.2) :
    db.withColumn entry = db := by
  obtain ⟨t, ht, h⟩ := h
  rw [withColumn_eq hdeclaration ht]
  split
  · rfl
  next hany =>
    rcases h with ⟨c, hc, hname⟩ | h
    · refine absurd (List.any_eq_true.mpr ⟨c, hc, ?_⟩) hany
      exact beq_iff_eq.mpr hname
    · cases hread : Name.unquote? entry.2.1 with
      | none => rfl
      | some read => exact if_pos (h read hread)

/-- A column that was asked for is there under its name, if that is read as it is. -/
theorem Asked.offers {column : String} (h : db.Asked name column)
    (hread : Name.unquote? column = some column) : db.Offers name column := by
  obtain ⟨t, ht, ⟨c, hc, hname⟩ | h⟩ := h
  · exact ⟨t, ht, c, hc, hname⟩
  · obtain ⟨c, hc, hname⟩ := List.mem_map.mp (Table.has_iff.mp (h column hread))
    exact ⟨t, ht, c, hc, Text.lowercase_eq_of_sameLetters (beq_iff_eq.mpr hname)⟩

theorem Retains.withColumn (db : Database) (hdeclaration : Addable entry.2.2) :
    Retains db (db.withColumn entry) := by
  cases ht : db.table? entry.1 with
  | none =>
      simp only [Database.withColumn, addColumn, ht]
      exact refl db
  | some t =>
      rw [withColumn_eq hdeclaration ht]
      split
      · exact refl db
      · cases Name.unquote? entry.2.1 with
        | none => exact refl db
        | some read =>
            dsimp only
            split
            · exact refl db
            · exact put ht rfl (fun _ hc => List.mem_append_left _ hc) fun _ => id

theorem addLaterColumns_eq_foldl (db : Database) :
    db.addLaterColumns schema = (laterColumns schema).foldl withColumn db :=
  rfl

private theorem withColumn_taken (schema : Schema) (db : Database) :
    Retains db (db.addLaterColumns schema) ∧ ∀ entry ∈ laterColumns schema, ∃ before,
      Retains db before ∧ Retains (before.withColumn entry) (db.addLaterColumns schema) := by
  rw [addLaterColumns_eq_foldl]
  exact foldl_taken Retains.refl Retains.trans
    (fun db entry hentry => Retains.withColumn db (addable_laterColumns entry hentry)) db

theorem addLaterColumns_asks (htables : ∀ entry ∈ laterColumns schema,
    (db.table? entry.1).isSome = true) :
    ∀ entry ∈ laterColumns schema, (db.addLaterColumns schema).Asked entry.1 entry.2.1 := by
  intro entry hentry
  obtain ⟨before, hbefore, hafter⟩ := (withColumn_taken schema db).2 entry hentry
  have hasked := asked_withColumn (addable_laterColumns entry hentry)
    (hbefore.isSome (htables entry hentry))
  exact hasked.retained hafter

theorem addLaterColumns_eq_self (h : ∀ entry ∈ laterColumns schema, db.Asked entry.1 entry.2.1) :
    db.addLaterColumns schema = db := by
  have hsteps : ∀ entry ∈ laterColumns schema, db.withColumn entry = db :=
    fun entry hentry => (h entry hentry).withColumn (addable_laterColumns entry hentry)
  rw [addLaterColumns_eq_foldl]
  generalize laterColumns schema = entries at hsteps
  induction entries with
  | nil => rfl
  | cons entry rest ih =>
      obtain ⟨hentry, hrest⟩ := List.forall_mem_cons.mp hsteps
      rw [List.foldl_cons, hentry]
      exact ih hrest

/-! The steps that may be left out -/

/-- A table does not get an index whose name is taken or that its rows do not allow. -/
def Refuses (db : Database) (name : String) (i : Index) : Prop :=
  ∃ t, db.table? name = some t ∧
    ((db.table? i.name).isSome = true ∨ ∃ fault, t.addIndex i = .error fault)

theorem refuses_of_ensureIndex {i : Index} {fault : Fault} (ht : db.table? name = some t)
    (h : db.ensureIndex name i = .error fault) : db.Refuses name i := by
  refine ⟨t, ht, ?_⟩
  simp only [ensureIndex, Database.table, ht] at h
  split at h
  next htaken => exact Or.inl htaken
  next =>
    split at h
    · cases h
    · cases hadd : t.addIndex i with
      | ok u =>
          rw [hadd] at h
          cases h
      | error fault => exact Or.inr ⟨fault, rfl⟩

theorem Refuses.tryIndex {i : Index} (h : db.Refuses name i) : db.tryIndex name i = db := by
  obtain ⟨t, ht, h⟩ := h
  simp only [Database.tryIndex, ensureIndex, Database.table, ht]
  rcases h with htaken | ⟨fault, hadd⟩
  · rw [htaken]
    rfl
  · rw [hadd]
    cases (db.table? i.name).isSome <;> cases db.hasIndex i.name <;> rfl

/-- An index that could not be added is refused again where its table is as it was. -/
theorem tryIndex_eq_self {i : Index} (hentry : (name, i) ∈ layoutIndexes)
    (hretains : Retains (db.tryIndex name i) later) (ht : (db.table? name).isSome = true)
    (hrefused : ∀ t fault, (db.tryIndex name i).table? name = some t →
      t.addIndex i = .error fault →
        ∃ u fault, later.table? name = some u ∧ u.addIndex i = .error fault) :
    later.tryIndex name i = later := by
  cases hensure : db.ensureIndex name i with
  | ok changed =>
      rw [tryIndex, hensure] at hretains
      have hindexed : later.Indexed name i :=
        (indexed_of_ensureIndex hensure).retained hentry hretains
      rw [tryIndex, hindexed.ensureIndex]
  | error fault =>
      have hself : db.tryIndex name i = db := by
        rw [tryIndex, hensure]
      rw [hself] at hretains hrefused
      obtain ⟨t, ht⟩ := Option.isSome_iff_exists.mp ht
      apply Refuses.tryIndex
      obtain ⟨found, hfound, htaken | ⟨fault, hadd⟩⟩ := refuses_of_ensureIndex ht hensure
      · obtain ⟨u, hu, -⟩ := hretains.tables ht
        exact ⟨u, hu, Or.inl (hretains.isSome htaken)⟩
      · obtain ⟨u, fault, hu, hadd⟩ := hrefused found fault hfound hadd
        exact ⟨u, hu, Or.inr ⟨fault, hadd⟩⟩

theorem hasIndex_of_tryIndex {i : Index} {index : String}
    (h : (db.tryIndex name i).hasIndex index = true) :
    db.hasIndex index = true ∨ Text.sameLetters i.name index = true := by
  rw [tryIndex] at h
  split at h
  next changed hchanged =>
    rcases ensureIndex_eq_ok hchanged with rfl | ⟨t, u, ht, hu, rfl⟩
    · exact Or.inl h
    · obtain ⟨-, -, rfl⟩ := Table.addIndex_eq_ok.mp hu
      obtain ⟨found, hfound, j, hj, hsame⟩ := hasIndex_iff.mp h
      rcases mem_put hfound with rfl | hfound
      · rcases List.mem_append.mp hj with hj | hj
        · exact Or.inl (hasIndex_iff.mpr ⟨t, mem_of_table? ht, j, hj, hsame⟩)
        · rw [List.mem_singleton.mp hj] at hsame
          exact Or.inr hsame
      · exact Or.inl (hasIndex_iff.mpr ⟨found, hfound, j, hj, hsame⟩)
  next => exact Or.inl h

private theorem geometry_mem_laterColumns {column : String} (h : column ∈ geometryColumns) :
    (resources, column, plain .real) ∈ laterColumns schema :=
  List.mem_append_left _ (List.mem_append_right _ (List.mem_map_of_mem h))

private theorem addIndex_geometry (hcolumns : ∀ column ∈ geometryColumns, db.Asked resources column)
    (ht : db.table? resources = some t) {fault : Fault} :
    t.addIndex geometryIndex ≠ .error fault := by
  have hparts : ∀ p ∈ geometryIndex.parts, p.columnName ∈ geometryColumns := by
    decide
  have hadd : t.addIndex geometryIndex =
      .ok { t with indexes := t.indexes ++ [geometryIndex] } := by
    refine Table.addIndex_eq_ok.mpr ⟨fun p hp => ?_, fun h => absurd h Bool.false_ne_true, rfl⟩
    have hcolumn := hparts p hp
    obtain ⟨u, hu, c, hc, hname⟩ :=
      (hcolumns _ hcolumn).offers (unquote?_geometry _ hcolumn)
    rw [ht, Option.some.injEq] at hu
    subst hu
    refine Table.has_iff.mpr (List.mem_map.mpr ⟨c, hc, ?_⟩)
    rw [fold_eq_of_geometry hcolumn hname, Row.fold_geometryColumns _ hcolumn]
  rw [hadd]
  exact fun h => by cases h

theorem Retains.addLater (schema : Schema) (db : Database) : Retains db (db.addLater schema) := by
  rw [Database.addLater]
  exact (((withColumn_taken schema db).1.trans (tryIndex _ _ _)).trans (dropIndex _)).trans
    (tryIndex _ _ _)

variable {base ready : Database}

/-- What may be left out is left as it is in a database that kept it. -/
theorem addLater_eq_self
    (htables : ∀ table ∈ layoutTables schema, (base.table? table.1).isSome = true)
    (hretains : Retains (base.addLater schema) ready)
    (hindex : ready.hasIndex unlabeledIndexName = true →
      (base.addLater schema).hasIndex unlabeledIndexName = true)
    (hdistributions : ready.table? distributions = (base.addLater schema).table? distributions) :
    ready.addLater schema = ready ∧
      ∀ entry ∈ laterColumns schema, ready.Asked entry.1 entry.2.1 := by
  have hlater : ∀ entry ∈ laterColumns schema, (base.table? entry.1).isSome = true := by
    intro entry hentry
    obtain ⟨table, htable, hname⟩ := List.mem_map.mp (laterColumns_tables entry hentry)
    exact hname ▸ htables table htable
  have hasked := addLaterColumns_asks hlater
  have hcolumns := (withColumn_taken schema base).1
  have hresources : (base.table? resources).isSome = true :=
    htables (resources, resourceColumns schema) List.mem_cons_self
  have hdistributed : (base.table? distributions).isSome = true :=
    htables (distributions, distributionColumns) (by simp [layoutTables])
  -- the databases between the steps, each of which keeps what the one before left
  rw [addLater] at hretains hindex hdistributions
  rw [addLater]
  generalize base.addLaterColumns schema = columned at *
  have hindexed := Retains.tryIndex columned resources geometryIndex
  generalize hgeometry : columned.tryIndex resources geometryIndex = indexed at *
  have hdropped := Retains.dropIndex indexed
  have hnone : (indexed.dropIndex unlabeledIndexName).hasIndex unlabeledIndexName = false := by
    rw [Bool.eq_false_iff]
    intro h
    obtain ⟨t, -, i, -, hnot, hsame⟩ := (hasIndex_dropIndex _ _ _).mp h
    rw [hsame] at hnot
    cases hnot
  generalize indexed.dropIndex unlabeledIndexName = dropped at *
  have hlabeled := Retains.tryIndex dropped distributions labeledIndex
  have hkept : Retains indexed ready := (hdropped.trans hlabeled).trans hretains
  have hready : ∀ entry ∈ laterColumns schema, ready.Asked entry.1 entry.2.1 :=
    fun entry hentry => (hasked entry hentry).retained (hindexed.trans hkept)
  have hgeometry' : ready.tryIndex resources geometryIndex = ready := by
    have hentry : (resources, geometryIndex) ∈ layoutIndexes := by
      simp [layoutIndexes]
    subst hgeometry
    refine tryIndex_eq_self hentry hkept (hcolumns.isSome hresources) fun t fault ht hadd => ?_
    refine absurd hadd (addIndex_geometry (fun column hcolumn => ?_) ht)
    exact (hasked _ (geometry_mem_laterColumns hcolumn)).retained hindexed
  have hdrop : ready.dropIndex unlabeledIndexName = ready := by
    refine dropIndex_eq_self (Bool.eq_false_iff.mpr fun h => ?_)
    rcases hasIndex_of_tryIndex (hindex h) with h | h
    · rw [hnone] at h
      cases h
    · revert h
      decide
  have hlabeled' : ready.tryIndex distributions labeledIndex = ready := by
    have hentry : (distributions, labeledIndex) ∈ layoutIndexes := by
      simp [layoutIndexes]
    have htable := ((hcolumns.trans hindexed).trans hdropped).isSome hdistributed
    exact tryIndex_eq_self hentry hretains htable fun t fault ht hadd =>
      ⟨t, fault, hdistributions.trans ht, hadd⟩
  rw [addLaterColumns_eq_self hready, hgeometry', hdrop, hlabeled']
  exact ⟨rfl, hready⟩

end Database

end Gazetteer
