import Mathlib
import Gazetteer.Catalog.Import
import Gazetteer.Proofs.Ledger.Basic
/-!
Writes on the database of a ledger: each one fails or gives the database of the ledger that it
makes.
-/

namespace Gazetteer

open Layout

namespace Contents

variable {α : Type}

private theorem clear_database (c : Contents) {p : Part} {column : String} {d : Declaration}
    (hcolumn : (column, d) ∈ p.columns) (htext : d.affinity = .text) {row : α → Row}
    {key : α → String} (hcell : ∀ a, (row a).cell column = .text (key a)) {items : List α}
    (hrows : c p = items.map row) (id : String) (step : Step) :
    c.database.clear id step p.name column =
      .ok (c.set p ((items.filter fun a => key a != id).map row)).database := by
  have hhas := Part.has_of_mem hcolumn
  rw [Database.clear, delete_database c p hhas, hrows, without_text hcolumn htext hcell]
  rfl

/-! Constraints -/

private theorem missing?_eq_none {p : Part} {r : Row}
    (h : ∀ c ∈ p.columns, c.2.required = true → (r.cell c.1).isNull = false) (rows : List Row) :
    (p.table rows).missing? r = Option.none := by
  rw [Table.missing?, Option.map_eq_none_iff, List.find?_eq_none]
  intro column hcolumn
  obtain ⟨c, hc, rfl⟩ := List.mem_map.mp hcolumn
  rw [Bool.not_eq_true, Bool.and_eq_false_imp]
  exact h c hc

private theorem collision?_eq_none {p : Part} {rows : List Row} {r : Row}
    (h : ∀ i ∈ p.indexes, i.unique = true → ∀ other ∈ rows, i.collide r other = false)
    (stored : List Row) : (p.table stored).collision? rows r = Option.none := by
  rw [Table.collision?, List.find?_eq_none]
  intro i hi
  rw [Bool.not_eq_true, Bool.and_eq_false_imp, List.any_eq_false]
  intro hunique other hother
  rw [h i hi hunique other hother]
  exact Bool.false_ne_true

/-! Single rows -/

private theorem insertScalars_database (c : Contents) {r : Resource}
    (hr : Schema.Accepts .aardvark r) {resources : List Resource}
    (hrows : c .resources = resources.map Resource.scalarRow)
    (hnew : ∀ other ∈ resources, other.id ≠ r.id) :
    c.database.insertScalars r =
      .ok (c.set .resources ((resources ++ [r]).map Resource.scalarRow)).database := by
  have hmissing : (Part.resources.table (c .resources)).missing? r.scalarRow = Option.none := by
    refine missing?_eq_none (fun column hcolumn hrequired => absurd hrequired ?_) _
    rcases List.mem_cons.mp hcolumn with rfl | hcolumn
    · exact Bool.false_ne_true
    · rcases List.mem_append.mp hcolumn with hcolumn | hcolumn <;>
        obtain ⟨name, -, rfl⟩ := List.mem_map.mp hcolumn <;> exact Bool.false_ne_true
  have hcollision : (Part.resources.table (c .resources)).collision? (c .resources) r.scalarRow =
      Option.none := by
    refine collision?_eq_none (fun i hi hunique row hrow => ?_) _
    rw [hrows] at hrow
    obtain ⟨other, hother, rfl⟩ := List.mem_map.mp hrow
    rcases List.mem_cons.mp hi with rfl | hi
    · simpa [Part.keyIndex, Index.collide, KeyPart.cell] using (hnew other hother).symm
    · obtain rfl := List.mem_singleton.mp hi
      exact absurd hunique Bool.false_ne_true
  have hneed : ∀ name ∈ (Database.scalarCells r).map Prod.fst,
      (Part.resources.column? name).isSome = true := by
    intro name hname
    obtain ⟨value, hvalue, rfl⟩ := List.mem_map.mp hname
    exact Part.has_of_name (Resource.scalar_columns hr value hvalue)
  have hinsert := insert_database c .resources .abort hneed hmissing hcollision
  have hread : Name.unquoteAll (Database.scalarCells r) = .ok (Database.scalarCells r) := by
    refine Name.unquoteAll_eq_self fun value hvalue => ?_
    obtain ⟨column, hcolumn, hname⟩ := List.mem_map.mp (Resource.scalar_columns hr value hvalue)
    rw [← hname]
    exact Schema.unquote?_resourceColumns column hcolumn
  rw [Database.insertScalars, hread, Except.bind, Part.resources_eq_name, hinsert, hrows,
    List.map_append]
  rfl

private theorem attributes_required {entry : String × String × String} :
    ∀ c ∈ Part.attributes.columns, c.2.required = true →
      ((attributeRow entry).cell c.1).isNull = false := by
  simp [Part.columns, attributeColumns, Cell.isNull]

private theorem insertPairs_database (id : String) (pairs : List (String × String)) (c : Contents) :
    c.database.insertPairs id pairs =
      .ok (c.set .attributes
        (c .attributes ++ (pairs.map (id, ·)).map attributeRow)).database := by
  induction pairs generalizing c with
  | nil => simp [Database.insertPairs, set]
  | cons pair rest ih =>
      obtain ⟨field, value⟩ := pair
      have hneed : ∀ name ∈ [("id", Cell.text id), ("field", .text field),
          ("value", .text value)].map Prod.fst, (Part.attributes.column? name).isSome = true := by
        intro name hname
        exact Part.has_of_name hname
      have hcollision : (Part.attributes.table (c .attributes)).collision? (c .attributes)
          (attributeRow (id, field, value)) = Option.none := by
        refine collision?_eq_none (fun i hi hunique => ?_) _
        simp only [Part.indexes, List.mem_cons, List.not_mem_nil, or_false] at hi
        rcases hi with rfl | rfl <;> exact absurd hunique Bool.false_ne_true
      have hmissing : (Part.attributes.table (c .attributes)).missing?
          (attributeRow (id, field, value)) = Option.none :=
        missing?_eq_none attributes_required _
      have hinsert := insert_database c .attributes .abort hneed hmissing hcollision
      rw [Database.insertPairs, Part.attributes_eq_name, hinsert]
      simp only [ih, set_self, List.map_cons, List.append_assoc]
      rw [set, set, Function.update_idem]
      rfl

private theorem insertAttributes_database (c : Contents) (r : Resource) :
    c.database.insertAttributes r =
      .ok (c.set .attributes (c .attributes ++ r.attributes.map attributeRow)).database := by
  have hneed : (Part.attributes.table (c .attributes)).need ["id", "field", "value"] = .ok () :=
    Table.need_eq_ok fun name hname => Part.has_of_name hname
  have hcan : c.database.canInsert Part.attributes.name ["id", "field", "value"] = .ok () := by
    rw [Database.canInsert, table_database]
    simp only [hneed]
    rfl
  rw [Database.insertAttributes, Part.attributes_eq_name, hcan, insertPairs_database]
  rfl

private theorem insertSearchText_database (c : Contents) {r : Resource} {resources : List Resource}
    (hrows : c .searchTexts = resources.map Resource.searchRow)
    (hnew : ∀ other ∈ resources, other.id ≠ r.id) :
    c.database.insertSearchText .aardvark r =
      .ok (c.set .searchTexts ((resources ++ [r]).map Resource.searchRow)).database := by
  have hrequired : ∀ column ∈ Part.searchTexts.columns, column.2.required = true →
      (r.searchRow.cell column.1).isNull = false := by
    simp [Part.columns, searchTextColumns, Cell.isNull]
  have hcollision : (Part.searchTexts.table (c .searchTexts)).collision? (c .searchTexts)
      r.searchRow = Option.none := by
    refine collision?_eq_none (fun i hi _ row hrow => ?_) _
    rw [hrows] at hrow
    obtain ⟨other, hother, rfl⟩ := List.mem_map.mp hrow
    obtain rfl := List.mem_singleton.mp hi
    simpa [Part.keyIndex, Index.collide, KeyPart.cell] using (hnew other hother).symm
  have hneed : ∀ name ∈ [("id", Cell.text r.id),
      ("content", .text (Schema.searchContent .aardvark r))].map Prod.fst,
      (Part.searchTexts.column? name).isSome = true :=
    fun name hname => Part.has_of_name hname
  have hinsert := insert_database c .searchTexts .abort hneed
    (missing?_eq_none hrequired _) hcollision
  rw [Database.insertSearchText, Part.searchTexts_eq_name, hinsert, hrows, List.map_append]
  rfl

/-! Distributions -/

private theorem foldl_maximum (n : Int) (ns : List Int) :
    (ns.map Cell.int).foldl (fun best c =>
      match best with
      | Option.none => some c
      | some b => if Cell.compare .binary b c == .lt then some c else some b) (some (.int n)) =
        some (.int (ns.foldl max n)) := by
  induction ns generalizing n with
  | nil => rfl
  | cons m rest ih =>
      have hmax : (if Cell.compare .binary (.int n) (.int m) == .lt then some (Cell.int m)
          else some (Cell.int n)) = some (.int (max n m)) := by
        rw [Cell.compare_int]
        by_cases h : n < m
        · simp [Int.compare_eq_lt.mpr h, max_eq_right h.le]
        · simp [Int.compare_eq_lt, h, max_eq_left (not_lt.mp h)]
      simp only [List.map_cons, List.foldl_cons, hmax, ih]

private theorem maximum?_ints (ns : List Int) :
    Cell.maximum? (ns.map Cell.int) = ns.max?.map Cell.int := by
  cases ns with
  | nil => rfl
  | cons n rest =>
      rw [List.max?_cons', Option.map_some]
      exact foldl_maximum n rest

private theorem nextPosition_database (c : Contents) {placements : List Placement}
    (hrows : c .distributions = placements.map Placement.row) (id : String) :
    c.database.nextPosition id =
      match Placement.next? id placements with
      | some position => .ok position
      | Option.none => .error (.unexpectedType "position") := by
  have hneed : (Part.distributions.table (placements.map Placement.row)).need
      ["position", "resource_id"] = .ok () := by
    refine Table.need_eq_ok fun name hname => Part.has_of_name ?_
    simp only [List.mem_cons, List.not_mem_nil, or_false] at hname
    rcases hname with rfl | rfl <;> simp [Part.columns, distributionColumns]
  have hselect : (Part.distributions.table (placements.map Placement.row)).select "resource_id" id =
      (placements.filter fun p => p.id == id).map Placement.row :=
    select_text Part.id_distributions rfl Placement.row_id placements id
  have htaken : ((((placements.filter fun p => p.id == id).map Placement.row).map fun row =>
      row.cell "position").filter fun c => !c.isNull) =
        ((placements.filter fun p => p.id == id).map Placement.position).map Cell.int := by
    simp [List.filter_map, Function.comp_def, Cell.isNull]
  rw [Database.nextPosition, Part.distributions_eq_name, table_database, hrows]
  simp only [hneed, hselect, htaken, maximum?_ints, Placement.next?]
  cases ((placements.filter fun p => p.id == id).map Placement.position).max? with
  | none => rfl
  | some last =>
      cases hnext : (some (last + 1)).filter Cell.isWord <;>
        simp only [Option.map_some, Cell.successor?, hnext]

private theorem labeledIndex_collide (p q : Placement) :
    labeledIndex.collide p.row q.row = Placement.clashes p.id p.distribution q := by
  have hlabel (p : Placement) :
      (KeyPart.orEmpty "label").cell p.row = .text (p.distribution.label.getD "") := by
    rw [KeyPart.cell, Placement.row_label]
    cases p.distribution.label <;> rfl
  simp only [labeledIndex, Index.collide, List.all_cons, List.all_nil, Bool.and_true, hlabel]
  simp only [KeyPart.cell, Placement.row_id, Placement.row_relation, Placement.row_url,
    Cell.equals_text, Placement.clashes, Bool.and_assoc]

private theorem collision?_distributions (placements : List Placement) (p : Placement)
    (stored : List Row) :
    (Part.distributions.table stored).collision? (placements.map Placement.row) p.row =
      if placements.any (Placement.clashes p.id p.distribution) then some labeledIndex
      else Option.none := by
  have hany : (placements.map Placement.row).any (labeledIndex.collide p.row) =
      placements.any (Placement.clashes p.id p.distribution) := by
    rw [List.any_map]
    exact congrArg placements.any (funext fun q => labeledIndex_collide p q)
  rw [Table.collision?, Part.table_indexes, Part.indexes, List.find?_cons, List.find?_cons, hany]
  cases placements.any (Placement.clashes p.id p.distribution) <;> rfl

private theorem distributions_required {p : Placement} :
    ∀ c ∈ Part.distributions.columns, c.2.required = true →
      (p.row.cell c.1).isNull = false := by
  simp [Part.columns, distributionColumns, Cell.isNull, plain]

private theorem distributions_need (id : String) (d : Distribution) (position : Int) :
    ∀ name ∈ (Database.distributionCells id d position).map Prod.fst,
      (Part.distributions.column? name).isSome = true :=
  fun _ hname => Part.has_of_name hname

private theorem insertDistributions_database (id : String) (ds : List Distribution)
    {placements : List Placement} (c : Contents)
    (hrows : c .distributions = placements.map Placement.row) (position : Int) (count : Nat) :
    c.database.insertDistributions id position count ds =
      .ok ((c.set .distributions
        ((Placement.place id placements position ds).map Placement.row)).database,
        count + ((Placement.place id placements position ds).length - placements.length)) := by
  induction ds generalizing placements c position count with
  | nil => simp [Database.insertDistributions, Placement.place, set, ← hrows]
  | cons d rest ih =>
      have hcollision := collision?_distributions placements ⟨id, d, position⟩ (c .distributions)
      have hmissing : (Part.distributions.table (c .distributions)).missing?
          (Placement.row ⟨id, d, position⟩) = Option.none :=
        missing?_eq_none distributions_required _
      rw [Database.insertDistributions, Part.distributions_eq_name, Placement.place]
      cases hany : placements.any (Placement.clashes id d) with
      | true =>
          simp only [hany, if_true] at hcollision
          rw [← hrows] at hcollision
          have hignored := insert_ignored c .distributions (distributions_need id d position)
            hmissing hcollision
          rw [hignored]
          exact ih c hrows (position + 1) count
      | false =>
          simp only [hany, Bool.false_eq_true, if_false] at hcollision
          rw [← hrows] at hcollision
          have hinsert := insert_database c .distributions .ignore
            (distributions_need id d position) hmissing hcollision
          have hlater : (c.set .distributions
              (c .distributions ++ [(⟨id, d, position⟩ : Placement).row])) .distributions =
                (placements ++ [(⟨id, d, position⟩ : Placement)]).map Placement.row := by
            rw [set_self, hrows, List.map_append]
            rfl
          have hlength := (Placement.prefix_place id rest
            (placements ++ [(⟨id, d, position⟩ : Placement)]) (position + 1)).length_le
          rw [List.length_append, List.length_singleton] at hlength
          rw [hinsert]
          refine (ih _ hlater (position + 1) (count + 1)).trans ?_
          rw [set, set, Function.update_idem, List.length_append, List.length_singleton]
          refine congrArg (fun n => Except.ok (_, n)) ?_
          simp only [Bool.false_eq_true, if_false]
          omega

private theorem append_database (c : Contents) {placements : List Placement}
    (hrows : c .distributions = placements.map Placement.row) (id : String)
    (ds : List Distribution) :
    c.database.append id ds =
      match Placement.append? id ds placements with
      | some placed =>
          .ok ((c.set .distributions (placed.map Placement.row)).database,
            placed.length - placements.length)
      | Option.none => .error (.unreconciled id .readDistributionPosition) := by
  have hneed : (Part.distributions.table (c .distributions)).need
      ((Database.distributionCells id default 0).map Prod.fst) = .ok () :=
    Table.need_eq_ok (distributions_need id default 0)
  have hcan : c.database.canInsert Part.distributions.name
      ((Database.distributionCells id default 0).map Prod.fst) = .ok () := by
    rw [Database.canInsert, table_database]
    simp only [hneed]
    rfl
  rw [Database.append, Placement.append?]
  cases hempty : ds.isEmpty with
  | true => simp [set, ← hrows]
  | false =>
      simp only [Bool.false_eq_true, if_false, nextPosition_database c hrows]
      cases Placement.next? id placements with
      | none => rfl
      | some position =>
          simp only [Step.result, Option.map_some]
          rw [Part.distributions_eq_name, hcan]
          simp only [insertDistributions_database id ds c hrows, Nat.zero_add]

end Contents

namespace Ledger

variable (L : Ledger)

private theorem filter_otherAttributes (resources : List Resource) (id : String) :
    (resources.flatMap Resource.attributes).filter (fun entry => entry.1 != id) =
      (resources.filter fun r => r.id != id).flatMap Resource.attributes :=
  filter_flatMap_key (fun _ _ hentry => Resource.id_of_mem_attributes hentry) (· != id) resources

/-- What is left to insert once the rows of a resource are cleared. -/
private theorem insert_database {r : Resource} (hr : Schema.Accepts .aardvark r)
    (hnew : ∀ other ∈ L.resources, other.id ≠ r.id) (ds : List Distribution) :
    (do
      let db ← L.database.insertScalars r
      let db ← db.insertAttributes r
      let (db, _) ← db.append r.id ds
      db.insertSearchText .aardvark r) =
      match Placement.append? r.id ds L.placements with
      | some placed =>
          .ok { L with resources := L.resources ++ [r], placements := placed : Ledger }.database
      | none => .error (.unreconciled r.id .readDistributionPosition) := by
  obtain ⟨stored, hstored⟩ : ∃ stored : Contents, stored =
      (L.contents.set .resources ((L.resources ++ [r]).map Resource.scalarRow)).set .attributes
        (L.contents .attributes ++ r.attributes.map attributeRow) := ⟨_, rfl⟩
  have hplacements : stored .distributions = L.placements.map Placement.row := by
    simp [hstored, contents]
  have hscalars := Contents.insertScalars_database L.contents hr rfl hnew
  have hattributes := Contents.insertAttributes_database
    (L.contents.set .resources ((L.resources ++ [r]).map Resource.scalarRow)) r
  rw [Contents.set_of_ne L.contents _ (by decide), ← hstored] at hattributes
  rw [database, hscalars, ok_bind, hattributes, ok_bind,
    Contents.append_database stored hplacements]
  cases Placement.append? r.id ds L.placements with
  | none => rfl
  | some placed =>
      have htexts : (stored.set .distributions (placed.map Placement.row)) .searchTexts =
          L.resources.map Resource.searchRow := by
        simp [hstored, contents]
      have hwhole : (stored.set .distributions (placed.map Placement.row)).set .searchTexts
          ((L.resources ++ [r]).map Resource.searchRow) =
            { L with resources := L.resources ++ [r], placements := placed : Ledger }.contents := by
        funext p
        cases p <;> simp [hstored, contents]
      simp only [ok_bind, Contents.insertSearchText_database _ htexts hnew, hwhole]
      rfl

private theorem clear_resources (c : Contents) {resources : List Resource}
    (h : c .resources = resources.map Resource.scalarRow) (id : String) (step : Step) :
    c.database.clear id step Layout.resources "id" = .ok (c.set .resources
      ((resources.filter fun r => r.id != id).map Resource.scalarRow)).database :=
  Contents.clear_database c Part.id_resources rfl (fun _ => Resource.scalarRow_id) h id step

private theorem clear_attributes (c : Contents) {resources : List Resource}
    (h : c .attributes = (resources.flatMap Resource.attributes).map attributeRow) (id : String)
    (step : Step) :
    c.database.clear id step attributes "id" = .ok (c.set .attributes
      (((resources.filter fun r => r.id != id).flatMap Resource.attributes).map
        attributeRow)).database := by
  rw [← filter_otherAttributes]
  exact Contents.clear_database c Part.id_attributes rfl attributeRow_id h id step

private theorem clear_distributions (c : Contents) {placements : List Placement}
    (h : c .distributions = placements.map Placement.row) (id : String) (step : Step) :
    c.database.clear id step distributions "resource_id" = .ok (c.set .distributions
      ((placements.filter fun p => p.id != id).map Placement.row)).database :=
  Contents.clear_database c Part.id_distributions rfl Placement.row_id h id step

private theorem clear_searchTexts (c : Contents) {resources : List Resource}
    (h : c .searchTexts = resources.map Resource.searchRow) (id : String) (step : Step) :
    c.database.clear id step searchTexts "id" = .ok (c.set .searchTexts
      ((resources.filter fun r => r.id != id).map Resource.searchRow)).database :=
  Contents.clear_database c Part.id_searchTexts rfl (fun _ => Resource.searchRow_id) h id step

/-- The first statements of a replacement remove what the ledger has of the resource. -/
private theorem replace_cleared (r : Resource) (ds : List Distribution) (extent : Replacement) :
    L.database.replace .aardvark r ds extent = (do
      let db ← (L.cleared r.id extent).database.insertScalars r
      let db ← db.insertAttributes r
      let (db, _) ← db.append r.id ds
      db.insertSearchText .aardvark r) := by
  have hfull : ((((L.contents.set .resources
      ((L.cleared r.id .full).contents .resources)).set .attributes
        ((L.cleared r.id .full).contents .attributes)).set .distributions
          ((L.cleared r.id .full).contents .distributions)).set .searchTexts
            ((L.cleared r.id .full).contents .searchTexts)) = (L.cleared r.id .full).contents := by
    funext p
    cases p <;> simp [contents, cleared]
  have hmetadata : (((L.contents.set .resources
      ((L.cleared r.id .metadata).contents .resources)).set .attributes
        ((L.cleared r.id .metadata).contents .attributes)).set .searchTexts
          ((L.cleared r.id .metadata).contents .searchTexts)) =
            (L.cleared r.id .metadata).contents := by
    funext p
    cases p <;> simp [contents, cleared]
  rw [Database.replace, database, clear_resources L.contents rfl, ok_bind,
    clear_attributes _ (by simp [contents]; rfl), ok_bind]
  cases extent with
  | full =>
      -- only here the rows of the distributions go too
      simp only []
      rw [clear_distributions _ (by simp [contents]; rfl), ok_bind,
        clear_searchTexts _ (by simp [contents]; rfl), ok_bind, database, ← hfull]
      rfl
  | metadata =>
      simp only [ok_bind]
      rw [clear_searchTexts _ (by simp [contents]; rfl), ok_bind, database, ← hmetadata]
      rfl

theorem replace_database {r : Resource} (hr : Schema.Accepts .aardvark r) (ds : List Distribution)
    (extent : Replacement) :
    L.database.replace .aardvark r ds extent =
      match L.replace? r ds extent with
      | some replaced => .ok replaced.database
      | none => .error (.unreconciled r.id .readDistributionPosition) := by
  have hnew : ∀ other ∈ (L.cleared r.id extent).resources, other.id ≠ r.id := by
    intro other hother
    simpa using (List.mem_filter.mp hother).2
  rw [replace_cleared, insert_database _ hr hnew, replace?]
  cases Placement.append? r.id ds (L.cleared r.id extent).placements <;> rfl

private theorem clear_thumbnails (c : Contents) {entries : List (String × String)}
    (h : c .thumbnails = entries.map (cacheRow .thumbnails "thumbnail_url")) (id : String)
    (step : Step) :
    c.database.clear id step Layout.thumbnails "id" = .ok (c.set .thumbnails
      ((entries.filter fun entry => entry.1 != id).map
        (cacheRow .thumbnails "thumbnail_url"))).database :=
  Contents.clear_database c Part.id_thumbnails rfl thumbnailRow_id h id step

private theorem clear_staticMaps (c : Contents) {entries : List (String × String)}
    (h : c .staticMaps = entries.map (cacheRow .staticMaps "image_url")) (id : String)
    (step : Step) :
    c.database.clear id step Layout.staticMaps "id" = .ok (c.set .staticMaps
      ((entries.filter fun entry => entry.1 != id).map
        (cacheRow .staticMaps "image_url"))).database :=
  Contents.clear_database c Part.id_staticMaps rfl staticMapRow_id h id step

private theorem has_eq_select (id : String) :
    (((Part.resources.table (L.contents .resources)).select "id" id).length != 0) = L.has id := by
  have hselect : (Part.resources.table (L.contents .resources)).select "id" id =
      (L.resources.filter fun r => r.id == id).map Resource.scalarRow :=
    Contents.select_text Part.id_resources rfl (fun _ => Resource.scalarRow_id) L.resources id
  rw [hselect, List.length_map, has, Bool.eq_iff_iff, bne_iff_ne, ne_eq, List.length_eq_zero_iff,
    List.filter_eq_nil_iff, List.any_eq_true]
  simp only [not_forall, not_not, exists_prop]

theorem remove_database (id : String) :
    L.database.remove id =
      if Text.allBlank id then .error (.invalid .idRequired)
      else .ok ((L.remove id).database, L.has id) := by
  have hdelete : L.database.delete Layout.resources "id" id =
      .ok ((L.contents.set .resources ((L.remove id).contents .resources)).database,
        ((Part.resources.table (L.contents .resources)).select "id" id).length) := by
    have hhas := Part.has_of_mem Part.id_resources
    have hwithout : (Part.resources.table (L.contents .resources)).without "id" id =
        (L.remove id).contents .resources :=
      Contents.without_text Part.id_resources rfl (fun _ => Resource.scalarRow_id) L.resources id
    rw [Part.resources_eq_name, database, Contents.delete_database L.contents .resources hhas,
      hwithout]
  have hwhole : ((((((L.contents.set .resources ((L.remove id).contents .resources)).set .attributes
      ((L.remove id).contents .attributes)).set .distributions
        ((L.remove id).contents .distributions)).set .searchTexts
          ((L.remove id).contents .searchTexts)).set .thumbnails
            ((L.remove id).contents .thumbnails)).set .staticMaps
              ((L.remove id).contents .staticMaps)) = (L.remove id).contents := by
    funext p
    cases p <;> simp
  rw [Database.remove, hdelete]
  split
  · rfl
  · simp only [Step.result, ok_bind]
    rw [clear_attributes _ (by simp [contents]; rfl), ok_bind,
      clear_distributions _ (by simp [contents]; rfl), ok_bind,
      clear_searchTexts _ (by simp [contents]; rfl), ok_bind,
      clear_thumbnails _ (by simp [contents]; rfl), ok_bind,
      clear_staticMaps _ (by simp [contents]; rfl), ok_bind, has_eq_select]
    exact congrArg (fun c : Contents => Except.ok (c.database, L.has id)) hwhole

/-! Cached addresses -/

section

variable {p : Part} {column : String}
  (hcolumns : p.columns = [("id", key), (column, plain .text), ("updated_at", plain .text)])
  (hid : Text.sameLetters column "id" = false)
  (htime : Text.sameLetters column "updated_at" = false)

include hcolumns hid htime

omit hcolumns in
private theorem folded : Text.fold "id" = "id" ∧ Text.fold "updated_at" = "updated_at" ∧
    Text.fold column ≠ "id" ∧ Text.fold column ≠ "updated_at" := by
  have hfoldId : Text.fold "id" = "id" := by decide
  have hfoldTime : Text.fold "updated_at" = "updated_at" := by decide
  refine ⟨hfoldId, hfoldTime, fun h => ?_, fun h => ?_⟩
  · rw [Text.sameLetters, hfoldId, h] at hid
    simp at hid
  · rw [Text.sameLetters, hfoldTime, h] at htime
    simp at htime

private theorem cacheRow_eq (entry : String × String) :
    cacheRow p column entry =
      ⟨[("id", .text entry.1), (Text.fold column, .text entry.2),
        ("updated_at", Database.stamp)]⟩ := by
  obtain ⟨hfoldId, hfoldTime, -, -⟩ := folded hid htime
  have hidTime : Text.sameLetters "id" "updated_at" = false := by decide
  simp [cacheRow, Part.row, Table.newRow, Part.table, hcolumns, Declaration.column,
    Text.sameLetters_refl, Text.sameLetters_comm "id" column, hid, htime, hidTime, hfoldId,
    hfoldTime, key, plain, Cell.store, Cell.toText, Database.stamp]

private theorem cacheRow_cells (entry : String × String) :
    (cacheRow p column entry).cell "id" = .text entry.1 ∧
      (cacheRow p column entry).cell column = .text entry.2 ∧
      (cacheRow p column entry).cell "updated_at" = Database.stamp := by
  obtain ⟨hfoldId, hfoldTime, hne, hneTime⟩ := folded hid htime
  rw [cacheRow_eq hcolumns hid htime]
  simp [Row.cell, findEntry, hfoldId, hfoldTime, hne.symm, hneTime]

private theorem update_cacheRow (id url other : String) :
    (cacheRow p column (id, other)).update
      [(column, .text url), ("updated_at", Database.stamp)] = cacheRow p column (id, url) := by
  obtain ⟨-, hfoldTime, hne, hneTime⟩ := folded hid htime
  rw [cacheRow_eq hcolumns hid htime, cacheRow_eq hcolumns hid htime]
  simp [Row.update, findEntry, hfoldTime, hne, hneTime]

private theorem cacheRow_collide (id url : String) (entry : String × String) :
    Part.keyIndex.collide (cacheRow p column (id, url)) (cacheRow p column entry) =
      (entry.1 == id) := by
  have hcell (entry : String × String) := (cacheRow_cells hcolumns hid htime entry).1
  simp [Part.keyIndex, Index.collide, KeyPart.cell, hcell, Bool.beq_comm]

private theorem cacheRow_changed (id url : String) (entries : List (String × String)) :
    ∀ old ∈ entries.map (cacheRow p column),
      Part.keyIndex.collide (cacheRow p column (id, url)) old = true →
        old.update (([("id", Cell.text id), (column, .text url),
          ("updated_at", Database.stamp)].filter fun value =>
            !Text.sameLetters value.1 "id").map fun value =>
              (value.1, (cacheRow p column (id, url)).cell value.1)) =
                cacheRow p column (id, url) := by
  intro old hold hkey
  obtain ⟨⟨other, address⟩, -, rfl⟩ := List.mem_map.mp hold
  rw [cacheRow_collide hcolumns hid htime, beq_iff_eq] at hkey
  subst hkey
  obtain ⟨-, hurl, hstamp⟩ := cacheRow_cells hcolumns hid htime (other, url)
  have htimeId : Text.sameLetters "updated_at" "id" = false := by decide
  simp only [List.filter_cons, Text.sameLetters_refl, hid, htimeId, Bool.not_true, Bool.not_false,
    Bool.false_eq_true, if_false, if_true, List.filter_nil, List.map_cons, List.map_nil, hurl,
    hstamp]
  exact update_cacheRow hcolumns hid htime other url address

private theorem rows_cached (id url : String) (entries : List (String × String)) :
    (if (entries.map (cacheRow p column)).any
      (Part.keyIndex.collide (cacheRow p column (id, url))) then
        (entries.map (cacheRow p column)).map fun other =>
          if Part.keyIndex.collide (cacheRow p column (id, url)) other then
            cacheRow p column (id, url) else other
      else entries.map (cacheRow p column) ++ [cacheRow p column (id, url)]) =
        (cached id url entries).map (cacheRow p column) := by
  have hcollide := cacheRow_collide hcolumns hid htime id url
  have hany : (entries.map (cacheRow p column)).any
      (Part.keyIndex.collide (cacheRow p column (id, url))) =
        entries.any fun entry => entry.1 == id := by
    rw [List.any_map]
    exact congrArg entries.any (funext hcollide)
  rw [hany, cached]
  split
  · rw [List.map_map, List.map_map]
    refine List.map_congr_left fun entry _ => ?_
    simp only [Function.comp_apply, hcollide]
    split <;> rfl
  · rw [List.map_append]
    rfl

private theorem cache_database (c : Contents) (hindexes : p.indexes = [Part.keyIndex])
    {entries : List (String × String)} (hrows : c p = entries.map (cacheRow p column))
    (id url : String) :
    c.database.cache p.name column id url =
      .ok (c.set p ((cached id url entries).map (cacheRow p column))).database := by
  have hneed : ∀ name ∈ [("id", Cell.text id), (column, .text url),
      ("updated_at", Database.stamp)].map Prod.fst,
      (p.table (entries.map (cacheRow p column))).has name = true := by
    intro name hname
    refine Part.has_of_name ?_
    rw [hcolumns]
    exact hname
  have hmissing : (p.table (entries.map (cacheRow p column))).missing?
      (cacheRow p column (id, url)) = none := by
    refine Contents.missing?_eq_none (fun c hc hrequired => absurd hrequired ?_) _
    rw [hcolumns] at hc
    simp only [List.mem_cons, List.not_mem_nil, or_false] at hc
    rcases hc with rfl | rfl | rfl <;> exact Bool.false_ne_true
  have hupsert := Table.upsert_eq rfl rfl hindexes rfl rfl hneed hmissing
    (cacheRow_changed hcolumns hid htime id url entries)
  have hmodify : c.database.modify p.name (fun t =>
      (t.upsert "id" [("id", .text id), (column, .text url), ("updated_at", Database.stamp)]).map
        fun changed => (changed, ())) =
      .ok ((c.set p ((cached id url entries).map (cacheRow p column))).database, ()) := by
    refine Contents.modify_database c p ?_
    rw [hrows, hupsert, ← rows_cached hcolumns hid htime]
    rfl
  rw [Database.cache, hmodify]
  rfl

end

theorem cacheThumbnail_database (id url : String) :
    L.database.cacheThumbnail id url = .ok (L.cacheThumbnail id url).database := by
  have hwhole : L.contents.set .thumbnails
      ((cached id url L.thumbnails).map (cacheRow .thumbnails "thumbnail_url")) =
        (L.cacheThumbnail id url).contents := by
    funext p
    cases p <;> simp [contents, cacheThumbnail]
  rw [Database.cacheThumbnail, Part.thumbnails_eq_name, database,
    cache_database rfl (by decide) (by decide) L.contents rfl rfl, hwhole]
  rfl

theorem cacheStaticMap_database (id url : String) :
    L.database.cacheStaticMap id url = .ok (L.cacheStaticMap id url).database := by
  have hwhole : L.contents.set .staticMaps
      ((cached id url L.staticMaps).map (cacheRow .staticMaps "image_url")) =
        (L.cacheStaticMap id url).contents := by
    funext p
    cases p <;> simp [contents, cacheStaticMap]
  rw [Database.cacheStaticMap, Part.staticMaps_eq_name, database,
    cache_database rfl (by decide) (by decide) L.contents rfl rfl, hwhole]
  rfl

/-! The writes of a catalog -/

theorem upsert_database (r : Resource) (ds : List Distribution) :
    L.database.upsert .aardvark r ds =
      match Schema.check .aardvark r with
      | .ok () => .ok (L.put r ds).database
      | .error e => .error e := by
  rw [Database.upsert]
  cases hcheck : Schema.check .aardvark r with
  | error e => rfl
  | ok =>
      simp only [replace_database L (Schema.check_eq_ok.mp hcheck), replace?_full]

/-- A refreshed resource may find no position for its distributions. -/
theorem refresh_database (r : Resource) (ds : List Distribution) :
    L.database.refresh .aardvark r ds =
      match Schema.check .aardvark r with
      | .ok () =>
          match L.replace? r ds .metadata with
          | some refreshed => .ok refreshed.database
          | none => .error (.unreconciled r.id .readDistributionPosition)
      | .error e => .error e := by
  rw [Database.refresh]
  cases hcheck : Schema.check .aardvark r with
  | error e => rfl
  | ok => simp only [replace_database L (Schema.check_eq_ok.mp hcheck)]

theorem append_database (id : String) (ds : List Distribution) :
    L.database.append id ds =
      match L.extend? id ds with
      | some extended =>
          .ok (extended.database, extended.placements.length - L.placements.length)
      | none => .error (.unreconciled id .readDistributionPosition) := by
  have happend := Contents.append_database L.contents
    (show L.contents .distributions = L.placements.map Placement.row from rfl) id ds
  rw [database, happend, extend?]
  cases Placement.append? id ds L.placements with
  | none => rfl
  | some placed =>
      have hwhole : L.contents.set .distributions (placed.map Placement.row) =
          { L with placements := placed : Ledger }.contents := by
        funext p
        cases p <;> simp [contents]
      simp only [Option.map_some, hwhole]
      rfl

variable {L} {r : Resource} {ds : List Distribution} {changed : Database}

theorem upsert_eq_ok : L.database.upsert .aardvark r ds = .ok changed ↔
    Schema.Accepts .aardvark r ∧ (L.put r ds).database = changed := by
  rw [upsert_database, ← Schema.check_eq_ok]
  cases Schema.check .aardvark r <;> simp

theorem refresh_eq_ok : L.database.refresh .aardvark r ds = .ok changed ↔
    Schema.Accepts .aardvark r ∧ ∃ M, L.replace? r ds .metadata = some M ∧ M.database = changed := by
  rw [refresh_database, ← Schema.check_eq_ok]
  cases Schema.check .aardvark r with
  | error e => simp
  | ok => cases L.replace? r ds .metadata <;> simp

theorem append_eq_ok {id : String} {count : Nat} :
    L.database.append id ds = .ok (changed, count) ↔
      ∃ M, L.extend? id ds = some M ∧ M.database = changed ∧
        M.placements.length - L.placements.length = count := by
  rw [append_database]
  cases L.extend? id ds <;> simp

end Ledger

end Gazetteer
