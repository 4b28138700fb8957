import Mathlib
import Gazetteer.Catalog.Search
import Gazetteer.Proofs.Query.Predicate
/-!
Selections: the rows that pass free text and box, found before or along with the rest, and the
conditions on fields.
-/

namespace Gazetteer

open Layout

/-- A column that the tables of a ledger have, given with its table. -/
def Known (entry : String × String) : Prop :=
  ∃ p : Part, p.name = entry.1 ∧ (p.column? entry.2).isSome = true

namespace Part

theorem known_of_mem {p : Part} {column : String} {d : Declaration}
    (h : (column, d) ∈ p.columns) : Known (p.name, column) :=
  ⟨p, rfl, has_of_mem h⟩

end Part

/-! The columns that tests read -/

theorem known_id : Known (Layout.resources, "id") :=
  Part.known_of_mem Part.id_resources

theorem known_scalar {field : String} (hfield : Schema.isScalar .aardvark field = true) :
    Known (Layout.resources, field) := by
  by_cases hid : field = "id"
  · exact hid ▸ known_id
  · exact Part.known_of_mem (Schema.mem_columns_of_isScalar hfield hid)

theorem known_geometry {column : String} (hcolumn : column ∈ geometryColumns) :
    Known (Layout.resources, column) :=
  Part.known_of_mem (p := .resources) (d := plain .real)
    (List.mem_cons_of_mem _ (List.mem_append_right _ (List.mem_map_of_mem hcolumn)))

theorem known_attributeNeeds : ∀ entry ∈ Test.attributeNeeds, Known entry := by
  have hfield : ("field", requiredText) ∈ Part.attributes.columns := .tail _ (.head _)
  have hvalue : ("value", requiredText) ∈ Part.attributes.columns := .tail _ (.tail _ (.head _))
  simp only [Test.attributeNeeds, List.forall_mem_cons, List.not_mem_nil, false_imp_iff,
    implies_true, and_true]
  exact ⟨Part.known_of_mem Part.id_attributes, known_id, Part.known_of_mem hfield,
    Part.known_of_mem hvalue⟩

namespace Test

theorem known_needs {t : Test} (ht : t.WellFormed) : ∀ entry ∈ t.needs, Known entry := by
  have hscalar {field : String} (hfield : Schema.isScalar .aardvark field = true) :
      ∀ entry ∈ [(Layout.resources, field)], Known entry :=
    List.forall_mem_singleton.mpr (known_scalar hfield)
  cases t with
  | scalarIn field values => exact hscalar ht
  | scalarIs field value => exact hscalar ht
  | scalarFrom field bound => exact hscalar ht
  | scalarTo field bound => exact hscalar ht
  | hasAny field values => exact known_attributeNeeds
  | hasAll field values => exact known_attributeNeeds
  | hasWithin field atLeast atMost => exact known_attributeNeeds
  | mentions terms =>
      have hcontent : ("content", requiredText) ∈ Part.searchTexts.columns := .tail _ (.head _)
      simp only [needs, List.forall_mem_cons, List.not_mem_nil, false_imp_iff, implies_true,
        and_true]
      exact ⟨Part.known_of_mem Part.id_searchTexts, known_id, Part.known_of_mem hcontent⟩
  | meets box => exact List.forall_mem_map.mpr fun column hcolumn => known_geometry hcolumn

end Test

theorem Clause.known_needs {c : Clause} (hc : c.WellFormed) :
    ∀ entry ∈ c.flatMap Test.needs, Known entry := by
  intro entry hentry
  obtain ⟨t, ht, hentry⟩ := List.mem_flatMap.mp hentry
  exact Test.known_needs (hc t ht) entry hentry

theorem Predicate.known_needs {p : Predicate} (hp : p.WellFormed) :
    ∀ entry ∈ p.needs, Known entry := by
  intro entry hentry
  obtain ⟨c, hc, hentry⟩ := List.mem_flatMap.mp hentry
  exact Clause.known_needs (hp c hc) entry hentry

namespace Ledger

variable {L : Ledger} {q : Request}

theorem need_known (L : Ledger) {wanted : List (String × String)}
    (h : ∀ entry ∈ wanted, Known entry) : L.database.need wanted = .ok () :=
  Contents.need_database L.contents h

theorem clause_holds_iff (h : L.Sound) {r : Resource} (hr : r ∈ L.resources) {c : Clause}
    (hc : c.WellFormed) : c.holds L.database r.scalarRow = true ↔
      c.Passes (L.record r) (Schema.searchContent .aardvark r) := by
  rw [Clause.holds, List.all_eq_true]
  exact forall₂_congr fun t ht => holds_iff h hr (hc t ht)

theorem predicate_holds_iff (h : L.Sound) {r : Resource} (hr : r ∈ L.resources) {p : Predicate}
    (hp : p.WellFormed) : p.holds L.database r.scalarRow = true ↔
      p.Passes (L.record r) (Schema.searchContent .aardvark r) := by
  rw [Predicate.holds, List.all_eq_true]
  exact forall₂_congr fun c hc => clause_holds_iff h hr (hp c hc)

/-! The hit set -/

def passing (L : Ledger) (q : Request) : List Resource :=
  L.resources.filter fun r => q.globalClause.holds L.database r.scalarRow

def hits (L : Ledger) (q : Request) : HitSet :=
  if q.isGlobal then some ((L.passing q).map fun r => .text r.id) else none

theorem globalIds_database (L : Ledger) (q : Request) :
    L.database.globalIds q = .ok ((L.passing q).map fun r => .text r.id) := by
  have hneed : L.database.need ((Layout.resources, "id") :: q.globalClause.flatMap Test.needs) =
      .ok () :=
    L.need_known (List.forall_mem_cons.mpr
      ⟨known_id, Clause.known_needs (Request.wellFormed_globalClause q)⟩)
  have htable : L.database.table Layout.resources =
      .ok (Part.resources.table (L.resources.map Resource.scalarRow)) :=
    Contents.table_database L.contents .resources
  simp only [Database.globalIds, hneed, htable, passing, Except.map, Part.table_rows,
    List.filter_map, List.map_map, Function.comp_def, Resource.scalarRow_id]

theorem hitSet_database (L : Ledger) (q : Request) : L.database.hitSet q = .ok (L.hits q) := by
  rw [Database.hitSet, hits, globalIds_database]
  cases q.isGlobal <;> rfl

def matching (L : Ledger) (q : Request) (p : Predicate) : List Resource :=
  (L.passing q).filter fun r => p.holds L.database r.scalarRow

theorem hits_database (h : L.Sound) (q : Request) :
    L.database.hits (L.hits q) = (L.passing q).map Resource.scalarRow := by
  rw [hits]
  cases hglobal : q.isGlobal with
  | false =>
      have hall : L.passing q = L.resources := by
        have hclause : q.globalClause = [] := by
          rw [Request.isGlobal, Bool.or_eq_false_iff, Option.isSome_eq_false_iff,
            Option.isSome_eq_false_iff, Option.isNone_iff_eq_none, Option.isNone_iff_eq_none]
            at hglobal
          rw [Request.globalClause, hglobal.1, hglobal.2]
          rfl
        rw [passing, hclause]
        exact List.filter_eq_self.mpr fun r _ => rfl
      rw [hall, ← rows_resources]
      rfl
  | true =>
      -- Every row is kept as often as its id is in the set, which is once or not at all.
      have hid : L.database.affinity Layout.resources "id" = .text :=
        affinity_scalar L (by decide)
      have honce : ∀ r ∈ L.resources,
          (((L.passing q).map fun r => Cell.text r.id).filter fun id =>
            Cell.joins .text .text id (r.scalarRow.cell "id")).map (fun _ => r.scalarRow) =
              if q.globalClause.holds L.database r.scalarRow then [r.scalarRow] else [] := by
        intro r hr
        have hown : (L.passing q).filter (fun other => other.id == r.id) =
            if q.globalClause.holds L.database r.scalarRow then [r] else [] := by
          rw [passing, List.filter_filter]
          simp only [Bool.and_comm (_ == _)]
          rw [← List.filter_filter, filter_key h.resources, h.find? hr, Option.toList_some,
            List.filter_cons, List.filter_nil]
        have hjoins (other : Resource) :
            Cell.joins .text .text (.text other.id) (r.scalarRow.cell "id") =
              (other.id == r.id) := by
          rw [Resource.scalarRow_id]
          exact Cell.equals_text other.id r.id
        simp only [List.filter_map, Function.comp_def, hjoins, hown]
        cases q.globalClause.holds L.database r.scalarRow <;> rfl
      simp only [if_true, Database.hits, hid, rows_resources, List.flatMap_map]
      rw [List.flatMap_congr honce]
      exact flatMap_if _ _ _

theorem selected_database (h : L.Sound) (q : Request) (p : Predicate) :
    L.database.selected (L.hits q) p = (L.matching q p).map Resource.scalarRow := by
  rw [Database.selected, hits_database h, List.filter_map]
  rfl

theorem mem_matching (h : L.Sound) {omitted : Option String} {withGlobal : Bool} {p : Predicate}
    (hp : q.predicate .aardvark omitted withGlobal = .ok p) {r : Resource} :
    r ∈ L.matching q p ↔ r ∈ L.resources ∧
      q.MatchesGlobally (L.record r) (Schema.searchContent .aardvark r) ∧
        q.MeetsFilters omitted (L.record r) := by
  obtain ⟨hformed, hpasses⟩ := Request.predicate_eq_ok hp
  rw [matching, passing, List.mem_filter, List.mem_filter, and_assoc]
  refine and_congr_right fun hr => ?_
  rw [clause_holds_iff h hr (Request.wellFormed_globalClause q), Request.passes_globalClause,
    predicate_holds_iff h hr hformed, hpasses]
  exact ⟨fun ⟨hglobal, _, hfilters⟩ => ⟨hglobal, hfilters⟩,
    fun ⟨hglobal, hfilters⟩ => ⟨hglobal, fun _ => hglobal, hfilters⟩⟩

theorem matching_sublist (L : Ledger) (q : Request) (p : Predicate) :
    (L.matching q p).Sublist L.resources :=
  List.filter_sublist.trans List.filter_sublist

end Ledger

end Gazetteer
