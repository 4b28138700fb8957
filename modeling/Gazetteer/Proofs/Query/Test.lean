import Mathlib
import Gazetteer.Proofs.Ledger.Read
import Gazetteer.Proofs.Query.Meaning
import Gazetteer.Proofs.Text.Lowercase
/-!
Tests on the rows of a ledger.  A row passes a test if the resource that is read back from it has
what the test asks for.
-/

namespace Gazetteer

open Layout

namespace Test

def Passes (r : Resource) (content : String) : Test → Prop
  | scalarIn field values => ∃ v ∈ r.value? field, v ∈ values
  | scalarIs field value => r.value? field = some value
  | scalarFrom field bound => ∃ v ∈ r.value? field, ∃ x ∈ (Cell.text v).number?, bound ≤ x
  | scalarTo field bound => ∃ v ∈ r.value? field, ∃ x ∈ (Cell.text v).number?, x ≤ bound
  | hasAny field values => ∃ v ∈ r.values field, v ∈ values
  | hasAll field values => ∀ v ∈ values, v ∈ r.values field
  | hasWithin field atLeast atMost => ∃ v ∈ r.values field, ∃ x ∈ (Cell.text v).number?,
      (∀ bound ∈ atLeast, bound ≤ x) ∧ ∀ bound ∈ atMost, x ≤ bound
  | mentions terms => ∀ term ∈ terms, Text.Occurs term content
  | meets box => ∃ e ∈ r.geometry, e.intersects box = true

/-- Tests as they are made of conditions, free text and box: scalar fields are those of the schema,
values stand once, and terms have no capitals. -/
def WellFormed : Test → Prop
  | scalarIn field _ => Schema.isScalar .aardvark field = true
  | scalarIs field _ => Schema.isScalar .aardvark field = true
  | scalarFrom field _ => Schema.isScalar .aardvark field = true
  | scalarTo field _ => Schema.isScalar .aardvark field = true
  | hasAny _ _ => True
  | hasAll _ values => values.Nodup
  | hasWithin _ _ _ => True
  | mentions terms => ∀ term ∈ terms, ∀ c ∈ term.toList, c.toLower = c
  | meets _ => True

end Test

/-! Single cells -/

namespace Test

theorem isOneOf_text (values : List String) (v : String) :
    isOneOf .text values (.text v) = values.contains v := by
  have hsame (other : String) :
      (Cell.text v).equals ((Cell.text other).against .text) = (v == other) :=
    Cell.equals_text v other
  simp only [isOneOf, hsame]
  exact List.any_beq

theorem isOneOf_null (affinity : Affinity) (values : List String) :
    isOneOf affinity values .null = false := by
  simp [isOneOf]

theorem isFrom_text (bound : Float) (v : String) :
    isFrom bound (.text v) = true ↔ ∃ x ∈ (Cell.text v).number?, bound ≤ x := by
  rw [isFrom]
  cases hnumber : (Cell.text v).number? with
  | none => simp
  | some x =>
      have hreal := Cell.ofFloat?_of_isFinite (Cell.isFinite_of_number?_text hnumber)
      simp only [← hreal, Cell.atMost_ofFloat?, decide_eq_true_eq, Option.mem_some_iff,
        exists_eq_left']

theorem isTo_text (bound : Float) (v : String) :
    isTo bound (.text v) = true ↔ ∃ x ∈ (Cell.text v).number?, x ≤ bound := by
  rw [isTo]
  cases hnumber : (Cell.text v).number? with
  | none => simp
  | some x =>
      have hreal := Cell.ofFloat?_of_isFinite (Cell.isFinite_of_number?_text hnumber)
      simp only [← hreal, Cell.atMost_ofFloat?, decide_eq_true_eq, Option.mem_some_iff,
        exists_eq_left']

end Test

/-! What the tests read of a row -/

theorem Resource.scalarRow_value {r : Resource} (hr : Schema.Accepts .aardvark r) {field : String}
    (hfield : Schema.isScalar .aardvark field = true) :
    r.scalarRow.cell field = ((r.value? field).map Cell.text).getD .null := by
  rw [value?]
  split
  next hid =>
    rw [hid]
    exact scalarRow_id
  next hid => exact scalarRow_scalar hr hfield hid

namespace Ledger

variable {L : Ledger} {r : Resource}

theorem affinity_scalar (L : Ledger) {field : String}
    (hfield : Schema.isScalar .aardvark field = true) :
    L.database.affinity Layout.resources field = .text := by
  rw [Part.resources_eq_name, database]
  by_cases hid : field = "id"
  · rw [hid, Contents.affinity_of_mem L.contents Part.id_resources]
    rfl
  · rw [Contents.affinity_of_mem L.contents (Schema.mem_columns_of_isScalar hfield hid)]
    rfl

theorem affinity_attribute (L : Ledger) {column : String} {d : Declaration}
    (hcolumn : (column, d) ∈ Part.attributes.columns) :
    L.database.affinity attributes column = d.affinity := by
  rw [Part.attributes_eq_name, database, Contents.affinity_of_mem L.contents hcolumn]

theorem fieldCells_database (h : L.Sound) (hr : r ∈ L.resources) (field : String) :
    Test.fieldCells L.database field r.scalarRow =
      ((L.record r).values field).map Cell.text := by
  have hcolumn : ("field", requiredText) ∈ Part.attributes.columns := .tail _ (.head _)
  have hfield : L.database.affinity attributes "field" = .text := affinity_attribute L hcolumn
  have hbelonging : L.database.belonging attributes r.scalarRow =
      ((L.resources.flatMap Resource.attributes).filter fun entry => entry.1 == r.id).map
        attributeRow :=
    Contents.belonging_text L.contents Part.id_attributes rfl attributeRow_id rfl
      Resource.scalarRow_id
  simp only [Test.fieldCells, hbelonging, hfield, List.filter_map, List.filter_filter, List.map_map,
    Function.comp_def, attributeRow_field, attributeRow_value, Test.isOneOf_text, values_record]
  have hown := filter_attributes h hr field
  simp only [List.contains_cons, List.contains_nil, Bool.or_false, Bool.and_comm] at hown ⊢
  rw [hown, List.map_map]
  rfl

theorem contentCells_database (h : L.Sound) (hr : r ∈ L.resources) :
    Test.contentCells L.database r.scalarRow = [.text (Schema.searchContent .aardvark r)] := by
  have hbelonging : L.database.belonging searchTexts r.scalarRow =
      (L.resources.filter fun other => other.id == r.id).map Resource.searchRow :=
    Contents.belonging_text L.contents Part.id_searchTexts rfl (fun _ => Resource.searchRow_id) rfl
      Resource.scalarRow_id
  rw [Test.contentCells, hbelonging, filter_key h.resources, h.find? hr]
  simp

/-! Tests on scalar fields -/

private theorem scalarIn_iff (h : L.Sound) (hr : r ∈ L.resources) {field : String}
    (hfield : Schema.isScalar .aardvark field = true) (values : List String) :
    Test.isOneOf (L.database.affinity Layout.resources field) values (r.scalarRow.cell field) =
        true ↔ ∃ v ∈ (L.record r).value? field, v ∈ values := by
  change _ ↔ ∃ v ∈ r.value? field, v ∈ values
  rw [affinity_scalar L hfield, Resource.scalarRow_value (h.accepted r hr) hfield]
  cases r.value? field with
  | none => simp [Test.isOneOf_null]
  | some v => simp [Test.isOneOf_text]

private theorem scalar_number_iff (h : L.Sound) (hr : r ∈ L.resources) {field : String}
    (hfield : Schema.isScalar .aardvark field = true) {test : Cell → Bool}
    {holds : Float → Prop} (hnull : test .null = false)
    (htext : ∀ v, test (.text v) = true ↔ ∃ x ∈ (Cell.text v).number?, holds x) :
    test (r.scalarRow.cell field) = true ↔
      ∃ v ∈ (L.record r).value? field, ∃ x ∈ (Cell.text v).number?, holds x := by
  change _ ↔ ∃ v ∈ r.value? field, ∃ x ∈ (Cell.text v).number?, holds x
  rw [Resource.scalarRow_value (h.accepted r hr) hfield]
  cases r.value? field with
  | none => simp [hnull]
  | some v => simp [htext]

/-! Tests on repeatable fields -/

private theorem isOneOf_value (L : Ledger) (values : List String) (v : String) :
    Test.isOneOf (L.database.affinity attributes "value") values (.text v) = values.contains v := by
  have hcolumn : ("value", requiredText) ∈ Part.attributes.columns := .tail _ (.tail _ (.head _))
  have hvalue : L.database.affinity attributes "value" = .text := affinity_attribute L hcolumn
  rw [hvalue, Test.isOneOf_text]

private theorem hasAny_iff (h : L.Sound) (hr : r ∈ L.resources) (field : String)
    (values : List String) :
    (Test.fieldCells L.database field r.scalarRow).any
        (Test.isOneOf (L.database.affinity attributes "value") values) = true ↔
      ∃ v ∈ (L.record r).values field, v ∈ values := by
  simp only [fieldCells_database h hr, List.any_map, List.any_eq_true, Function.comp_apply,
    isOneOf_value, List.contains_iff_mem]

/-- As many different values are found as are wanted just if all of them are found. -/
private theorem hasAll_iff (h : L.Sound) (hr : r ∈ L.resources) (field : String)
    {values : List String} (hvalues : values.Nodup) :
    ((Cell.distinct ((Test.fieldCells L.database field r.scalarRow).filter
        (Test.isOneOf (L.database.affinity attributes "value") values))).length ==
          values.length) = true ↔ ∀ v ∈ values, v ∈ (L.record r).values field := by
  have hfound : (Test.fieldCells L.database field r.scalarRow).filter
      (Test.isOneOf (L.database.affinity attributes "value") values) =
        (((L.record r).values field).filter values.contains).map Cell.text := by
    rw [fieldCells_database h hr, List.filter_map]
    simp only [Function.comp_def, isOneOf_value]
  obtain ⟨kept, hkept, hnodup, hmem⟩ :=
    Cell.distinct_texts (((L.record r).values field).filter values.contains)
  have hsub : kept ⊆ values := by
    intro v hv
    simpa using (List.mem_filter.mp ((hmem v).mp hv)).2
  have hperm := List.subperm_of_subset hnodup hsub
  rw [hfound, hkept, List.length_map, beq_iff_eq]
  constructor
  · intro hlength v hv
    have hv := (hperm.perm_of_length_le hlength.ge).mem_iff.mpr hv
    exact (List.mem_filter.mp ((hmem v).mp hv)).1
  · intro hall
    refine ((List.perm_ext_iff_of_nodup hnodup hvalues).mpr fun v => ?_).length_eq
    rw [hmem, List.mem_filter, List.contains_iff_mem]
    exact ⟨fun hv => hv.2, fun hv => ⟨hall v hv, hv⟩⟩

private theorem hasWithin_iff (h : L.Sound) (hr : r ∈ L.resources) (field : String)
    (atLeast atMost : Option Float) :
    ((Test.fieldCells L.database field r.scalarRow).any fun c =>
        c.number?.isSome && atLeast.toList.all (Test.isFrom · c) &&
          atMost.toList.all (Test.isTo · c)) = true ↔
      ∃ v ∈ (L.record r).values field, ∃ x ∈ (Cell.text v).number?,
        (∀ bound ∈ atLeast, bound ≤ x) ∧ ∀ bound ∈ atMost, x ≤ bound := by
  rw [fieldCells_database h hr, List.any_map, List.any_eq_true]
  refine exists_congr fun v => and_congr_right fun _ => ?_
  cases hnumber : (Cell.text v).number? with
  | none => simp [hnumber]
  | some x =>
      simp only [Function.comp_apply, hnumber, Option.isSome_some, Bool.true_and,
        Bool.and_eq_true, List.all_eq_true, Option.mem_toList, Test.isFrom_text, Test.isTo_text,
        Option.mem_some_iff, exists_eq_left']
      exact Iff.rfl

/-! Tests on the searched text and the envelope -/

private theorem mentions_iff (h : L.Sound) (hr : r ∈ L.resources) {terms : List String}
    (hterms : ∀ term ∈ terms, ∀ c ∈ term.toList, c.toLower = c) :
    ((Test.contentCells L.database r.scalarRow).any fun c =>
        terms.all (Test.containsTerm c)) = true ↔
      ∀ term ∈ terms, Text.Occurs term (Schema.searchContent .aardvark r) := by
  rw [contentCells_database h hr, List.any_cons, List.any_nil, Bool.or_false, List.all_eq_true]
  refine forall₂_congr fun term hterm => ?_
  simp only [Test.containsTerm, Cell.likeChars?, Test.pattern, String.toList_ofList]
  exact Text.isLike_containing (hterms term hterm) fun _ hc => Text.toLower_of_mem_lowercase hc

private theorem edge_eq (L : Ledger) {column : String} (hcolumn : column ∈ geometryColumns)
    (bound : Float) : Test.edge L.database column bound = Cell.ofFloat? (some bound) := by
  have hmem : (column, plain .real) ∈ Part.resources.columns :=
    List.mem_cons_of_mem _ (List.mem_append_right _ (List.mem_map_of_mem hcolumn))
  have haffinity : L.database.affinity Layout.resources column = .real := by
    rw [Part.resources_eq_name, database, Contents.affinity_of_mem L.contents hmem]
    rfl
  rw [Test.edge, haffinity, Cell.ofFloat?]
  split <;> rfl

private theorem meets_iff (h : L.Sound) (hr : r ∈ L.resources) (box : Envelope) :
    Test.holds L.database r.scalarRow (.meets box) = true ↔
      ∃ e ∈ (L.record r).geometry, e.intersects box = true := by
  have hminX : "geom_minx" ∈ geometryColumns := by decide
  have hminY : "geom_miny" ∈ geometryColumns := by decide
  have hmaxX : "geom_maxx" ∈ geometryColumns := by decide
  have hmaxY : "geom_maxy" ∈ geometryColumns := by decide
  have hcell {column : String} (hcolumn : column ∈ geometryColumns) :=
    Resource.scalarRow_geometry (h.accepted r hr) hcolumn
  change _ ↔ ∃ e ∈ r.envelope?, e.intersects box = true
  simp only [Test.holds, edge_eq L hminX, edge_eq L hminY, edge_eq L hmaxX, edge_eq L hmaxY,
    hcell hminX, hcell hminY, hcell hmaxX, hcell hmaxY]
  cases henvelope : r.envelope? with
  | none => simp [Database.geometryCells, geometryColumns, findEntry, Cell.atMost, Cell.isNull]
  | some e =>
      obtain ⟨parsed, hparsed, rfl⟩ := Option.map_eq_some_iff.mp henvelope
      obtain ⟨text, -, htext⟩ := Option.bind_eq_some_iff.mp hparsed
      have hfinite := (Envelope.isFinite_of_parse? htext).stored
      have hcells : (findEntry "geom_minx" (Database.geometryCells (some parsed.stored))).getD .null =
            Cell.ofFloat? (some parsed.stored.minX) ∧
          (findEntry "geom_miny" (Database.geometryCells (some parsed.stored))).getD .null =
            Cell.ofFloat? (some parsed.stored.minY) ∧
          (findEntry "geom_maxx" (Database.geometryCells (some parsed.stored))).getD .null =
            Cell.ofFloat? (some parsed.stored.maxX) ∧
          (findEntry "geom_maxy" (Database.geometryCells (some parsed.stored))).getD .null =
            Cell.ofFloat? (some parsed.stored.maxY) := by
        rw [Cell.ofFloat?_of_isFinite hfinite.minX, Cell.ofFloat?_of_isFinite hfinite.minY,
          Cell.ofFloat?_of_isFinite hfinite.maxX, Cell.ofFloat?_of_isFinite hfinite.maxY]
        exact ⟨rfl, rfl, rfl, rfl⟩
      obtain ⟨hcellMinX, hcellMinY, hcellMaxX, hcellMaxY⟩ := hcells
      simp only [hcellMinX, hcellMinY, hcellMaxX, hcellMaxY, Cell.atMost_ofFloat?,
        Option.mem_some_iff, exists_eq_left']
      exact Iff.rfl

/-- The row of a resource passes a test if the resource, as it is read back, does. -/
theorem holds_iff (h : L.Sound) (hr : r ∈ L.resources) {t : Test} (ht : t.WellFormed) :
    t.holds L.database r.scalarRow = true ↔
      t.Passes (L.record r) (Schema.searchContent .aardvark r) := by
  cases t with
  | scalarIn field values => exact scalarIn_iff h hr ht values
  | scalarIs field value =>
      refine (scalarIn_iff h hr ht [value]).trans ?_
      simp [Test.Passes]
  | scalarFrom field bound =>
      exact scalar_number_iff h hr ht rfl (Test.isFrom_text bound)
  | scalarTo field bound =>
      exact scalar_number_iff h hr ht rfl (Test.isTo_text bound)
  | hasAny field values => exact hasAny_iff h hr field values
  | hasAll field values => exact hasAll_iff h hr field ht
  | hasWithin field atLeast atMost => exact hasWithin_iff h hr field atLeast atMost
  | mentions terms => exact mentions_iff h hr ht
  | meets box => exact meets_iff h hr box

end Ledger

end Gazetteer
