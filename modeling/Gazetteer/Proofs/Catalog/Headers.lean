import Mathlib
import Gazetteer.Proofs.Catalog.Tabular
import Gazetteer.Proofs.Interchange.Headers
/-!
Imports of tables whose columns are spelled in another letter case.
-/

namespace Gazetteer

namespace Database

variable {aliases : Dict String} {rows : List TableRow} {rename : String → String}

theorem importRows_respelled (db : Database) (config : Config)
    (h : ∀ row ∈ rows, TableRow.Respells aliases (.ofRows aliases .aardvark rows) rename row) :
    db.importRows .aardvark config aliases (rows.map (TableRow.respelled rename)) =
      db.importRows .aardvark config aliases rows := by
  rw [importRows, importRows, TableKind.ofRows_respelled h, List.map_map]
  cases hkind : TableKind.ofRows aliases .aardvark rows with
  | resources =>
      rw [hkind] at h
      have hfold : (rows.map (FieldCells.ofRow aliases .aardvark ∘ TableRow.respelled rename)).foldl
          (importResourceRow .aardvark config) (db, 0) =
            (rows.map (FieldCells.ofRow aliases .aardvark)).foldl
              (importResourceRow .aardvark config) (db, 0) := by
        rw [List.foldl_map, List.foldl_map]
        refine List.foldl_ext _ _ _ fun state row hrow => ?_
        rw [importResourceRow, importResourceRow, Function.comp_apply, (h row hrow).resource?]
      simp only [hfold]
  | distributions =>
      rw [hkind] at h
      have hfold : (rows.map (FieldCells.ofRow aliases .aardvark ∘ TableRow.respelled rename)).foldl
          (importDistributionRow config) (db, 0) =
            (rows.map (FieldCells.ofRow aliases .aardvark)).foldl
              (importDistributionRow config) (db, 0) := by
        rw [List.foldl_map, List.foldl_map]
        refine List.foldl_ext _ _ _ fun state row hrow => ?_
        rw [importDistributionRow, importDistributionRow, Function.comp_apply,
          (h row hrow).distribution?]
      simp only [hfold]
  | unrecognized => rfl

end Database

namespace Catalog

/-- A table is imported the same in whatever letter case its columns are spelled, as long as those
that are neither an alias nor a field keep their names. -/
theorem importTabular_respelled (c : Catalog) (rows : List TableRow)
    (aliases : Option (Dict String)) (rename : String → String)
    (h : ∀ row ∈ rows, TableRow.Respells (aliases.getD c.config.aliases)
      (.ofRows (aliases.getD c.config.aliases) .aardvark rows) rename row) :
    c.importTabular (rows.map (TableRow.respelled rename)) aliases =
      c.importTabular rows aliases := by
  have hrows (db : Database) := db.importRows_respelled c.config h
  rw [importTabular, importTabular]
  simp only [schema, TableKind.ofRows_respelled h, hrows]

/-! A column of references -/

def referencing (column : String) : TableRow :=
  .ofList [("ID", "a"), ("Name", "T"), (column, "\x7b\"http://schema.org/url\": \"u\"\x7d")]

def nameAlias : Dict String :=
  .ofList [("NAME", titleField)]

theorem importTabular_respelled_fold :
    (∀ row ∈ [referencing referencesField], TableRow.Respells nameAlias
      (.ofRows nameAlias .aardvark [referencing referencesField]) Text.fold row) ∧
      (fresh .urlOnly none).importTabular
        ([referencing referencesField].map (TableRow.respelled Text.fold)) (some nameAlias) =
          (fresh .urlOnly none).importTabular [referencing referencesField] (some nameAlias) := by
  have h : ∀ row ∈ [referencing referencesField], TableRow.Respells nameAlias
      (.ofRows nameAlias .aardvark [referencing referencesField]) Text.fold row := by
    intro row hrow
    rw [List.mem_singleton.mp hrow]
    refine ⟨?_, ?_, ?_, fun _ => ?_, ?_⟩ <;> decide +kernel
  exact ⟨h, importTabular_respelled (fresh .urlOnly none) [referencing referencesField]
    (some nameAlias) Text.fold h⟩

def referenced : Resource :=
  { Resource.ofId "a" with
    scalars := .ofList [(titleField, "T")]
    distributions := [⟨"url", "u", none⟩] }

def unreferenced : Resource :=
  { Resource.ofId "a" with
    scalars := .ofList [(titleField, "T")]
    repeatables := .ofList
      [("DCT_REFERENCES_S", ["\x7b\"http://schema.org/url\": \"u\"\x7d"])] }

/-- References under the name of their field give distributions, and under that name in capitals
values. -/
theorem importTabular_losesReferences :
    Text.sameLetters "DCT_REFERENCES_S" referencesField = true ∧
      (∃ c, (fresh .urlOnly none).importTabular [referencing referencesField] (some nameAlias) =
        .ok (c, ⟨.resources, 1⟩) ∧ c.get "a" = .ok referenced) ∧
      ∃ c, (fresh .urlOnly none).importTabular [referencing "DCT_REFERENCES_S"] (some nameAlias) =
        .ok (c, ⟨.resources, 1⟩) ∧ c.get "a" = .ok unreferenced := by
  refine ⟨by decide, importTabular_fresh ?_ ?_, importTabular_fresh ?_ ?_⟩ <;> decide +kernel

end Catalog

end Gazetteer
