import Mathlib
import Gazetteer.Proofs.Interchange.Table
/-!
Tables whose columns differ in letter case only.  What a column stands for does not depend on the
case of its letters if it stands for an alias or a field; any other column has its own name, and
stands for another field if that is spelled otherwise.
-/

namespace Gazetteer

/-! What columns stand for -/

/-- Whether some alias has the name of a column, letter case aside. -/
def isAliased (aliases : Dict String) (column : String) : Bool :=
  aliases.entries.any fun entry => Text.sameLetters entry.1 (Text.trim column)

/-- Whether some alias or field has the name of a column, letter case aside. -/
def isKnown (aliases : Dict String) (schema : Schema) (column : String) : Bool :=
  isAliased aliases column ||
    schema.fields.any fun f => Text.sameLetters f.name (Text.trim column)

/-- Aliases that have the name of a column, letter case aside, stand for one field. -/
def AliasesAgree (aliases : Dict String) (column : String) : Prop :=
  ∀ a ∈ aliases.entries, ∀ b ∈ aliases.entries,
    Text.sameLetters a.1 (Text.trim column) = true →
      Text.sameLetters b.1 (Text.trim column) = true → a.2 = b.2

instance (aliases : Dict String) (column : String) : Decidable (AliasesAgree aliases column) :=
  inferInstanceAs (Decidable (∀ a ∈ aliases.entries, ∀ b ∈ aliases.entries, _ → _ → _))

section

variable {aliases : Dict String} {schema : Schema} {column other : String}

theorem sameLetters_trim (h : Text.sameLetters other column = true) (name : String) :
    Text.sameLetters name (Text.trim other) = Text.sameLetters name (Text.trim column) := by
  rw [Text.sameLetters, Text.sameLetters, Text.fold_trim, Text.fold_trim, beq_iff_eq.mp h]

theorem fieldOfColumn_alias (hagree : AliasesAgree aliases column) {entry : String × String}
    (hentry : entry ∈ aliases.entries)
    (hname : Text.sameLetters entry.1 (Text.trim column) = true) :
    fieldOfColumn aliases schema column = entry.2 := by
  rw [fieldOfColumn]
  cases hget : aliases.get? (Text.trim column) with
  | some field =>
      exact hagree _ (Dict.mem_entries_iff.mpr hget) entry hentry (Text.sameLetters_refl _) hname
  | none =>
      dsimp only
      split
      next found field hfound =>
        have hsame : Text.sameLetters found (Text.trim column) = true := by
          simpa using List.find?_some hfound
        exact hagree _ (List.mem_of_find?_eq_some hfound) entry hentry hsame hname
      next hnone => exact absurd hname (List.find?_eq_none.mp hnone entry hentry)

theorem fieldOfColumn_unaliased (h : isAliased aliases column = false) :
    fieldOfColumn aliases schema column =
      (schema.canonicalName? (Text.trim column)).getD (Text.trim column) := by
  rw [isAliased, List.any_eq_false] at h
  have hget : aliases.get? (Text.trim column) = none := by
    rw [Option.eq_none_iff_forall_ne_some]
    intro field hfield
    exact h _ (Dict.mem_entries_iff.mpr hfield) (Text.sameLetters_refl _)
  have hfind : aliases.entries.find?
      (fun entry => Text.sameLetters entry.1 (Text.trim column)) = none :=
    List.find?_eq_none.mpr h
  rw [fieldOfColumn]
  simp only [hget, hfind]

theorem fieldOfColumn_unknown (h : isKnown aliases schema column = false) :
    fieldOfColumn aliases schema column = Text.trim column := by
  obtain ⟨haliased, hfield⟩ := Bool.or_eq_false_iff.mp h
  have hcanonical : schema.canonicalName? (Text.trim column) = none := by
    rw [Schema.canonicalName?, List.find?_eq_none.mpr (List.any_eq_false.mp hfield)]
    rfl
  rw [fieldOfColumn_unaliased haliased, hcanonical, Option.getD_none]

theorem isAliased_congr (h : Text.sameLetters other column = true) :
    isAliased aliases other = isAliased aliases column := by
  simp only [isAliased, sameLetters_trim h]

theorem isKnown_congr (h : Text.sameLetters other column = true) :
    isKnown aliases schema other = isKnown aliases schema column := by
  simp only [isKnown, isAliased_congr h, sameLetters_trim h]

theorem fieldOfColumn_eq (h : Text.sameLetters other column = true)
    (hagree : AliasesAgree aliases column) (hknown : isKnown aliases schema column = true) :
    fieldOfColumn aliases schema other = fieldOfColumn aliases schema column := by
  cases haliased : isAliased aliases column with
  | true =>
      obtain ⟨entry, hentry, hname⟩ := List.any_eq_true.mp haliased
      have hagree' : AliasesAgree aliases other := by
        simpa only [AliasesAgree, sameLetters_trim h] using hagree
      have hname' : Text.sameLetters entry.1 (Text.trim other) = true := by
        rw [sameLetters_trim h, hname]
      rw [fieldOfColumn_alias hagree hentry hname, fieldOfColumn_alias hagree' hentry hname']
  | false =>
      have hcanonical : schema.canonicalName? (Text.trim other) =
          schema.canonicalName? (Text.trim column) := by
        simp only [Schema.canonicalName?, sameLetters_trim h]
      obtain ⟨f, hf, hname⟩ : ∃ f ∈ schema.fields,
          Text.sameLetters f.name (Text.trim column) = true := by
        rw [isKnown, haliased, Bool.false_or] at hknown
        exact List.any_eq_true.mp hknown
      have hsome : (schema.canonicalName? (Text.trim column)).isSome = true := by
        rw [Schema.canonicalName?, Option.isSome_map, List.find?_isSome]
        exact ⟨f, hf, hname⟩
      obtain ⟨canonical, hfound⟩ := Option.isSome_iff_exists.mp hsome
      rw [fieldOfColumn_unaliased haliased,
        fieldOfColumn_unaliased ((isAliased_congr h).trans haliased), hcanonical, hfound,
        Option.getD_some, Option.getD_some]

/-- Whatever it is, in another case it stands for the same field up to case. -/
theorem fold_fieldOfColumn (h : Text.sameLetters other column = true)
    (hagree : AliasesAgree aliases column) :
    Text.fold (fieldOfColumn aliases schema other) =
      Text.fold (fieldOfColumn aliases schema column) := by
  cases hknown : isKnown aliases schema column with
  | true => rw [fieldOfColumn_eq h hagree hknown]
  | false =>
      rw [fieldOfColumn_unknown hknown, fieldOfColumn_unknown ((isKnown_congr h).trans hknown),
        Text.fold_trim, Text.fold_trim, beq_iff_eq.mp h]

end

namespace TableKind

theorem ofFields_congr {fields others : List String}
    (h : ∀ name, name ∈ others.map Text.fold ↔ name ∈ fields.map Text.fold) :
    ofFields others = ofFields fields := by
  have hnames (names : List String) :
      names.map (fun field => Text.fold (Text.trim field)) =
        (names.map Text.fold).map Text.trim := by
    rw [List.map_map]
    exact List.map_congr_left fun name _ => Text.fold_trim name
  have hcontains (name : String) :
      (others.map fun field => Text.fold (Text.trim field)).contains name =
        (fields.map fun field => Text.fold (Text.trim field)).contains name := by
    rw [Bool.eq_iff_iff, List.contains_iff_mem, List.contains_iff_mem, hnames, hnames,
      List.mem_map, List.mem_map]
    simp only [h]
  simp only [ofFields, hcontains]

def searched : TableKind → List String
  | resources => ["id"]
  | distributions => ["id", "type", "url", "label"]
  | unrecognized => []

/-- Whether two names are one field to a table of some kind. -/
def SameField (kind : TableKind) (a b : String) : Prop :=
  a = b ∨ ∃ name ∈ kind.searched,
    Text.sameLetters a name = true ∧ Text.sameLetters b name = true

instance (kind : TableKind) (a b : String) : Decidable (kind.SameField a b) :=
  inferInstanceAs (Decidable (a = b ∨ ∃ name ∈ kind.searched, _ ∧ _))

end TableKind

/-! Cells in any order -/

namespace FieldCells

variable {config : Config} {cells others : FieldCells} {kind : TableKind}

/-- Cells of which no two stand under one field. -/
def Apart (kind : TableKind) (cells : FieldCells) : Prop :=
  cells.Pairwise fun a b => ¬kind.SameField a.1 b.1

theorem Apart.nodup (h : cells.Apart kind) : (cells.map Prod.fst).Nodup :=
  List.pairwise_map.mpr (h.imp fun hnot heq => hnot (Or.inl heq))

theorem cell?_eq_of_perm (hperm : cells.Perm others) {name : String}
    (hunique : cells.Pairwise fun a b =>
      ¬(Text.sameLetters a.1 name = true ∧ Text.sameLetters b.1 name = true)) :
    others.cell? name = cells.cell? name := by
  rw [cell?, cell?, find?_eq_of_perm hperm hunique]

private theorem nodup_filterMap {α : Type} {give : String × String → Option (String × α)}
    (hgive : ∀ cell entry, give cell = some entry → entry.1 = cell.1) (h : cells.Apart kind) :
    ((cells.filterMap give).map Prod.fst).Nodup := by
  rw [List.Nodup, List.pairwise_map, List.pairwise_filterMap]
  refine (List.pairwise_map.mp h.nodup).imp fun hne a ha b hb heq => hne ?_
  rw [← hgive _ a ha, heq, hgive _ b hb]

theorem Apart.described (h : cells.Apart kind) (hperm : cells.Perm others) (id : String) :
    others.described id = cells.described id := by
  have hscalars := nodup_filterMap (fun _ _ => fst_of_scalar?) h
  have hvalues := nodup_filterMap (fun _ _ => fst_of_values?) h
  rw [FieldCells.described, FieldCells.described,
    Dict.ofList_eq_of_perm (hperm.filterMap scalar?) hscalars,
    Dict.ofList_eq_of_perm (hperm.filterMap values?) hvalues]

theorem Apart.references (h : cells.Apart kind) (hperm : cells.Perm others) (config : Config) :
    others.references config = cells.references config := by
  have hlength : (cells.filterMap (references? config)).length ≤ 1 := by
    have hfield : ∀ cell, (references? config cell).isSome = true → cell.1 = referencesField := by
      intro cell hsome
      obtain ⟨ds, hds⟩ := Option.isSome_iff_exists.mp hsome
      rw [references?, Option.ite_none_right_eq_some, Bool.and_eq_true, beq_iff_eq] at hds
      exact hds.1.1
    rw [List.length_filterMap_eq_countP, List.countP_eq_length_filter]
    refine length_filter_le_one ((List.pairwise_map.mp h.nodup).imp fun hne hsome => hne ?_)
    exact (hfield _ hsome.1).trans (hfield _ hsome.2).symm
  rw [FieldCells.references, FieldCells.references,
    eq_of_perm_of_length_le_one (hperm.filterMap (references? config)) hlength]

theorem Apart.resource? (h : cells.Apart .resources) (hperm : cells.Perm others)
    (config : Config) : others.resource? .aardvark config = cells.resource? .aardvark config := by
  have hid : others.cell? "id" = cells.cell? "id" :=
    cell?_eq_of_perm hperm (h.imp fun hnot hsame => hnot (Or.inr ⟨"id", by decide, hsame⟩))
  rw [resource?_eq, resource?_eq, hid, h.references hperm]
  exact congrArg (fun make => (cells.cell? "id").map make) (funext fun id => by
    rw [h.described hperm])

theorem distribution?_congr (config : Config)
    (h : ∀ name ∈ TableKind.distributions.searched, others.cell? name = cells.cell? name) :
    others.distribution? config = cells.distribution? config := by
  simp only [TableKind.searched, List.forall_mem_cons] at h
  obtain ⟨hid, htype, hurl, hlabel, -⟩ := h
  rw [distribution?, distribution?, hid, htype, hurl, hlabel]

theorem cell?_map_congr {entries : List (String × String)} {f g : String → String} {name : String}
    (h : ∀ entry ∈ entries, Text.fold (f entry.1) = Text.fold (g entry.1)) :
    cell? (entries.map fun entry => (f entry.1, entry.2)) name =
      cell? (entries.map fun entry => (g entry.1, entry.2)) name := by
  have hsame : ∀ entry ∈ entries, Text.sameLetters (f entry.1) name =
      Text.sameLetters (g entry.1) name := fun entry hentry => by
    rw [Text.sameLetters, Text.sameLetters, h entry hentry]
  have hfind := List.find?_congr hsame
  simp only [cell?, List.find?_map, Function.comp_def, hfind]
  cases entries.find? fun entry => Text.sameLetters (g entry.1) name <;> rfl

end FieldCells

/-! Rows whose columns are spelled otherwise -/

namespace TableRow

def respelled (rename : String → String) (row : TableRow) : TableRow :=
  .ofList (row.entries.map fun entry => (rename entry.1, entry.2))

/-- Columns of a row spelled in another letter case. -/
structure Respells (aliases : Dict String) (kind : TableKind) (rename : String → String)
    (row : TableRow) : Prop where
  letters : ∀ column ∈ row.keys, Text.sameLetters (rename column) column = true
  distinct : ∀ a ∈ row.keys, ∀ b ∈ row.keys, rename a = rename b → a = b
  agree : ∀ column ∈ row.keys, AliasesAgree aliases column
  /-- A column that is neither an alias nor a field keeps its name. -/
  unknown : kind = .resources → ∀ column ∈ row.keys,
    isKnown aliases .aardvark column = false → rename column = column
  apart : ∀ a ∈ row.keys, ∀ b ∈ row.keys, kind.SameField (fieldOfColumn aliases .aardvark a)
    (fieldOfColumn aliases .aardvark b) → a = b

variable {aliases : Dict String} {kind : TableKind} {rename : String → String} {row : TableRow}

private theorem mem_keys {entry : String × String} (h : entry ∈ row.entries) :
    entry.1 ∈ row.keys :=
  List.mem_map_of_mem h

/-- Cells of one row are cells of distinct columns. -/
private theorem pairwise_cells (field : String → String)
    {R : String × String → String × String → Prop}
    (h : ∀ a ∈ row.keys, ∀ b ∈ row.keys, a ≠ b → ∀ v w, R (field a, v) (field b, w)) :
    (row.entries.map fun entry => (field entry.1, entry.2)).Pairwise R := by
  refine List.pairwise_map.mpr ((List.pairwise_map.mp row.nodup_keys).imp_of_mem ?_)
  intro a b ha hb hne
  exact h _ (mem_keys ha) _ (mem_keys hb) hne _ _

namespace Respells

theorem nodup (h : Respells aliases kind rename row) :
    ((row.entries.map fun entry => (rename entry.1, entry.2)).map Prod.fst).Nodup := by
  have hnodup := List.Nodup.map_on (fun a ha b hb => h.distinct a ha b hb) row.nodup_keys
  rw [Dict.keys, List.map_map] at hnodup
  rw [List.map_map]
  exact hnodup

theorem fold_field (h : Respells aliases kind rename row) {column : String}
    (hcolumn : column ∈ row.keys) :
    Text.fold (fieldOfColumn aliases .aardvark (rename column)) =
      Text.fold (fieldOfColumn aliases .aardvark column) :=
  fold_fieldOfColumn (h.letters column hcolumn) (h.agree column hcolumn)

theorem perm_folded (h : Respells aliases kind rename row) :
    (((row.respelled rename).keys.map (fieldOfColumn aliases .aardvark)).map Text.fold).Perm
      ((row.keys.map (fieldOfColumn aliases .aardvark)).map Text.fold) := by
  have hkeys : (row.respelled rename).keys.Perm (row.keys.map rename) := by
    have hperm := (Dict.perm_entries_ofList h.nodup).map Prod.fst
    rw [List.map_map] at hperm
    rw [Dict.keys, Dict.keys, List.map_map]
    exact hperm
  have hfields : ((row.keys.map rename).map (fieldOfColumn aliases .aardvark)).map Text.fold =
      (row.keys.map (fieldOfColumn aliases .aardvark)).map Text.fold := by
    rw [List.map_map, List.map_map, List.map_map]
    exact List.map_congr_left fun column hcolumn => h.fold_field hcolumn
  exact hfields ▸ (hkeys.map _).map _

theorem perm_ofRow (h : Respells aliases kind rename row) :
    (FieldCells.ofRow aliases .aardvark (row.respelled rename)).Perm (row.entries.map fun entry =>
      (fieldOfColumn aliases .aardvark (rename entry.1), entry.2)) := by
  have hperm := (Dict.perm_entries_ofList h.nodup).map fun entry =>
    (fieldOfColumn aliases .aardvark entry.1, entry.2)
  rw [List.map_map] at hperm
  exact hperm

theorem apart_ofRow (h : Respells aliases kind rename row) :
    (FieldCells.ofRow aliases .aardvark row).Apart kind :=
  pairwise_cells _ fun a ha b hb hne _ _ hsame => hne (h.apart a ha b hb hsame)

theorem fields_resources (h : Respells aliases .resources rename row) :
    (row.entries.map fun entry => (fieldOfColumn aliases .aardvark (rename entry.1), entry.2)) =
      FieldCells.ofRow aliases .aardvark row := by
  refine List.map_congr_left fun entry hentry => ?_
  have hkey := mem_keys hentry
  cases hknown : isKnown aliases .aardvark entry.1 with
  | true => rw [fieldOfColumn_eq (h.letters _ hkey) (h.agree _ hkey) hknown]
  | false => rw [h.unknown rfl _ hkey hknown]

theorem resource? (h : Respells aliases .resources rename row) (config : Config) :
    (FieldCells.ofRow aliases .aardvark (row.respelled rename)).resource? .aardvark config =
      (FieldCells.ofRow aliases .aardvark row).resource? .aardvark config := by
  have hperm := h.perm_ofRow
  rw [h.fields_resources] at hperm
  exact h.apart_ofRow.resource? hperm.symm config

theorem distribution? (h : Respells aliases .distributions rename row) (config : Config) :
    (FieldCells.ofRow aliases .aardvark (row.respelled rename)).distribution? config =
      (FieldCells.ofRow aliases .aardvark row).distribution? config := by
  refine FieldCells.distribution?_congr config fun name hname => ?_
  let spelled (column : String) : String := fieldOfColumn aliases .aardvark (rename column)
  refine (FieldCells.cell?_eq_of_perm h.perm_ofRow.symm ?_).trans
    (FieldCells.cell?_map_congr (g := fieldOfColumn aliases .aardvark) (f := spelled)
      fun entry hentry => h.fold_field (mem_keys hentry))
  -- two cells that answer to one name are of columns that stand for one field
  refine pairwise_cells spelled fun a ha b hb hne _ _ hsame =>
    hne (h.apart a ha b hb (Or.inr ?_))
  rw [Text.sameLetters, Text.sameLetters, h.fold_field ha, h.fold_field hb] at hsame
  exact ⟨name, hname, hsame⟩

end Respells

end TableRow

theorem TableKind.ofRows_respelled {aliases : Dict String} {rows : List TableRow}
    {rename : String → String} {kind : TableKind}
    (h : ∀ row ∈ rows, TableRow.Respells aliases kind rename row) :
    ofRows aliases .aardvark (rows.map (TableRow.respelled rename)) =
      ofRows aliases .aardvark rows := by
  refine ofFields_congr fun name => ?_
  rw [List.map_flatMap, List.map_flatMap, List.flatMap_map, List.mem_flatMap, List.mem_flatMap]
  exact exists_congr fun row => and_congr_right fun hrow => (h row hrow).perm_folded.mem_iff

end Gazetteer
