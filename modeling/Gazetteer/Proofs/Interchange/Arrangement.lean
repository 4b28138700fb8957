import Mathlib
import Gazetteer.Proofs.Interchange.Grouping
/-!
The order in which distributions come back.  The fields of a references record stand in the order
of their addresses, so the relations come back in that order, whichever of them appeared first.
-/

namespace Gazetteer.References

variable {config : Config} {ds es : List Distribution}

/-- Distributions relation by relation, the relations in the order of their addresses. -/
structure Arranged (config : Config) (ds es : List Distribution) : Prop where
  same : (relations es).Perm (relations ds)
  ascending : (relations es).Pairwise fun a b =>
    config.relationAddress a < config.relationAddress b
  blocks : es = (relations es).flatMap fun relation => ds.filter fun d => d.relation == relation

theorem Arranged.relations_eq_iff (h : Arranged config ds es) : relations es = relations ds ↔
    (relations ds).Pairwise fun a b => config.relationAddress a < config.relationAddress b := by
  constructor
  · intro heq
    exact heq ▸ h.ascending
  · intro hascending
    refine h.same.eq_of_pairwise (fun a b _ _ hab hba => ?_) h.ascending hascending
    exact absurd (String.lt_trans hab hba) (String.lt_irrefl _)

/-! The relations of blocks -/

theorem relations_append {relation : String} {block rest : List Distribution} (hne : block ≠ [])
    (hblock : ∀ d ∈ block, d.relation = relation) (hrest : ∀ d ∈ rest, d.relation ≠ relation) :
    relations (block ++ rest) = relation :: relations rest := by
  obtain ⟨first, more, rfl⟩ := List.exists_cons_of_ne_nil hne
  obtain ⟨hfirst, hmore⟩ := List.forall_mem_cons.mp hblock
  have hdropped :
      (more.map Distribution.relation).filter (fun other => !other == relation) = [] := by
    rw [List.filter_eq_nil_iff, List.forall_mem_map]
    intro d hd
    simpa using hmore d hd
  have hkept : (rest.map Distribution.relation).filter (fun other => !other == relation) =
      rest.map Distribution.relation := by
    rw [List.filter_eq_self, List.forall_mem_map]
    intro d hd
    simpa using hrest d hd
  rw [relations, List.cons_append, List.map_cons, List.map_append, List.eraseDups_cons, hfirst,
    List.filter_append, hdropped, hkept, List.nil_append, relations]

theorem relations_blocks {found : List String} (hnodup : found.Nodup)
    (hfound : ∀ relation ∈ found, relation ∈ relations ds) :
    relations (found.flatMap fun relation => ds.filter fun d => d.relation == relation) =
      found := by
  induction found with
  | nil => rfl
  | cons relation rest ih =>
      obtain ⟨hnew, hrest⟩ := List.nodup_cons.mp hnodup
      obtain ⟨hmem, hmore⟩ := List.forall_mem_cons.mp hfound
      have hne : ds.filter (fun d => d.relation == relation) ≠ [] := by
        obtain ⟨d, hd, hrelation⟩ := mem_relations.mp hmem
        exact List.ne_nil_of_mem (List.mem_filter.mpr ⟨hd, beq_iff_eq.mpr hrelation⟩)
      rw [List.flatMap_cons, relations_append hne, ih hrest hmore]
      · intro d hd
        exact beq_iff_eq.mp (List.mem_filter.mp hd).2
      · intro d hd heq
        obtain ⟨other, hother, hd⟩ := List.mem_flatMap.mp hd
        have hsame : d.relation = other := beq_iff_eq.mp (List.mem_filter.mp hd).2
        exact hnew (heq ▸ hsame ▸ hother)

theorem relations_perm (h : es.Perm ds) : (relations es).Perm (relations ds) := by
  refine (List.perm_ext_iff_of_nodup (nodup_eraseDups _) (nodup_eraseDups _)).mpr fun relation => ?_
  change relation ∈ relations es ↔ relation ∈ relations ds
  simp only [mem_relations, h.mem_iff]

/-! What is read back -/

/-- The relations of the fields of a record, one field after the other. -/
def fieldRelations (config : Config) (ds : List Distribution) : List String :=
  (byAddress config ds).entries.map fun group => config.relationKey group.1

theorem mem_relations_of_mem_fieldRelations (h : ∀ d ∈ ds, d.Regular config) {relation : String}
    (hrelation : relation ∈ fieldRelations config ds) : relation ∈ relations ds := by
  obtain ⟨group, hgroup, rfl⟩ := List.mem_map.mp hrelation
  have hget : (byAddress config ds).get? group.1 = some group.2 := Dict.mem_entries_iff.mp hgroup
  rw [get?_byAddress_last] at hget
  obtain ⟨last, hlast, -⟩ := Option.map_eq_some_iff.mp hget
  have hmem : last ∈ relations ds := (List.mem_filter.mp (List.mem_of_getLast? hlast)).1
  obtain ⟨d, hd, rfl⟩ := mem_relations.mp hmem
  have hkey : config.relationKey group.1 = d.relation :=
    relationAddress_of_last hlast ▸ (h d hd).relation
  rwa [hkey]

theorem ascending_fieldRelations (h : ∀ d ∈ ds, d.Regular config) :
    (fieldRelations config ds).Pairwise fun a b =>
      config.relationAddress a < config.relationAddress b := by
  rw [fieldRelations, List.pairwise_map]
  refine (byAddress config ds).ascending.imp_of_mem fun {a b} ha hb hlt => ?_
  rwa [(mem_byAddress h ha).1, (mem_byAddress h hb).1]

theorem reread_eq_blocks (h : ∀ d ∈ ds, d.Regular config) : reread config ds =
    (fieldRelations config ds).flatMap fun relation =>
      ds.filter fun d => d.relation == relation := by
  rw [reread_eq h, fieldRelations, List.flatMap_map]
  exact List.flatMap_congr fun group hgroup => (mem_byAddress h hgroup).2

theorem relations_reread (h : ∀ d ∈ ds, d.Regular config) :
    relations (reread config ds) = fieldRelations config ds := by
  have hnodup : (fieldRelations config ds).Nodup := by
    refine (ascending_fieldRelations h).imp fun hlt heq => ?_
    rw [heq] at hlt
    exact String.lt_irrefl _ hlt
  rw [reread_eq_blocks h]
  exact relations_blocks hnodup fun _ hmem => mem_relations_of_mem_fieldRelations h hmem

theorem arranged_reread (h : ∀ d ∈ ds, d.Regular config) :
    Arranged config ds (reread config ds) where
  same := relations_perm (agree_reread h).perm
  ascending := by
    rw [relations_reread h]
    exact ascending_fieldRelations h
  blocks := by
    rw [relations_reread h]
    exact reread_eq_blocks h

/-- Distributions are read back with the relations in the order of their addresses, which is that
in which they first appear only if these are ascending there. -/
theorem read_arranged (hrelation : ∀ d ∈ ds, ∃ address, config.relationKey address = d.relation)
    (hurl : ∀ d ∈ ds, Text.trim d.url = d.url ∧ d.url ≠ "")
    (hlabel : ∀ d ∈ ds, ∀ label ∈ d.label, Text.allBlank label = false) :
    ∃ es, read config (Json.ofOption .text (References.text? config ds)) = .ok es ∧
      Arranged config ds es ∧ (relations es = relations ds ↔
        (relations ds).Pairwise fun a b =>
          config.relationAddress a < config.relationAddress b) := by
  have hregular : ∀ d ∈ ds, d.Regular config := fun d hd =>
    ⟨config.isKey_iff.mpr (hrelation d hd), (hurl d hd).1, (hurl d hd).2, hlabel d hd⟩
  have harranged := arranged_reread hregular
  exact ⟨_, read_text? config ds, harranged, harranged.relations_eq_iff⟩

def laterFirst : List Distribution :=
  [⟨"wms", "w", none⟩, ⟨"download", "d", none⟩]

theorem reread_laterFirst :
    (∀ d ∈ laterFirst,
        Config.standard.relationKey (Config.standard.relationAddress d.relation) = d.relation) ∧
      reread .standard laterFirst = laterFirst.reverse := by
  -- together, so that the table of relations is evaluated once
  decide +kernel

theorem relationKey_laterFirst :
    ∀ d ∈ laterFirst, ∃ address, Config.standard.relationKey address = d.relation :=
  fun d hd => ⟨_, reread_laterFirst.1 d hd⟩

theorem read_arranged_laterFirst :
    ∃ es, read .standard (Json.ofOption .text (References.text? .standard laterFirst)) = .ok es ∧
      Arranged .standard laterFirst es ∧ (relations es = relations laterFirst ↔
        (relations laterFirst).Pairwise fun a b =>
          Config.standard.relationAddress a < Config.standard.relationAddress b) := by
  have hurl : ∀ d ∈ laterFirst, Text.trim d.url = d.url ∧ d.url ≠ "" := by decide
  have hlabel : ∀ d ∈ laterFirst, ∀ label ∈ d.label, Text.allBlank label = false := by decide
  exact read_arranged relationKey_laterFirst hurl hlabel

/-- The relation that appears first comes back last. -/
theorem read_movesRelation :
    (∀ d ∈ laterFirst, (∃ address, Config.standard.relationKey address = d.relation) ∧
        Text.trim d.url = d.url ∧ d.url ≠ "" ∧ ∀ label ∈ d.label, Text.allBlank label = false) ∧
      ∃ text es, References.text? .standard laterFirst = some text ∧
        read .standard (.text text) = .ok es ∧ relations laterFirst = ["wms", "download"] ∧
          relations es = ["download", "wms"] := by
  constructor
  · intro d hd
    have hplain : ∀ d ∈ laterFirst, Text.trim d.url = d.url ∧ d.url ≠ "" ∧
        ∀ label ∈ d.label, Text.allBlank label = false := by
      decide
    exact ⟨relationKey_laterFirst d hd, hplain d hd⟩
  · refine ⟨_, laterFirst.reverse, rfl, ?_, by decide, by decide⟩
    rw [read_text, reread_laterFirst.2]

end Gazetteer.References
