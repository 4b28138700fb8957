import Mathlib
import Gazetteer.Proofs.Catalog.Storage
import Gazetteer.Proofs.Query.Page
import Gazetteer.Proofs.Text.Part
import Gazetteer.Proofs.Text.Words
/-!
Free text finds what was written: a stretch of a searchable value, typed as it stands there, finds
the resource.  Values and terms are lowercased each for themselves, so this holds of a stretch
whose capital sigmas keep their place in the word.  A NUL in a value hides what is searched after
it.
-/

namespace Gazetteer

namespace Text

theorem words_of_no_blank {w : String} (hempty : w ≠ "")
    (hblank : ∀ c ∈ w.toList, isBlank c = false) : words w = [w] := by
  have hfilled : w.toList.isEmpty = false := by
    rw [List.isEmpty_eq_false_iff, ne_eq, String.toList_eq_nil_iff]
    exact hempty
  simp only [words, pieces_eq_singleton hblank, List.filter_cons, hfilled, Bool.not_false, if_true,
    List.filter_nil, List.map_cons, List.map_nil, String.ofList_toList]

theorem allBlank_of_stretch {v w : String} {before after : List Char}
    (hw : v.toList = before ++ w.toList ++ after) (hempty : w ≠ "")
    (hblank : ∀ c ∈ w.toList, isBlank c = false) : allBlank v = false := by
  obtain ⟨c, hc⟩ := List.exists_mem_of_ne_nil w.toList
    fun hnil => hempty (String.toList_eq_nil_iff.mp hnil)
  refine List.all_eq_false.mpr ⟨c, ?_, ?_⟩
  · rw [hw]
    exact List.mem_append_left _ (List.mem_append_right _ hc)
  · rw [hblank c hc]
    exact Bool.false_ne_true

end Text

private theorem infix_intercalate {part : List Char} {parts : List (List Char)} (h : part ∈ parts)
    (gap : List Char) : part <:+: List.intercalate gap parts := by
  induction parts with
  | nil => exact absurd h List.not_mem_nil
  | cons first rest ih =>
      cases rest with
      | nil =>
          rw [List.mem_singleton.mp h, List.intercalate_singleton]
      | cons second rest =>
          rw [List.intercalate_cons_cons]
          rcases List.mem_cons.mp h with rfl | hrest
          · rw [List.append_assoc]
            exact (List.prefix_append _ _).isInfix
          · exact (ih hrest).trans (List.suffix_append _ _).isInfix

private theorem forall_mem_intercalate {P : Char → Prop} {gap : List Char} {parts : List (List Char)}
    (hgap : ∀ c ∈ gap, P c) (hparts : ∀ part ∈ parts, ∀ c ∈ part, P c) :
    ∀ c ∈ List.intercalate gap parts, P c := by
  induction parts with
  | nil => exact fun c hc => absurd hc List.not_mem_nil
  | cons first rest ih =>
      obtain ⟨hfirst, hrest⟩ := List.forall_mem_cons.mp hparts
      cases rest with
      | nil =>
          rw [List.intercalate_singleton]
          exact hfirst
      | cons second rest =>
          rw [List.intercalate_cons_cons]
          exact List.forall_mem_append.mpr
            ⟨List.forall_mem_append.mpr ⟨hfirst, hgap⟩, ih hrest⟩

namespace Schema

variable {r : Resource}

private theorem searchable_kinds : ∀ f ∈ searchableFields .aardvark,
    isScalar .aardvark f.name = (f.kind == .scalar) ∧ f.name ≠ "id" := by
  decide

theorem mem_searchParts {f : Field} (hf : f ∈ searchableFields .aardvark) {v : String}
    (hv : v ∈ r.texts f.name) (hblank : Text.allBlank v = false) :
    v ∈ searchParts .aardvark r := by
  obtain ⟨hscalar, hid⟩ := searchable_kinds f hf
  refine List.mem_filter.mpr ⟨List.mem_flatMap.mpr ⟨f, hf, ?_⟩, by rw [hblank]; rfl⟩
  rw [Resource.texts, hscalar, Resource.value?, if_neg hid] at hv
  cases hkind : f.kind with
  | scalar =>
      rw [hkind] at hv
      exact hv
  | repeatable =>
      rw [hkind] at hv
      exact hv

theorem ne_nul_of_mem_searchContent
    (h : ∀ part ∈ searchParts .aardvark r, ∀ c ∈ part.toList, c.toNat ≠ 0) :
    ∀ c ∈ (searchContent .aardvark r).toList, c.toNat ≠ 0 := by
  apply Text.ne_nul_of_mem_lowercase
  rw [String.toList_intercalate]
  apply forall_mem_intercalate
  · exact List.forall_mem_singleton.mpr (by decide)
  · exact List.forall_mem_map.mpr h

theorem infix_searchContent {part : String} (h : part ∈ searchParts .aardvark r) :
    (Text.lowercase part).toList <:+: (searchContent .aardvark r).toList := by
  have hpart : (Text.lowercase part).toList ∈
      (searchParts .aardvark r).map fun part => (Text.lowercase part).toList :=
    List.mem_map.mpr ⟨part, h, rfl⟩
  rw [searchContent, Text.toList_lowercase_intercalate]
  exact infix_intercalate hpart _

/-- A stretch of a value occurs in the searched text, if its sigmas allow. -/
theorem occurs_searchContent
    (hnul : ∀ part ∈ searchParts .aardvark r, ∀ c ∈ part.toList, c.toNat ≠ 0)
    {v : String} (hv : v ∈ searchParts .aardvark r) {before after : List Char} {w : String}
    (hw : v.toList = before ++ w.toList ++ after)
    (hsigma : Text.KeepsSigmas before w.toList after) :
    Text.Occurs (Text.lowercase w) (searchContent .aardvark r) := by
  have hterm : ∀ c ∈ w.toList, c.toNat ≠ 0 := by
    intro c hc
    apply hnul v hv
    rw [hw]
    exact List.mem_append_left _ (List.mem_append_right _ hc)
  rw [Text.occurs_iff_infix (Text.ne_nul_of_mem_lowercase hterm)
    (ne_nul_of_mem_searchContent hnul)]
  exact (Text.infix_lowercase hw hsigma).trans (infix_searchContent hv)

end Schema

/-- A stretch of a searchable value, without blanks, finds the resource that has the value. -/
theorem Session.Reachable.search_finds {s : Session} (h : s.Reachable) {id : String} {r : Resource}
    (hr : s.catalog.get id = .ok r)
    (hnul : ∀ part ∈ Schema.searchParts .aardvark r, ∀ c ∈ part.toList, c.toNat ≠ 0)
    {f : Field} (hf : f ∈ Schema.searchableFields .aardvark) {v : String} (hv : v ∈ r.texts f.name)
    {before after : List Char} {w : String} (hw : v.toList = before ++ w.toList ++ after)
    (hempty : w ≠ "") (hblank : ∀ c ∈ w.toList, Text.isBlank c = false)
    (hsigma : Text.KeepsSigmas before w.toList after) (size : Nat) :
    ∃ found, s.catalog.search ((Request.everything.withQuery w).withPage size 0) = .ok found ∧
      (found.total ≤ size → r ∈ found.results) := by
  obtain ⟨L, hL, hc⟩ := h.ledger
  let q := Request.everything.withQuery w
  obtain ⟨p, hp⟩ : ∃ p, q.predicate .aardvark none (L.hits q).isNone = .ok p :=
    Request.exists_predicate_iff.mpr fun field condition hget => nomatch hget
  have hkeys : q.sortKeys .aardvark = .ok SortKeys.closing := rfl
  obtain ⟨listing, answer, hlisting, hpages⟩ := Catalog.exists_pages hc hL rfl hkeys hp
  refine ⟨{ answer ⟨size, 0⟩ with facets := .empty }, hpages.plain ⟨size, 0⟩, fun htotal => ?_⟩
  have hlength : listing.length ≤ size := (hpages.total ⟨size, 0⟩).symm.trans_le htotal
  change r ∈ (answer ⟨size, 0⟩).results
  rw [hpages.results_of_le hlength, hlisting.mem]
  obtain ⟨stored, hstored, rfl, rfl⟩ := (Catalog.get_eq_ok hc hL).mp hr
  refine ⟨hr, L.database, Schema.searchContent .aardvark stored, hc,
    (Catalog.storesSearchText_iff hL hstored).mpr rfl, ⟨?_, fun box hbox => nomatch hbox⟩,
    fun field condition hget => nomatch hget⟩
  have hvisible := Text.allBlank_of_stretch hw hempty hblank
  have hpart := (L.mem_searchParts_record stored v).mp (Schema.mem_searchParts hf hv hvisible)
  have hfree : ∀ part ∈ Schema.searchParts .aardvark stored, ∀ c ∈ part.toList, c.toNat ≠ 0 :=
    fun part hpart => hnul part ((L.mem_searchParts_record stored part).mpr hpart)
  intro query hquery term hterm
  cases hquery
  rw [Text.words_of_no_blank hempty hblank, List.mem_singleton] at hterm
  subst hterm
  exact Schema.occurs_searchContent hfree hpart hw hsigma

theorem Session.search_finds_word :
    let r : Resource := (Resource.ofId "a").setScalar titleField "Η ΟΔΟΣ 100%"
    let s := afterUpsert r []
    ∃ found, s.catalog.search ((Request.everything.withQuery "ΟΔΟΣ").withPage 1 0) = .ok found ∧
      (found.total ≤ 1 → r ∈ found.results) := by
  intro r s
  have h : s.Reachable := reachable_afterUpsert (by decide) []
  have hr : s.catalog.get "a" = .ok r := by decide +kernel
  have hnul : ∀ part ∈ Schema.searchParts .aardvark r, ∀ c ∈ part.toList, c.toNat ≠ 0 := by
    have hparts : Schema.searchParts .aardvark r = ["Η ΟΔΟΣ 100%"] := by decide +kernel
    rw [hparts]
    simp
  have hf : (⟨titleField, .scalar, false, true⟩ : Field) ∈ Schema.searchableFields .aardvark := by
    decide
  have hv : "Η ΟΔΟΣ 100%" ∈ r.texts titleField := by decide
  have hw : "Η ΟΔΟΣ 100%".toList =
      ['Η', ' '] ++ "ΟΔΟΣ".toList ++ [' ', '1', '0', '0', '%'] := by
    decide +kernel
  have hsigma : Text.KeepsSigmas ['Η', ' '] "ΟΔΟΣ".toList [' ', '1', '0', '0', '%'] :=
    Text.keepsSigmas_of_word (by simp [Text.isBlank]) (by simp [Text.isBlank]) _
  exact h.search_finds hr hnul hf hv hw (by decide) (by simp [Text.isBlank]) hsigma 1

/-- A term that ends within a word of the title, in a sigma. -/
theorem Session.search_missesSigma :
    let r : Resource := (Resource.ofId "a").setScalar titleField "ΑΣΑ"
    let s := afterUpsert r []
    s.Reachable ∧ s.catalog.get "a" = .ok r ∧ "ΑΣΑ" ∈ r.texts titleField ∧
      "ΑΣ".toList <+: "ΑΣΑ".toList ∧
        s.catalog.search ((Request.everything.withQuery "ΑΣ").withPage 10 0) =
          .ok ⟨[], .empty, 0⟩ := by
  intro r s
  have h : s.Reachable := reachable_afterUpsert (by decide) []
  refine ⟨h, ?_, ?_, ?_, ?_⟩
  · decide +kernel
  · decide
  · decide
  · decide +kernel

end Gazetteer
