import Mathlib
import Gazetteer.Proofs.Query.Search
import Gazetteer.Proofs.Text.Trim
/-!
The hit set: joining the ids that pass free text and box selects the same rows as testing free text
and box along with the rest.
-/

namespace Gazetteer

open Layout

namespace Request

variable {q : Request}

theorem terms_ne_nil {text : String} (h : q.textQuery? = some text) : q.terms ≠ [] := by
  obtain ⟨htext, hempty⟩ := Option.filter_eq_some_iff.mp h
  obtain ⟨query, -, rfl⟩ := Option.map_eq_some_iff.mp htext
  have hblank : Text.allBlank (Text.trim query) = false := by
    rw [Text.allBlank_eq_false_iff, Text.trim_trim]
    simpa using hempty
  simp only [terms, h]
  exact fun hnil => Text.words_ne_nil hblank (List.map_eq_nil_iff.mp hnil)

theorem globalClause_eq_nil_iff : q.globalClause = [] ↔ q.isGlobal = false := by
  rw [globalClause, isGlobal]
  cases q.textQuery? <;> cases q.box <;> simp

theorem predicate_withGlobal {s : Schema} (hq : q.isGlobal = true) (omitted : Option String) :
    q.predicate s omitted true = (q.predicate s omitted false).map (q.globalClause :: ·) := by
  have hclause : q.globalClause.isEmpty = false := by
    rw [List.isEmpty_eq_false_iff, ne_eq, globalClause_eq_nil_iff, hq]
    exact Bool.noConfusion
  rw [predicate, predicate, hclause]
  cases fieldClauses s omitted q.filters.entries <;> rfl

end Request

/-! The text of all conditions at once -/

namespace Fragment

/-- All conditions at once begin with a bracket, which the condition that always holds does not. -/
theorem isTruth_conjunction (parts : List Fragment) :
    (conjunction parts).isTruth = parts.isEmpty := by
  cases parts with
  | nil => rfl
  | cons part rest =>
      have hhead : ∃ tail, (conjunction (part :: rest)).sql.toList = '(' :: tail := by
        cases rest <;>
          exact ⟨_, by
            simp only [conjunction, List.isEmpty_cons, Bool.false_eq_true, if_false, List.map_cons,
              List.map_nil, String.intercalate_cons_cons, String.intercalate_singleton,
              String.toList_append]
            rfl⟩
      obtain ⟨tail, htail⟩ := hhead
      rw [List.isEmpty_cons, isTruth, beq_eq_false_iff_ne]
      intro hsql
      rw [hsql] at htail
      exact absurd (List.cons.inj htail).1 (by decide)

end Fragment

theorem Request.isTruth_globalClause (q : Request) :
    q.globalClause.fragment.isTruth = !q.isGlobal := by
  rw [Clause.fragment, Fragment.isTruth_conjunction, List.isEmpty_map, Bool.eq_iff_iff,
    List.isEmpty_iff, globalClause_eq_nil_iff, Bool.not_eq_true']

/-! The two ways to select -/

theorem Ledger.selected_hits {L : Ledger} (h : L.Sound) {q : Request} (hq : q.isGlobal = true)
    (p : Predicate) :
    L.database.selected (some ((L.passing q).map fun r => .text r.id)) p =
      L.database.selected none (q.globalClause :: p) := by
  have hjoined : L.database.selected (some ((L.passing q).map fun r => .text r.id)) p =
      (L.matching q p).map Resource.scalarRow := by
    rw [← selected_database h, hits, if_pos hq]
  rw [hjoined, Database.selected, Database.hits, rows_resources, List.filter_map, matching,
    passing, List.filter_filter]
  refine congrArg _ (List.filter_congr fun r _ => ?_)
  exact Bool.and_comm _ _

/-- Rows are selected by way of the hit set as they are without it, each as often; free text or a
box is asked for just if the text of the query says so; and free text has a term. -/
theorem Session.Reachable.hitSet_agrees {s : Session} (h : s.Reachable) :
    (∃ db, s.catalog.database = some db ∧ ∀ q : Request, q.isGlobal = true →
      ∃ ids, db.globalIds q = .ok ids ∧ ∀ omitted,
        (q.predicate .aardvark omitted false).map (db.selected (some ids)) =
          (q.predicate .aardvark omitted true).map (db.selected none)) ∧
    (∀ q : Request, q.isGlobal = true ↔ q.globalClause.fragment ≠ .truth) ∧
    ∀ (q : Request) (text : String), q.textQuery? = some text →
      ∃ terms, terms ≠ [] ∧ Test.mentions terms ∈ q.globalClause := by
  refine ⟨?_, fun q => ?_, fun q text htext => ?_⟩
  · obtain ⟨L, hL, hc⟩ := h.ledger
    refine ⟨L.database, hc, fun q hq => ⟨_, L.globalIds_database q, fun omitted => ?_⟩⟩
    rw [Request.predicate_withGlobal hq]
    cases q.predicate .aardvark omitted false with
    | error e => rfl
    | ok p => exact congrArg Except.ok (Ledger.selected_hits hL hq p)
  · constructor
    · intro hq htruth
      have hfragment := q.isTruth_globalClause
      rw [htruth, hq] at hfragment
      exact absurd hfragment (by decide)
    · intro hne
      by_contra hq
      exact hne (by rw [Request.globalClause_eq_nil_iff.mpr (Bool.not_eq_true _ ▸ hq)]; rfl)
  · refine ⟨q.terms, Request.terms_ne_nil htext, List.mem_append_left _ ?_⟩
    rw [htext]
    exact List.mem_singleton_self _

theorem Session.hitSet_agrees_afterUpsert :
    let s := afterUpsert (.ofId "a") []
    (∃ db, s.catalog.database = some db ∧ ∀ q : Request, q.isGlobal = true →
      ∃ ids, db.globalIds q = .ok ids ∧ ∀ omitted,
        (q.predicate .aardvark omitted false).map (db.selected (some ids)) =
          (q.predicate .aardvark omitted true).map (db.selected none)) ∧
    (∀ q : Request, q.isGlobal = true ↔ q.globalClause.fragment ≠ .truth) ∧
    ∀ (q : Request) (text : String), q.textQuery? = some text →
      ∃ terms, terms ≠ [] ∧ Test.mentions terms ∈ q.globalClause :=
  Session.Reachable.hitSet_agrees (reachable_afterUpsert (by decide) [])

end Gazetteer
