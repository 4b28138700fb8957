import Mathlib
import Gazetteer.Proofs.Query.Test
import Gazetteer.Proofs.Text.Words
/-!
Predicates: the tests that a request is turned into ask of a resource what the request does.
-/

namespace Gazetteer

def Clause.Passes (c : Clause) (r : Resource) (content : String) : Prop :=
  ∀ t ∈ c, t.Passes r content

def Clause.WellFormed (c : Clause) : Prop :=
  ∀ t ∈ c, t.WellFormed

namespace Predicate

def Passes (p : Predicate) (r : Resource) (content : String) : Prop :=
  ∀ c ∈ p, c.Passes r content

def WellFormed (p : Predicate) : Prop :=
  ∀ c ∈ p, c.WellFormed

end Predicate

/-! Conditions -/

namespace Condition

variable {r : Resource} {content field : String} (c : Condition)

private theorem isEmpty_iff : c.isEmpty = true ↔
    c.any = [] ∧ c.all = [] ∧ c.atLeast = none ∧ c.atMost = none := by
  simp [isEmpty, and_assoc]

private theorem mem_scalarTests {t : Test} :
    t ∈ c.scalarTests field ↔
      (.scalarIn field (distinctTexts c.any) = t ∧ c.any ≠ []) ∨
        (∃ value ∈ c.all, .scalarIs field value = t) ∨
          (∃ bound ∈ c.atLeast, .scalarFrom field bound = t) ∨
            ∃ bound ∈ c.atMost, .scalarTo field bound = t := by
  rw [ne_eq, ← distinctTexts_eq_nil c.any, scalarTests]
  simp only [List.mem_append, List.mem_map, mem_distinctTexts, Option.mem_toList, or_assoc,
    eq_comm (b := t)]
  cases distinctTexts c.any <;> simp

private theorem mem_repeatableTests {t : Test} :
    t ∈ c.repeatableTests field ↔
      (.hasAny field (distinctTexts c.any) = t ∧ c.any ≠ []) ∨
        (.hasAll field (distinctTexts c.all) = t ∧ c.all ≠ []) ∨
          (.hasWithin field c.atLeast c.atMost = t ∧ c.isBounded = true) := by
  rw [ne_eq, ne_eq, ← distinctTexts_eq_nil c.any, ← distinctTexts_eq_nil c.all, repeatableTests,
    isBounded]
  simp only [List.mem_append, or_assoc, eq_comm (b := t)]
  cases distinctTexts c.any <;> cases distinctTexts c.all <;>
    cases (c.atLeast.isSome || c.atMost.isSome) <;> simp

private theorem passes_scalarTests (hc : c.isEmpty = false) :
    Clause.Passes (c.scalarTests field) r content ↔ c.MetByValue (r.value? field) := by
  have htests : Clause.Passes (c.scalarTests field) r content ↔
      (c.any ≠ [] → ∃ v ∈ r.value? field, v ∈ c.any) ∧ (∀ w ∈ c.all, r.value? field = some w) ∧
        (∀ bound ∈ c.atLeast, ∃ v ∈ r.value? field, ∃ x ∈ (Cell.text v).number?, bound ≤ x) ∧
          ∀ bound ∈ c.atMost, ∃ v ∈ r.value? field, ∃ x ∈ (Cell.text v).number?, x ≤ bound := by
    simp only [Clause.Passes, mem_scalarTests, or_imp, forall_and, and_imp, forall_exists_index,
      forall_eq', forall_apply_eq_imp_iff₂]
    simp only [Test.Passes, mem_distinctTexts]
  rw [htests, MetByValue]
  cases r.value? field with
  | none =>
      refine iff_of_false ?_ ?_
      · rintro ⟨hany, hall, hfrom, hto⟩
        refine Bool.false_ne_true (hc.symm.trans ((isEmpty_iff c).mpr ⟨?_, ?_, ?_, ?_⟩))
        · by_contra hne
          obtain ⟨v, hv, -⟩ := hany hne
          exact Option.not_mem_none v hv
        · exact List.eq_nil_iff_forall_not_mem.mpr fun w hw =>
            Option.some_ne_none w (hall w hw).symm
        · refine Option.eq_none_iff_forall_not_mem.mpr fun bound hbound => ?_
          obtain ⟨v, hv, -⟩ := hfrom bound hbound
          exact Option.not_mem_none v hv
        · refine Option.eq_none_iff_forall_not_mem.mpr fun bound hbound => ?_
          obtain ⟨v, hv, -⟩ := hto bound hbound
          exact Option.not_mem_none v hv
      · rintro ⟨v, hv, -⟩
        exact Option.not_mem_none v hv
  | some v =>
      simp only [Option.mem_some_iff, exists_eq_left', Option.some_inj, Admits]
      refine and_congr_right fun _ => and_congr_right fun _ => ?_
      rw [isBounded]
      cases (Cell.text v).number? <;> cases c.atLeast <;> cases c.atMost <;> simp

private theorem passes_repeatableTests :
    Clause.Passes (c.repeatableTests field) r content ↔ c.MetByValues (r.values field) := by
  simp only [Clause.Passes, mem_repeatableTests, or_imp, forall_and, and_imp, forall_eq']
  simp only [Test.Passes, mem_distinctTexts, MetByValues, Admits]
  refine and_congr_right fun _ => and_congr_left fun _ => ?_
  exact ⟨fun h v hv => h (List.ne_nil_of_mem hv) v hv, fun h _ => h⟩

private theorem wellFormed_scalarTests (hfield : Schema.isScalar .aardvark field = true) :
    Clause.WellFormed (c.scalarTests field) := by
  intro t ht
  rcases (mem_scalarTests c).mp ht with ⟨rfl, -⟩ | ⟨_, -, rfl⟩ | ⟨_, -, rfl⟩ | ⟨_, -, rfl⟩ <;>
    exact hfield

private theorem wellFormed_repeatableTests : Clause.WellFormed (c.repeatableTests field) := by
  intro t ht
  rcases (mem_repeatableTests c).mp ht with ⟨rfl, -⟩ | ⟨rfl, -⟩ | ⟨rfl, -⟩
  · trivial
  · exact nodup_distinctTexts c.all
  · trivial

theorem clause?_eq_ok {clause : Option Clause} (h : c.clause? .aardvark field = .ok clause) :
    (∀ k ∈ clause, k.WellFormed) ∧
      ∀ r content, (∀ k ∈ clause, k.Passes r content) ↔ c.Met field r := by
  rw [clause?] at h
  split at h
  · cases h
  cases h
  cases hempty : c.isEmpty with
  | true => simp [Met, hempty]
  | false =>
      cases hscalar : Schema.isScalar .aardvark field with
      | true =>
          refine ⟨fun k hk => ?_, fun r content => ?_⟩
          · cases hk
            exact wellFormed_scalarTests c hscalar
          · simpa [Met, hempty, hscalar] using passes_scalarTests c hempty
      | false =>
          refine ⟨fun k hk => ?_, fun r content => ?_⟩
          · cases hk
            exact wellFormed_repeatableTests c
          · simpa [Met, hempty, hscalar] using passes_repeatableTests c

end Condition

namespace Request

/-! Free text and box -/

variable {q : Request} {r : Resource} {content : String}

theorem wellFormed_globalClause (q : Request) : Clause.WellFormed q.globalClause := by
  intro t ht
  rcases List.mem_append.mp ht with ht | ht
  · rw [terms] at ht
    cases hquery : q.textQuery? with
    | none =>
        rw [hquery] at ht
        exact absurd ht List.not_mem_nil
    | some text =>
        rw [hquery] at ht
        obtain rfl := List.mem_singleton.mp ht
        intro term hterm c hc
        obtain ⟨word, -, rfl⟩ := List.mem_map.mp hterm
        exact Text.toLower_of_mem_lowercase hc
  · obtain ⟨box, -, rfl⟩ := List.mem_map.mp ht
    trivial

/-- The terms are the words of the free text, of whose blank ends nothing depends. -/
private theorem mem_terms {term : String} :
    term ∈ q.terms ↔ ∃ query ∈ q.query, ∃ word ∈ Text.words query, Text.lowercase word = term := by
  have hblank : Text.words "" = [] := rfl
  rw [terms, textQuery?]
  cases q.query with
  | none => simp
  | some query =>
      have hwords := Text.words_trim query
      cases hempty : (Text.trim query).isEmpty with
      | false => simp [Option.filter, hempty, hwords]
      | true =>
          rw [String.isEmpty_iff.mp hempty, hblank] at hwords
          simp [Option.filter, hempty, ← hwords]

theorem passes_globalClause :
    Clause.Passes q.globalClause r content ↔ q.MatchesGlobally r content := by
  have hclause : Clause.Passes q.globalClause r content ↔
      (∀ term ∈ q.terms, Text.Occurs term content) ∧
        ∀ box ∈ q.box, ∃ e ∈ r.geometry, e.intersects box = true := by
    have hboxes : (∀ t ∈ q.box.toList.map Test.meets, t.Passes r content) ↔
        ∀ box ∈ q.box, ∃ e ∈ r.geometry, e.intersects box = true := by
      simp [Test.Passes]
    rw [← hboxes]
    simp only [Clause.Passes, globalClause, terms, List.forall_mem_append]
    cases q.textQuery? <;> simp [Test.Passes]
  rw [hclause]
  constructor
  · rintro ⟨htext, hbox⟩
    exact ⟨fun query hquery word hword => htext _ (mem_terms.mpr ⟨query, hquery, word, hword, rfl⟩),
      hbox⟩
  · rintro ⟨htext, hbox⟩
    refine ⟨fun term hterm => ?_, hbox⟩
    obtain ⟨query, hquery, word, hword, rfl⟩ := mem_terms.mp hterm
    exact htext query hquery word hword

/-! Conditions on fields -/

theorem fieldClauses_eq_ok {omitted : Option String} {entries : List (String × Condition)}
    {p : Predicate} (h : fieldClauses .aardvark omitted entries = .ok p) :
    p.WellFormed ∧ ∀ r content, p.Passes r content ↔
      ∀ entry ∈ entries, omitted ≠ some entry.1 → entry.2.Met entry.1 r := by
  induction entries generalizing p with
  | nil =>
      cases h
      exact ⟨fun c hc => absurd hc List.not_mem_nil, fun r content =>
        iff_of_true (fun c hc => absurd hc List.not_mem_nil)
          fun entry hentry => absurd hentry List.not_mem_nil⟩
  | cons entry rest ih =>
      obtain ⟨field, condition⟩ := entry
      rw [fieldClauses] at h
      split at h
      next homitted =>
        obtain ⟨hformed, hpasses⟩ := ih h
        refine ⟨hformed, fun r content => (hpasses r content).trans ?_⟩
        rw [List.forall_mem_cons]
        exact (and_iff_right fun hne => absurd homitted hne).symm
      next homitted =>
        split at h
        · cases h
        next clause hclause =>
          obtain ⟨more, hrest, rfl⟩ := map_eq_ok.mp h
          obtain ⟨hclauseFormed, hclausePasses⟩ := condition.clause?_eq_ok hclause
          obtain ⟨hformed, hpasses⟩ := ih hrest
          refine ⟨?_, fun r content => ?_⟩
          · refine List.forall_mem_append.mpr ⟨?_, hformed⟩
            exact fun k hk => hclauseFormed k (Option.mem_toList.mp hk)
          · rw [Predicate.Passes, List.forall_mem_append, List.forall_mem_cons]
            refine and_congr ?_ (hpasses r content)
            rw [← hclausePasses r content]
            simp only [Option.mem_toList, ne_eq, homitted, not_false_eq_true, true_imp_iff]
            exact Iff.rfl

theorem exists_fieldClauses_iff {omitted : Option String} {entries : List (String × Condition)} :
    (∃ p, fieldClauses .aardvark omitted entries = .ok p) ↔
      ∀ entry ∈ entries, omitted ≠ some entry.1 → checkName entry.1 = .ok () := by
  induction entries with
  | nil => exact iff_of_true ⟨[], rfl⟩ fun entry hentry => absurd hentry List.not_mem_nil
  | cons entry rest ih =>
      obtain ⟨field, condition⟩ := entry
      rw [List.forall_mem_cons, ← ih, fieldClauses]
      split
      next homitted => exact (and_iff_right fun hne => absurd homitted hne).symm
      next homitted =>
        rw [Condition.clause?]
        cases hname : checkName field with
        | error e => simp [homitted]
        | ok =>
            simp only [ne_eq, homitted, not_false_eq_true, true_imp_iff, true_and]
            cases fieldClauses .aardvark omitted rest <;> simp [Except.map]

/-- A predicate can be made just if the names of the fields that count are well formed. -/
theorem exists_predicate_iff {omitted : Option String} {withGlobal : Bool} :
    (∃ p, q.predicate .aardvark omitted withGlobal = .ok p) ↔
      ∀ field condition, q.filters.get? field = some condition → omitted ≠ some field →
        checkName field = .ok () := by
  have hclauses : (∃ p, q.predicate .aardvark omitted withGlobal = .ok p) ↔
      ∃ p, fieldClauses .aardvark omitted q.filters.entries = .ok p := by
    rw [predicate]
    cases fieldClauses .aardvark omitted q.filters.entries <;> simp [Except.map]
  rw [hclauses, exists_fieldClauses_iff]
  simp only [← Dict.mem_entries_iff, Prod.forall]

theorem predicate_eq_ok {omitted : Option String} {withGlobal : Bool} {p : Predicate}
    (h : q.predicate .aardvark omitted withGlobal = .ok p) :
    p.WellFormed ∧ ∀ r content, p.Passes r content ↔
      (withGlobal = true → q.MatchesGlobally r content) ∧ q.MeetsFilters omitted r := by
  obtain ⟨clauses, hclauses, rfl⟩ := map_eq_ok.mp h
  obtain ⟨hformed, hpasses⟩ := fieldClauses_eq_ok hclauses
  have hfilters (r : Resource) :
      (∀ entry ∈ q.filters.entries, omitted ≠ some entry.1 → entry.2.Met entry.1 r) ↔
        q.MeetsFilters omitted r := by
    simp only [MeetsFilters, ← Dict.mem_entries_iff, Prod.forall]
  have hglobal : ∀ c ∈ (if withGlobal && !q.globalClause.isEmpty then [q.globalClause]
      else []), c = q.globalClause := by
    intro c hc
    split at hc
    · exact List.mem_singleton.mp hc
    · exact absurd hc List.not_mem_nil
  refine ⟨List.forall_mem_append.mpr ⟨fun c hc => ?_, hformed⟩, fun r content => ?_⟩
  · exact hglobal c hc ▸ wellFormed_globalClause q
  · rw [Predicate.Passes, List.forall_mem_append, ← hfilters, ← passes_globalClause]
    refine and_congr ?_ (hpasses r content)
    cases withGlobal with
    | false => simp
    | true =>
        cases hclause : q.globalClause with
        | nil => simp [Clause.Passes]
        | cons t rest => simp

end Request

end Gazetteer
