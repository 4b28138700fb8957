import Mathlib
import Gazetteer.Query.SortKey
import Gazetteer.Proofs.Dict
import Gazetteer.Proofs.Query.HitSet
/-!
Bound values: the text of a query has a question mark for each of its parameters, and requests that
differ in their values only have the same text.
-/

namespace Gazetteer

def marks (text : String) : Nat :=
  text.toList.count '?'

theorem marks_append (a b : String) : marks (a ++ b) = marks a + marks b := by
  rw [marks, String.toList_append, List.count_append, marks, marks]

theorem marks_intercalate {separator : String} (h : marks separator = 0) (parts : List String) :
    marks (String.intercalate separator parts) = (parts.map marks).sum := by
  induction parts with
  | nil => rfl
  | cons part rest ih =>
      cases rest with
      | nil => rw [String.intercalate_singleton, List.map_singleton, List.sum_singleton]
      | cons next more =>
          rw [String.intercalate_cons_cons, marks_append, marks_append, h, ih, Nat.add_zero]
          exact List.sum_cons.symm

theorem marks_placeholders (count : Nat) : marks (Fragment.placeholders count) = count := by
  rw [Fragment.placeholders, marks_intercalate (by rfl), List.map_replicate, List.sum_replicate]
  exact Nat.mul_one count

theorem marks_of_checkName {field : String} (h : checkName field = .ok ()) : marks field = 0 := by
  apply List.count_eq_zero.mpr
  intro hmem
  rw [checkName] at h
  split at h
  next hformed =>
    rw [wellFormedName, Bool.and_eq_true, List.all_eq_true] at hformed
    exact absurd (hformed.2 '?' hmem) (by decide)
  next => cases h

theorem marks_scalarColumn {field : String} (h : checkName field = .ok ()) :
    marks (scalarColumn field) = 0 := by
  rw [scalarColumn, marks_append, marks_append, marks_of_checkName h]
  rfl

/-! A parameter for each question mark -/

namespace Fragment

def Balanced (f : Fragment) : Prop :=
  marks f.sql = f.params.length

private theorem sum_marks {parts : List Fragment} (h : ∀ part ∈ parts, part.Balanced) :
    (parts.map fun part => marks part.sql).sum = (parts.flatMap Fragment.params).length := by
  rw [List.length_flatMap]
  exact congrArg List.sum (List.map_congr_left h)

theorem balanced_conjunction {parts : List Fragment} (h : ∀ part ∈ parts, part.Balanced) :
    (conjunction parts).Balanced := by
  rw [Balanced, conjunction]
  split
  · rfl
  · have hbrackets (part : Fragment) : marks ("(" ++ part.sql ++ ")") = marks part.sql := by
      rw [marks_append, marks_append]
      exact (Nat.add_zero _).trans (Nat.zero_add _)
    rw [marks_intercalate (by rfl), List.map_map]
    simp only [Function.comp_def, hbrackets]
    exact sum_marks h

end Fragment

namespace Test

def Named : Test → Prop
  | scalarIn field _ => checkName field = .ok ()
  | scalarIs field _ => checkName field = .ok ()
  | scalarFrom field _ => checkName field = .ok ()
  | scalarTo field _ => checkName field = .ok ()
  | hasAny _ _ => True
  | hasAll _ _ => True
  | hasWithin _ _ _ => True
  | mentions _ => True
  | meets _ => True

private theorem marks_boundText (bound : Option Float) {relation : String}
    (h : marks relation = 0) : marks (boundText bound relation) = bound.toList.length := by
  cases bound with
  | none => rfl
  | some =>
      have hvalue : marks " AND try_num(m.value) " = 0 := by decide
      have hmark : marks " ?" = 1 := by decide
      change marks (" AND try_num(m.value) " ++ relation ++ " ?") = 1
      rw [marks_append, marks_append, h, hvalue, hmark]

private theorem marks_values {text closing : String} (h : marks closing = 0) (count : Nat) :
    marks (text ++ Fragment.placeholders count ++ closing) = marks text + count := by
  rw [marks_append, marks_append, marks_placeholders, h, Nat.add_zero]

private theorem marks_someValue : marks someValue = 1 := by decide

theorem balanced_fragment {t : Test} (h : t.Named) : t.fragment.Balanced := by
  have hbracket : marks ")" = 0 := by decide
  have hnumber : marks "try_num(" = 0 := by decide
  cases t with
  | scalarIn field values =>
      have hin : marks " IN (" = 0 := by decide
      change marks (scalarColumn field ++ " IN (" ++ Fragment.placeholders values.length ++ ")") =
        (values.map Cell.text).length
      rw [marks_values hbracket, marks_append, marks_scalarColumn h, hin, List.length_map]
      exact Nat.zero_add _
  | scalarIs field value =>
      have hmark : marks " = ?" = 1 := by decide
      change marks (scalarColumn field ++ " = ?") = 1
      rw [marks_append, marks_scalarColumn h, hmark]
  | scalarFrom field bound =>
      have hmark : marks ") >= ?" = 1 := by decide
      change marks ("try_num(" ++ scalarColumn field ++ ") >= ?") = 1
      rw [marks_append, marks_append, marks_scalarColumn h, hnumber, hmark]
  | scalarTo field bound =>
      have hmark : marks ") <= ?" = 1 := by decide
      change marks ("try_num(" ++ scalarColumn field ++ ") <= ?") = 1
      rw [marks_append, marks_append, marks_scalarColumn h, hnumber, hmark]
  | hasAny field values =>
      have hin : marks " AND m.value IN (" = 0 := by decide
      change marks (someValue ++ " AND m.value IN (" ++ Fragment.placeholders values.length ++
        "))") = (values.map Cell.text).length + 1
      rw [marks_values (by decide), marks_append, marks_someValue, hin, List.length_map]
      exact Nat.add_comm _ _
  | hasAll field values =>
      have hin : marks " AND m.value IN (" = 0 := by decide
      have hmark : marks ")) = ?" = 1 := by decide
      have hselect : marks ("(SELECT COUNT(DISTINCT m.value) FROM resources_mv m " ++
          "WHERE m.id = r.id AND m.field = ?") = 1 := by decide
      change marks ("(SELECT COUNT(DISTINCT m.value) FROM resources_mv m " ++
        "WHERE m.id = r.id AND m.field = ?" ++ " AND m.value IN (" ++
          Fragment.placeholders values.length ++ ")) = ?") =
        (values.map Cell.text ++ [Cell.int values.length]).length + 1
      rw [marks_append, marks_append, marks_append, hselect, hin, hmark, marks_placeholders,
        List.length_append, List.length_map, List.length_singleton]
      omega
  | hasWithin field atLeast atMost =>
      have hnull : marks " AND try_num(m.value) IS NOT NULL" = 0 := by decide
      change marks (someValue ++ " AND try_num(m.value) IS NOT NULL" ++ boundText atLeast ">=" ++
        boundText atMost "<=" ++ ")") =
          (atLeast.toList.map Cell.real ++ atMost.toList.map Cell.real).length + 1
      rw [marks_append, marks_append, marks_append, marks_append, marks_someValue, hnull, hbracket,
        marks_boundText atLeast (by decide), marks_boundText atMost (by decide), List.length_append,
        List.length_map, List.length_map]
      omega
  | mentions terms =>
      have hselect : marks "EXISTS (SELECT 1 FROM resources_search s WHERE s.id = r.id AND " = 0 := by
        decide
      have hlike : marks "s.content LIKE ? ESCAPE '\\'" = 1 := by decide
      change marks ("EXISTS (SELECT 1 FROM resources_search s WHERE s.id = r.id AND " ++
        String.intercalate " AND " (terms.map fun _ => "s.content LIKE ? ESCAPE '\\'") ++ ")") =
        (terms.map fun term => Cell.text (pattern term)).length
      rw [marks_append, marks_append, marks_intercalate (by decide), hselect, hbracket,
        List.map_map, Function.comp_def, List.length_map]
      simp only [hlike, List.map_const', List.sum_replicate, smul_eq_mul, Nat.mul_one]
      omega
  | meets box =>
      have hwest : marks "r.geom_minx IS NOT NULL AND r.geom_minx <= ? AND r.geom_maxx >= ?" = 2 := by
        decide
      have hsouth : marks " AND r.geom_miny <= ? AND r.geom_maxy >= ?" = 2 := by decide
      change marks ("r.geom_minx IS NOT NULL AND r.geom_minx <= ? AND r.geom_maxx >= ?" ++
        " AND r.geom_miny <= ? AND r.geom_maxy >= ?") = 4
      rw [marks_append, hwest, hsouth]

end Test

theorem Clause.balanced_fragment {c : Clause} (h : ∀ t ∈ c, t.Named) :
    Fragment.Balanced c.fragment := by
  apply Fragment.balanced_conjunction
  rw [List.forall_mem_map]
  exact fun t ht => Test.balanced_fragment (h t ht)

theorem Predicate.balanced_fragment {p : Predicate} (h : ∀ c ∈ p, ∀ t ∈ c, t.Named) :
    Fragment.Balanced p.fragment := by
  apply Fragment.balanced_conjunction
  rw [List.forall_mem_map]
  exact fun c hc => Clause.balanced_fragment (h c hc)

namespace SortKey

def Named : SortKey → Prop
  | overlap _ => True
  | scalar field _ _ => checkName field = .ok ()
  | best _ _ _ => True
  | id => True

private theorem marks_expression {k : SortKey} (h : k.Named) :
    marks k.expression = k.expressionParams.length := by
  cases k with
  | overlap box =>
      have hoverlap : marks ("COALESCE(bbox_iou(r.geom_minx, r.geom_miny, r.geom_maxx, " ++
          "r.geom_maxy, ?, ?, ?, ?), -1)") = 4 := by decide
      exact hoverlap
  | scalar field numeric direction =>
      cases numeric with
      | false => exact marks_scalarColumn h
      | true =>
          have hnumber : marks "try_num(" = 0 := by decide
          have hbracket : marks ")" = 0 := by decide
          change marks ("try_num(" ++ scalarColumn field ++ ")") = 0
          rw [marks_append, marks_append, marks_scalarColumn h, hnumber, hbracket]
  | best field numeric direction =>
      have hselect : marks "(SELECT " = 0 := by decide
      have hopen : marks "(" = 0 := by decide
      have hfrom : marks ") FROM resources_mv m WHERE m.id = r.id AND m.field = ?)" = 1 := by
        decide
      have hleast : marks "MIN" = 0 := by decide
      have hgreatest : marks "MAX" = 0 := by decide
      have hvalue : marks "m.value" = 0 := by decide
      have hnumber : marks "try_num(m.value)" = 0 := by decide
      have hshape (aggregate value : String) (haggregate : marks aggregate = 0)
          (hvalue : marks value = 0) : marks ("(SELECT " ++ aggregate ++ "(" ++ value ++
            ") FROM resources_mv m WHERE m.id = r.id AND m.field = ?)") = 1 := by
        rw [marks_append, marks_append, marks_append, marks_append, hselect, haggregate, hopen,
          hvalue, hfrom]
      cases numeric <;> cases direction
      · exact hshape "MIN" "m.value" hleast hvalue
      · exact hshape "MAX" "m.value" hgreatest hvalue
      · exact hshape "MIN" "try_num(m.value)" hleast hnumber
      · exact hshape "MAX" "try_num(m.value)" hgreatest hnumber
  | id => decide

/-- The expression stands twice in the text, and its parameters are bound twice. -/
private theorem balanced_valueFragment {k : SortKey} (h : k.Named) (numeric : Bool)
    (direction : Direction) : (k.valueFragment numeric direction).Balanced := by
  have hnull : marks " IS NULL, " = 0 := by decide
  have hspace : marks " " = 0 := by decide
  have hkeyword : marks direction.keyword = 0 := by
    cases direction <;> decide
  have hcollation : marks (if numeric then "" else " COLLATE NOCASE") = 0 := by
    cases numeric <;> decide
  change marks (k.expression ++ " IS NULL, " ++ k.expression ++
    (if numeric then "" else " COLLATE NOCASE") ++ " " ++ direction.keyword) =
      (k.expressionParams ++ k.expressionParams).length
  rw [marks_append, marks_append, marks_append, marks_append, marks_append, hnull, hspace,
    hkeyword, hcollation, marks_expression h, List.length_append]
  omega

theorem balanced_fragment {k : SortKey} (h : k.Named) : k.fragment.Balanced := by
  cases k with
  | overlap box =>
      have hdescending : marks " DESC" = 0 := by decide
      change marks ((overlap box).expression ++ " DESC") = (overlap box).expressionParams.length
      rw [marks_append, marks_expression h, hdescending, Nat.add_zero]
  | scalar field numeric direction => exact balanced_valueFragment h numeric direction
  | best field numeric direction => exact balanced_valueFragment h numeric direction
  | id =>
      have hascending : marks "r.id ASC" = 0 := by decide
      exact hascending

end SortKey

theorem SortKeys.balanced_fragment {keys : SortKeys} (h : ∀ k ∈ keys, k.Named) :
    Fragment.Balanced keys.fragment := by
  change marks (String.intercalate ", " ((keys.map SortKey.fragment).map Fragment.sql)) =
    ((keys.map SortKey.fragment).flatMap Fragment.params).length
  rw [marks_intercalate (by decide), List.map_map]
  apply Fragment.sum_marks
  rw [List.forall_mem_map]
  exact fun k hk => SortKey.balanced_fragment (h k hk)

/-! The names in the fragments of a request have been checked -/

namespace Condition

variable {field : String} (c : Condition)

theorem named_scalarTests (h : checkName field = .ok ()) : ∀ t ∈ c.scalarTests field, t.Named := by
  rw [scalarTests]
  simp only [List.forall_mem_append, List.forall_mem_map]
  refine ⟨⟨⟨?_, fun _ _ => h⟩, fun _ _ => h⟩, fun _ _ => h⟩
  split
  · exact fun t ht => absurd ht List.not_mem_nil
  · exact List.forall_mem_singleton.mpr h

theorem named_repeatableTests : ∀ t ∈ c.repeatableTests field, t.Named := by
  have hnone : ∀ t ∈ ([] : List Test), t.Named := fun t ht => absurd ht List.not_mem_nil
  rw [repeatableTests]
  simp only [List.forall_mem_append]
  refine ⟨⟨?_, ?_⟩, ?_⟩
  · split
    · exact hnone
    · exact List.forall_mem_singleton.mpr trivial
  · split
    · exact hnone
    · exact List.forall_mem_singleton.mpr trivial
  · split
    · exact List.forall_mem_singleton.mpr trivial
    · exact hnone

theorem named_clause? {schema : Schema} {clause : Option Clause}
    (h : c.clause? schema field = .ok clause) : ∀ k ∈ clause.toList, ∀ t ∈ k, t.Named := by
  rw [clause?] at h
  split at h
  · cases h
  next hname =>
    cases h
    intro k hk
    split at hk
    · exact absurd hk List.not_mem_nil
    · split at hk <;> obtain rfl := List.mem_singleton.mp hk
      · exact named_scalarTests c hname
      · exact named_repeatableTests c

end Condition

namespace Request

variable {schema : Schema} {omitted : Option String} {withGlobal : Bool} {q : Request}

theorem named_globalClause : ∀ t ∈ q.globalClause, t.Named := by
  rw [globalClause, List.forall_mem_append, List.forall_mem_map]
  refine ⟨?_, fun _ _ => trivial⟩
  split
  · exact List.forall_mem_singleton.mpr trivial
  · exact fun t ht => absurd ht List.not_mem_nil

theorem named_fieldClauses {entries : List (String × Condition)} {p : Predicate}
    (h : fieldClauses schema omitted entries = .ok p) : ∀ c ∈ p, ∀ t ∈ c, t.Named := by
  induction entries generalizing p with
  | nil =>
      cases h
      exact fun c hc => absurd hc List.not_mem_nil
  | cons entry rest ih =>
      rw [fieldClauses] at h
      split at h
      · exact ih h
      · split at h
        · cases h
        next clause hclause =>
          obtain ⟨more, hmore, rfl⟩ := map_eq_ok.mp h
          rw [List.forall_mem_append]
          exact ⟨entry.2.named_clause? hclause, ih hmore⟩

theorem named_predicate {p : Predicate} (h : q.predicate schema omitted withGlobal = .ok p) :
    ∀ c ∈ p, ∀ t ∈ c, t.Named := by
  obtain ⟨clauses, hclauses, rfl⟩ := map_eq_ok.mp h
  rw [List.forall_mem_append]
  refine ⟨?_, named_fieldClauses hclauses⟩
  split
  · exact List.forall_mem_singleton.mpr named_globalClause
  · exact fun c hc => absurd hc List.not_mem_nil

private theorem named_sortKey {box : Option Envelope} {wish : SortSpec} {key : Option SortKey}
    (h : sortKey schema box wish = .ok key) : ∀ k ∈ key.toList, k.Named := by
  intro k hk
  rw [sortKey] at h
  split at h
  · cases h
    obtain ⟨envelope, -, rfl⟩ := Option.map_eq_some_iff.mp (Option.mem_toList.mp hk)
    trivial
  · split at h
    · cases h
    next hname =>
      split at h
      · cases h
      · split at h <;> cases h <;> obtain rfl := List.mem_singleton.mp hk
        · exact hname
        · trivial

private theorem named_sortKeysOf {box : Option Envelope} {wishes : List SortSpec}
    {keys : SortKeys} (h : sortKeysOf schema box wishes = .ok keys) : ∀ k ∈ keys, k.Named := by
  induction wishes generalizing keys with
  | nil =>
      cases h
      have htitle : checkName titleField = .ok () := by decide
      exact List.forall_mem_cons.mpr ⟨htitle, List.forall_mem_singleton.mpr trivial⟩
  | cons wish rest ih =>
      rw [sortKeysOf] at h
      split at h
      · cases h
      next key hkey =>
        obtain ⟨more, hmore, rfl⟩ := map_eq_ok.mp h
        rw [List.forall_mem_append]
        exact ⟨named_sortKey hkey, ih hmore⟩

theorem named_sortKeys {keys : SortKeys} (h : q.sortKeys schema = .ok keys) :
    ∀ k ∈ keys, k.Named :=
  named_sortKeysOf h

end Request

/-! Requests that differ in their values only -/

namespace Fragment

theorem sql_conjunction_congr {a b : List Fragment}
    (h : a.map Fragment.sql = b.map Fragment.sql) : (conjunction a).sql = (conjunction b).sql := by
  have hbrackets (parts : List Fragment) : (conjunction parts).sql =
      if (parts.map Fragment.sql).isEmpty then truth.sql
      else String.intercalate " AND "
        ((parts.map Fragment.sql).map fun sql => "(" ++ sql ++ ")") := by
    rw [conjunction, List.isEmpty_map, List.map_map]
    split <;> rfl
  rw [hbrackets, hbrackets, h]

end Fragment

def Clause.sql (c : Clause) : String :=
  Fragment.sql c.fragment

def SortKey.sql (k : SortKey) : String :=
  k.fragment.sql

theorem Clause.sql_congr {c d : Clause} (h : c.map Test.sql = d.map Test.sql) :
    c.sql = d.sql := by
  apply Fragment.sql_conjunction_congr
  rw [List.map_map, List.map_map]
  exact h

theorem Predicate.sql_congr {p r : Predicate} (h : p.map Clause.sql = r.map Clause.sql) :
    Fragment.sql p.fragment = Fragment.sql r.fragment := by
  apply Fragment.sql_conjunction_congr
  rw [List.map_map, List.map_map]
  exact h

theorem SortKeys.sql_congr {keys others : SortKeys}
    (h : keys.map SortKey.sql = others.map SortKey.sql) :
    Fragment.sql keys.fragment = Fragment.sql others.fragment := by
  have hjoined (keys : SortKeys) : Fragment.sql keys.fragment =
      String.intercalate ", " (keys.map SortKey.sql) :=
    congrArg (String.intercalate ", ") List.map_map
  rw [hjoined, hjoined, h]

theorem Test.sql_optionTests {α : Type} {a b : Option α} (h : a.isSome = b.isSome)
    {f : α → Test} (hf : ∀ x y, (f x).sql = (f y).sql) :
    (a.toList.map f).map Test.sql = (b.toList.map f).map Test.sql := by
  cases a with
  | none =>
      cases b with
      | none => rfl
      | some => cases h
  | some x =>
      cases b with
      | none => cases h
      | some y => exact congrArg (fun sql => [sql]) (hf x y)

namespace Condition

/-- Conditions that ask for equally many values and are bounded on the same sides. -/
structure SameShape (c d : Condition) : Prop where
  any : (distinctTexts c.any).length = (distinctTexts d.any).length
  all : (distinctTexts c.all).length = (distinctTexts d.all).length
  atLeast : c.atLeast.isSome = d.atLeast.isSome
  atMost : c.atMost.isSome = d.atMost.isSome

namespace SameShape

variable {c d : Condition} {field : String}

theorem isEmpty_eq (h : c.SameShape d) : c.isEmpty = d.isEmpty := by
  have hdistinct {a b : List String}
      (hab : (distinctTexts a).length = (distinctTexts b).length) : a.isEmpty = b.isEmpty := by
    rw [Bool.eq_iff_iff, List.isEmpty_iff, List.isEmpty_iff, ← distinctTexts_eq_nil a,
      ← distinctTexts_eq_nil b, ← List.length_eq_zero_iff, hab, List.length_eq_zero_iff]
  rw [isEmpty, isEmpty, hdistinct h.any, hdistinct h.all, ← Option.not_isSome, ← Option.not_isSome,
    ← Option.not_isSome, ← Option.not_isSome, h.atLeast, h.atMost]

/-- A test is made of the values asked for if there are any, and its text tells their number. -/
private theorem sql_valueTests {a b : List String} (h : a.length = b.length)
    {f : List String → Test}
    (hf : ∀ {a b : List String}, a.length = b.length → (f a).sql = (f b).sql) :
    (match a with
      | [] => []
      | values => [f values]).map Test.sql =
    (match b with
      | [] => []
      | values => [f values]).map Test.sql := by
  cases a with
  | nil => rw [List.length_eq_zero_iff.mp h.symm]
  | cons value rest =>
      cases b with
      | nil => cases h
      | cons other more => exact congrArg (fun sql => [sql]) (hf h)

private theorem boundText_congr {a b : Option Float} (h : a.isSome = b.isSome)
    (relation : String) : Test.boundText a relation = Test.boundText b relation := by
  cases a <;> cases b
  · rfl
  · cases h
  · cases h
  · rfl

theorem sql_scalarTests (h : c.SameShape d) :
    (c.scalarTests field).map Test.sql = (d.scalarTests field).map Test.sql := by
  have hvalues : ((distinctTexts c.all).map (Test.scalarIs field)).map Test.sql =
      ((distinctTexts d.all).map (Test.scalarIs field)).map Test.sql := by
    rw [List.map_map, List.map_map]
    change (distinctTexts c.all).map (fun _ => scalarColumn field ++ " = ?") =
      (distinctTexts d.all).map fun _ => scalarColumn field ++ " = ?"
    rw [List.map_const', List.map_const', h.all]
  have hatLeast : (c.atLeast.toList.map (Test.scalarFrom field)).map Test.sql =
      (d.atLeast.toList.map (Test.scalarFrom field)).map Test.sql :=
    Test.sql_optionTests h.atLeast fun _ _ => rfl
  have hatMost : (c.atMost.toList.map (Test.scalarTo field)).map Test.sql =
      (d.atMost.toList.map (Test.scalarTo field)).map Test.sql :=
    Test.sql_optionTests h.atMost fun _ _ => rfl
  simp only [scalarTests, List.map_append, hvalues, hatLeast, hatMost, List.append_cancel_right_eq]
  apply sql_valueTests h.any
  intro a b hab
  exact congrArg
    (fun count => scalarColumn field ++ " IN (" ++ Fragment.placeholders count ++ ")") hab

theorem sql_repeatableTests (h : c.SameShape d) :
    (c.repeatableTests field).map Test.sql = (d.repeatableTests field).map Test.sql := by
  simp only [repeatableTests, List.map_append, h.atLeast, h.atMost]
  congr 1
  · congr 1
    · apply sql_valueTests h.any
      intro a b hab
      exact congrArg (fun count => Test.someValue ++ " AND m.value IN (" ++
        Fragment.placeholders count ++ "))") hab
    · apply sql_valueTests h.all
      intro a b hab
      change _ ++ _ ++ Fragment.placeholders a.length ++ _ =
        _ ++ _ ++ Fragment.placeholders b.length ++ _
      rw [hab]
  · split
    · change [Test.someValue ++ _ ++ Test.boundText c.atLeast ">=" ++
        Test.boundText c.atMost "<=" ++ _] = [Test.someValue ++ _ ++
          Test.boundText d.atLeast ">=" ++ Test.boundText d.atMost "<=" ++ _]
      rw [boundText_congr h.atLeast, boundText_congr h.atMost]
    · rfl

theorem sql_clause? (h : c.SameShape d) (schema : Schema) :
    (c.clause? schema field).map (Option.map Clause.sql) =
      (d.clause? schema field).map (Option.map Clause.sql) := by
  rw [clause?, clause?, h.isEmpty_eq]
  cases checkName field with
  | error e => rfl
  | ok =>
      cases d.isEmpty with
      | true => rfl
      | false =>
          cases schema.isScalar field with
          | true => exact congrArg (fun sql => Except.ok (some sql)) (Clause.sql_congr h.sql_scalarTests)
          | false =>
              exact congrArg (fun sql => Except.ok (some sql)) (Clause.sql_congr h.sql_repeatableTests)

end SameShape

end Condition

namespace Request

/-- Requests with equally many words and conditions of the same shapes, ordered alike, of which
either both have a box or none. -/
structure SameShape (q r : Request) : Prop where
  terms : q.terms.length = r.terms.length
  box : q.box.isSome = r.box.isSome
  filters : ∀ field, Option.Rel Condition.SameShape (q.filters.get? field) (r.filters.get? field)
  sorts : q.sorts = r.sorts

/-- Results that agree under one pair of functions agree under any pair that tells no more. -/
private theorem map_congr {α β γ δ : Type} {x : Except Error α} {y : Except Error β} {f : α → γ}
    {g : β → γ} {k : α → δ} {l : β → δ} (h : x.map f = y.map g)
    (hfg : ∀ a b, f a = g b → k a = l b) : x.map k = y.map l := by
  cases x with
  | error e =>
      cases y with
      | error => exact congrArg Except.error (Except.error.inj h)
      | ok => cases h
  | ok a =>
      cases y with
      | error => cases h
      | ok b => exact congrArg Except.ok (hfg a b (Except.ok.inj h))

private theorem texts_append {α : Type} {text : α → String} {x y : Except Error (Option α)}
    {rest more : Except Error (List α)} (h : x.map (Option.map text) = y.map (Option.map text))
    (hrest : rest.map (List.map text) = more.map (List.map text)) :
    (x.bind fun first => rest.map (first.toList ++ ·)).map (List.map text) =
      (y.bind fun first => more.map (first.toList ++ ·)).map (List.map text) := by
  have hmap (first : Option α) (rest : Except Error (List α)) :
      (rest.map (first.toList ++ ·)).map (List.map text) =
        rest.map fun tail => (first.map text).toList ++ tail.map text := by
    cases rest with
    | error => rfl
    | ok tail => exact congrArg Except.ok (by rw [List.map_append, Option.toList_map])
  cases x with
  | error e =>
      cases y with
      | error => exact congrArg Except.error (Except.error.inj h)
      | ok => cases h
  | ok first =>
      cases y with
      | error => cases h
      | ok second =>
          change (rest.map (first.toList ++ ·)).map (List.map text) =
            (more.map (second.toList ++ ·)).map (List.map text)
          rw [hmap, hmap, Except.ok.inj h]
          exact map_congr hrest fun a b hab => by rw [hab]

theorem fieldClauses_cons {schema : Schema} {omitted : Option String} {field : String}
    (h : omitted ≠ some field) (c : Condition) (rest : List (String × Condition)) :
    fieldClauses schema omitted ((field, c) :: rest) =
      (c.clause? schema field).bind fun clause =>
        (fieldClauses schema omitted rest).map (clause.toList ++ ·) := by
  rw [fieldClauses, if_neg h]
  cases c.clause? schema field <;> rfl

theorem sortKeysOf_cons (schema : Schema) (box : Option Envelope) (wish : SortSpec)
    (rest : List SortSpec) :
    sortKeysOf schema box (wish :: rest) =
      (sortKey schema box wish).bind fun key =>
        (sortKeysOf schema box rest).map (key.toList ++ ·) := by
  rw [sortKeysOf]
  cases sortKey schema box wish <;> rfl

theorem texts_fieldClauses (schema : Schema) (omitted : Option String)
    {entries others : List (String × Condition)}
    (h : List.Forall₂ (fun x y => x.1 = y.1 ∧ x.2.SameShape y.2) entries others) :
    (fieldClauses schema omitted entries).map (List.map Clause.sql) =
      (fieldClauses schema omitted others).map (List.map Clause.sql) := by
  induction h with
  | nil => rfl
  | @cons entry other rest more hentry _ ih =>
      obtain ⟨field, c⟩ := entry
      obtain ⟨_, d⟩ := other
      obtain ⟨rfl, hshape⟩ := hentry
      by_cases homitted : omitted = some field
      · rw [fieldClauses, fieldClauses, if_pos homitted, if_pos homitted]
        exact ih
      · rw [fieldClauses_cons homitted, fieldClauses_cons homitted]
        exact texts_append (hshape.sql_clause? schema) ih

private theorem texts_sortKey (schema : Schema) {a b : Option Envelope} (h : a.isSome = b.isSome)
    (wish : SortSpec) :
    (sortKey schema a wish).map (Option.map SortKey.sql) =
      (sortKey schema b wish).map (Option.map SortKey.sql) := by
  rw [sortKey, sortKey]
  split
  · cases a <;> cases b
    · rfl
    · cases h
    · cases h
    · rfl
  · rfl

theorem texts_sortKeysOf (schema : Schema) {a b : Option Envelope} (h : a.isSome = b.isSome)
    (wishes : List SortSpec) :
    (sortKeysOf schema a wishes).map (List.map SortKey.sql) =
      (sortKeysOf schema b wishes).map (List.map SortKey.sql) := by
  induction wishes with
  | nil => rfl
  | cons wish rest ih =>
      rw [sortKeysOf_cons, sortKeysOf_cons]
      exact texts_append (texts_sortKey schema h wish) ih

namespace SameShape

variable {q r : Request}

theorem isSome_textQuery? (h : q.SameShape r) : q.textQuery?.isSome = r.textQuery?.isSome := by
  have hterms (q : Request) : q.textQuery?.isSome = false ↔ q.terms.length = 0 := by
    cases htext : q.textQuery? with
    | none => exact iff_of_true rfl (by rw [Request.terms, htext, List.length_nil])
    | some text =>
        rw [List.length_eq_zero_iff]
        exact iff_of_false (fun hsome => Bool.noConfusion hsome) (terms_ne_nil htext)
  rw [← Bool.not_inj_iff, Bool.eq_iff_iff, Bool.not_eq_true', Bool.not_eq_true', hterms, hterms,
    h.terms]

theorem isGlobal_eq (h : q.SameShape r) : q.isGlobal = r.isGlobal := by
  rw [isGlobal, isGlobal, h.isSome_textQuery?, h.box]

theorem sql_globalClause (h : q.SameShape r) : q.globalClause.sql = r.globalClause.sql := by
  have hmentions : (Test.mentions q.terms).sql = (Test.mentions r.terms).sql := by
    change _ ++ String.intercalate " AND " (q.terms.map fun _ => _) ++ _ =
      _ ++ String.intercalate " AND " (r.terms.map fun _ => _) ++ _
    rw [List.map_const', List.map_const', h.terms]
  have htext := h.isSome_textQuery?
  apply Clause.sql_congr
  rw [globalClause, globalClause, List.map_append, List.map_append,
    Test.sql_optionTests h.box fun _ _ => rfl]
  generalize q.textQuery? = a at htext ⊢
  generalize r.textQuery? = b at htext ⊢
  cases a with
  | none =>
      cases b with
      | none => rfl
      | some => cases htext
  | some =>
      cases b with
      | none => cases htext
      | some => exact congrArg (· :: _) hmentions

theorem sql_predicate (h : q.SameShape r) (schema : Schema) (omitted : Option String)
    (withGlobal : Bool) :
    (q.predicate schema omitted withGlobal).map (fun p => Fragment.sql p.fragment) =
      (r.predicate schema omitted withGlobal).map fun p => Fragment.sql p.fragment := by
  have hempty : q.globalClause.isEmpty = r.globalClause.isEmpty := by
    rw [Bool.eq_iff_iff, List.isEmpty_iff, List.isEmpty_iff, globalClause_eq_nil_iff,
      globalClause_eq_nil_iff, h.isGlobal_eq]
  have hparts : (if withGlobal && !q.globalClause.isEmpty then [q.globalClause] else []).map
      Clause.sql = (if withGlobal && !r.globalClause.isEmpty then [r.globalClause] else []).map
        Clause.sql := by
    rw [hempty]
    split
    · exact congrArg (fun sql => [sql]) h.sql_globalClause
    · rfl
  have hmap (first : Predicate) (x : Except Error Predicate) :
      (x.map (first ++ ·)).map (fun p => Fragment.sql p.fragment) =
        x.map fun p => Fragment.sql (Predicate.fragment (first ++ p)) := by
    cases x <;> rfl
  rw [predicate, predicate, hmap, hmap]
  apply map_congr (texts_fieldClauses schema omitted (Dict.forall₂_entries h.filters))
  intro a b hab
  apply Predicate.sql_congr
  rw [List.map_append, List.map_append, hparts, hab]

theorem sql_sortKeys (h : q.SameShape r) (schema : Schema) :
    (q.sortKeys schema).map (fun keys => Fragment.sql keys.fragment) =
      (r.sortKeys schema).map fun keys => Fragment.sql keys.fragment := by
  rw [sortKeys, sortKeys, h.sorts]
  exact map_congr (texts_sortKeysOf schema h.box _) fun a b => SortKeys.sql_congr

end SameShape

/-! Names that no text may contain -/

theorem fieldClauses_malformed {schema : Schema} {omitted : Option String}
    {entries : List (String × Condition)} {entry : String × Condition} (hentry : entry ∈ entries)
    (homitted : omitted ≠ some entry.1) (hname : wellFormedName entry.1 = false) :
    ∃ name, fieldClauses schema omitted entries = .error (.invalid (.malformedField name)) := by
  induction entries with
  | nil => exact absurd hentry List.not_mem_nil
  | cons head rest ih =>
      obtain ⟨field, c⟩ := head
      by_cases hskip : omitted = some field
      · obtain rfl | hrest := List.mem_cons.mp hentry
        · exact absurd hskip homitted
        · rw [fieldClauses, if_pos hskip]
          exact ih hrest
      · rw [fieldClauses_cons hskip, Condition.clause?, checkName]
        cases hformed : wellFormedName field with
        | false => exact ⟨field, rfl⟩
        | true =>
            obtain rfl | hrest := List.mem_cons.mp hentry
            · exact absurd (hformed.symm.trans hname) (by decide)
            · obtain ⟨name, herror⟩ := ih hrest
              refine ⟨name, ?_⟩
              rw [herror]
              rfl

theorem wellFormedName_eq_false {name : String}
    (h : name = "" ∨ ∃ c ∈ name.toList, c.isAlphanum = false ∧ c ≠ '_') :
    wellFormedName name = false := by
  rw [wellFormedName, Bool.and_eq_false_iff, List.all_eq_false]
  rcases h with rfl | ⟨c, hc, hletter, hunderscore⟩
  · exact Or.inl (by decide)
  · exact Or.inr ⟨c, hc, by simp [hletter, hunderscore]⟩

/-- The values of requests of one shape do not show in the text of predicate, free text and box, or
order; each of these has a parameter for every question mark; and no predicate is made of a field
whose name has other characters than letters, digits and underscores. -/
theorem values_bound (schema : Schema) :
    (∀ q r : Request, q.SameShape r →
      (∀ omitted withGlobal,
        (q.predicate schema omitted withGlobal).map (fun p => Fragment.sql p.fragment) =
          (r.predicate schema omitted withGlobal).map fun p => Fragment.sql p.fragment) ∧
      Fragment.sql q.globalClause.fragment = Fragment.sql r.globalClause.fragment ∧
      (q.sortKeys schema).map (fun keys => Fragment.sql keys.fragment) =
        (r.sortKeys schema).map fun keys => Fragment.sql keys.fragment) ∧
    (∀ q : Request,
      (∀ omitted withGlobal p, q.predicate schema omitted withGlobal = .ok p →
        Fragment.Balanced p.fragment) ∧
      Fragment.Balanced q.globalClause.fragment ∧
      ∀ keys, q.sortKeys schema = .ok keys → Fragment.Balanced keys.fragment) ∧
    ∀ (q : Request) (omitted : Option String) (withGlobal : Bool) (field : String),
      (q.filters.get? field).isSome = true → omitted ≠ some field →
        (field = "" ∨ ∃ c ∈ field.toList, c.isAlphanum = false ∧ c ≠ '_') →
          ∃ name, q.predicate schema omitted withGlobal =
            .error (.invalid (.malformedField name)) := by
  refine ⟨fun q r h => ⟨h.sql_predicate schema, h.sql_globalClause, h.sql_sortKeys schema⟩,
    fun q => ⟨?_, ?_, ?_⟩, ?_⟩
  · intro omitted withGlobal p hp
    exact Predicate.balanced_fragment (named_predicate hp)
  · exact Clause.balanced_fragment named_globalClause
  · intro keys hkeys
    exact SortKeys.balanced_fragment (named_sortKeys hkeys)
  · intro q omitted withGlobal field hfield homitted hname
    obtain ⟨c, hc⟩ := Option.isSome_iff_exists.mp hfield
    obtain ⟨name, herror⟩ := fieldClauses_malformed
      (Dict.mem_entries_iff.mpr hc) homitted (wellFormedName_eq_false hname)
    exact ⟨name, by rw [predicate, herror]; rfl⟩

theorem values_bound_subjects :
    let q := everything.withFilter "dct_subject_sm" (.anyOf ["Rivers", "Lakes"])
    let r := everything.withFilter "dct_subject_sm" (.anyOf ["?", "' OR 1=1"])
    let bad := everything.withFilter "title\" OR 1=1" (.anyOf [])
    q.SameShape r ∧
      (q.predicate .aardvark none true).map (fun p => Fragment.sql p.fragment) =
        (r.predicate .aardvark none true).map (fun p => Fragment.sql p.fragment) ∧
      ∃ name, bad.predicate .aardvark none true = .error (.invalid (.malformedField name)) := by
  intro q r bad
  obtain ⟨hsame, -, hmalformed⟩ := values_bound .aardvark
  have hfilters (field : String) :
      Option.Rel Condition.SameShape (q.filters.get? field) (r.filters.get? field) := by
    change Option.Rel _ ((Dict.insert _ _ _).get? field) ((Dict.insert _ _ _).get? field)
    rw [Dict.get?_insert, Dict.get?_insert]
    split
    · exact Option.Rel.some ⟨by decide, by decide, rfl, rfl⟩
    · exact Option.Rel.none
  have hshape : q.SameShape r := ⟨rfl, rfl, hfilters, rfl⟩
  refine ⟨hshape, (hsame q r hshape).1 none true, ?_⟩
  apply hmalformed bad none true "title\" OR 1=1" (by decide) (by decide)
  exact Or.inr ⟨'"', by decide, by decide⟩

end Request

end Gazetteer
