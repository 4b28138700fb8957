import Mathlib
import Gazetteer.Proofs.Store.Row
import Gazetteer.Proofs.Store.Table
import Gazetteer.Store.Declaration
/-!
Tables as statements make and leave them: every row has a cell under each column, as the column
keeps it, and breaks no constraint.
-/

namespace Gazetteer

/-! Unique keys -/

namespace Index

theorem collide_comm (i : Index) (a b : Row) : i.collide a b = i.collide b a := by
  simp only [collide, Cell.equals_comm]

theorem collide_congr {i : Index} {a b a' b' : Row}
    (ha : ∀ p ∈ i.parts, a'.cell p.columnName = a.cell p.columnName)
    (hb : ∀ p ∈ i.parts, b'.cell p.columnName = b.cell p.columnName) :
    i.collide a' b' = i.collide a b := by
  have hcell {r r' : Row} {p : KeyPart} (h : r'.cell p.columnName = r.cell p.columnName) :
      p.cell r' = p.cell r := by
    cases p with
    | column name => exact h
    | orEmpty name =>
        have h : r'.cell name = r.cell name := h
        simp only [KeyPart.cell, h]
  rw [Bool.eq_iff_iff, collide, collide, List.all_eq_true, List.all_eq_true]
  exact forall₂_congr fun p hp => by rw [hcell (ha p hp), hcell (hb p hp)]

end Index

namespace Table

theorem hasCollision_eq_false_iff {i : Index} {rows : List Row} :
    hasCollision i rows = false ↔ rows.Pairwise fun a b => i.collide a b = false := by
  induction rows with
  | nil => simp [hasCollision]
  | cons r rest ih =>
      rw [hasCollision, Bool.or_eq_false_iff, List.any_eq_false, ih, List.pairwise_cons]
      simp only [Bool.not_eq_true]

theorem hasCollision_perm {i : Index} {rows others : List Row} (h : rows.Perm others)
    (hrows : hasCollision i rows = false) : hasCollision i others = false := by
  rw [hasCollision_eq_false_iff] at *
  refine (h.pairwise_iff fun {a b} hab => ?_).mp hrows
  rwa [Index.collide_comm]

/-- Rows changed elsewhere than in the parts of an index share its key as before. -/
theorem hasCollision_map {i : Index} {rows : List Row} (f : Row → Row)
    (hf : ∀ r ∈ rows, ∀ p ∈ i.parts, (f r).cell p.columnName = r.cell p.columnName)
    (hrows : hasCollision i rows = false) : hasCollision i (rows.map f) = false := by
  rw [hasCollision_eq_false_iff] at *
  rw [List.pairwise_map]
  refine List.Pairwise.imp_of_mem (fun {a b} ha hb hab => ?_) hrows
  rwa [Index.collide_congr (hf a ha) (hf b hb)]

theorem missing?_eq_none_iff {t : Table} {r : Row} : t.missing? r = none ↔
    ∀ c ∈ t.columns, c.required = true → (r.cell c.name).isNull = false := by
  rw [missing?, Option.map_eq_none_iff, List.find?_eq_none]
  simp only [Bool.and_eq_true, not_and, Bool.not_eq_true]

theorem collision?_eq_none_iff {t : Table} {rows : List Row} {r : Row} :
    t.collision? rows r = none ↔
      ∀ i ∈ t.indexes, i.unique = true → ∀ other ∈ rows, i.collide r other = false := by
  rw [collision?, List.find?_eq_none]
  simp only [Bool.and_eq_true, not_and, Bool.not_eq_true, List.any_eq_false]

/-- A row as the columns of a table ask for it. -/
structure Admits (t : Table) (r : Row) : Prop where
  names : r.cells.map Prod.fst = t.columns.map fun c => Text.fold c.name
  required : t.missing? r = none
  texts : ∀ c ∈ t.columns, ∀ s, r.cell c.name = .text s →
    (Cell.text s).store c.affinity = .text s

/-- A table whose columns have different names and whose rows break no constraint. -/
structure Consistent (t : Table) : Prop where
  columns : (t.columns.map fun c => Text.fold c.name).Nodup
  rowKey : ∀ column ∈ t.rowKey, t.has column = true
  parts : ∀ i ∈ t.indexes, ∀ p ∈ i.parts, t.has p.columnName = true
  rows : ∀ r ∈ t.rows, t.Admits r
  unique : ∀ i ∈ t.indexes, i.unique = true → hasCollision i t.rows = false

variable {t u : Table} {r : Row}

theorem has_iff {column : String} :
    t.has column = true ↔ Text.fold column ∈ t.columns.map fun c => Text.fold c.name := by
  simp only [has, column?, List.find?_isSome, Text.sameLetters, beq_iff_eq, List.mem_map]

theorem Admits.lists_iff (h : t.Admits r) {column : String} :
    r.Lists column ↔ t.has column = true := by
  rw [Row.Lists, h.names, has_iff]

theorem Consistent.column?_eq (h : t.Consistent) {c : Column} (hc : c ∈ t.columns)
    {column : String} (hname : Text.fold c.name = Text.fold column) :
    t.column? column = some c := by
  cases hfind : t.column? column with
  | none =>
      have hnot := List.find?_eq_none.mp hfind c hc
      exact absurd (beq_iff_eq.mpr hname) hnot
  | some d =>
      have hd : Text.fold d.name = Text.fold column := by
        simpa [Text.sameLetters] using List.find?_some hfind
      rw [List.inj_on_of_nodup_map h.columns (List.mem_of_find?_eq_some hfind) hc
        (hd.trans hname.symm)]

theorem Consistent.affinity_eq (h : t.Consistent) {c : Column} (hc : c ∈ t.columns)
    {column : String} (hname : Text.fold c.name = Text.fold column) :
    t.affinity column = c.affinity := by
  rw [affinity, h.column?_eq hc hname]

theorem Consistent.has_of_ne_null (h : t.Consistent) (hr : r ∈ t.rows) {column : String}
    (hcell : r.cell column ≠ .null) : t.has column = true :=
  (h.rows r hr).lists_iff.mp (Row.lists_of_ne_null hcell)

theorem Consistent.has_of_text (h : t.Consistent) (hr : r ∈ t.rows) {column s : String}
    (hcell : r.cell column = .text s) : t.has column = true :=
  h.has_of_ne_null hr fun hnull => Cell.noConfusion (hcell.symm.trans hnull)

theorem Consistent.wanted_eq (h : t.Consistent) (hr : r ∈ t.rows) {column s : String}
    (hcell : r.cell column = .text s) : t.wanted column s = .text s := by
  obtain ⟨c, hc, hname⟩ := List.mem_map.mp (has_iff.mp (h.has_of_text hr hcell))
  have hsame : r.cell c.name = .text s := by
    rw [r.cell_congr hname, hcell]
  rw [wanted, h.affinity_eq hc hname]
  exact Cell.against_of_store ((h.rows r hr).texts c hc s hsame)

theorem eq_of_equals_wanted {column s value : String}
    (h : (Cell.text s).equals (t.wanted column value) = true) : s = value := by
  rw [Cell.equals_comm, Cell.equals_text_iff, wanted] at h
  rcases Cell.against_text_cases (t.affinity column) value with htext | hnumber
  · rw [htext, Cell.text.injEq] at h
    exact h.symm
  · exact absurd h (hnumber.ne_text s)

/-! More columns -/

def extend (t : Table) (added : List Column) : Table :=
  { t with
    columns := t.columns ++ added
    rows := t.rows.map fun r => r.extend added }

theorem addColumn_eq_ok {c : Column} : t.addColumn c = .ok u ↔
    t.has c.name = false ∧ (c.required = true → c.fallback.isNull = true → t.rows = []) ∧
      u = t.extend [c] := by
  rw [addColumn]
  cases hhas : t.has c.name with
  | true => simp
  | false =>
      have hguard : (c.required && c.fallback.isNull && !t.rows.isEmpty) = false ↔
          (c.required = true → c.fallback.isNull = true → t.rows = []) := by
        cases c.required <;> cases c.fallback.isNull <;> simp
      rw [← hguard, if_neg Bool.false_ne_true]
      cases hcheck : c.required && c.fallback.isNull && !t.rows.isEmpty with
      | true => simp
      | false =>
          simp only [Bool.false_eq_true, if_false, Except.ok.injEq, true_and]
          exact eq_comm

private theorem Admits.extend (h : t.Admits r) {c : Column} (hhas : t.has c.name = false)
    (hrequired : c.required = true → c.fallback.isNull = false) :
    (t.extend [c]).Admits (r.extend [c]) := by
  have hold : ∀ d ∈ t.columns, (r.extend [c]).cell d.name = r.cell d.name := by
    intro d hd
    refine Row.cell_extend_of_lists (h.lists_iff.mpr ?_) [c]
    exact has_iff.mpr (List.mem_map_of_mem hd)
  have hnew : (r.extend [c]).cell c.name = c.fallback.store c.affinity := by
    rw [Row.cell_extend_of_not_lists (fun hlists => ?_)]
    · simp [Row.cell, Row.ofColumns, findEntry]
    · rw [h.lists_iff, hhas] at hlists
      exact absurd hlists Bool.false_ne_true
  refine ⟨?_, ?_, ?_⟩
  · rw [Row.extend, List.map_append, h.names, Table.extend, List.map_append]
    rfl
  · rw [missing?_eq_none_iff]
    refine List.forall_mem_append.mpr ⟨fun d hd hd' => ?_, List.forall_mem_singleton.mpr ?_⟩
    · rw [hold d hd]
      exact missing?_eq_none_iff.mp h.required d hd hd'
    · rw [hnew, Cell.isNull_store]
      exact hrequired
  · refine List.forall_mem_append.mpr ⟨fun d hd s hs => ?_, List.forall_mem_singleton.mpr ?_⟩
    · rw [hold d hd] at hs
      exact h.texts d hd s hs
    · intro s hs
      rw [hnew] at hs
      exact Cell.store_of_store_eq_text hs

theorem has_extend {added : List Column} {column : String} (h : t.has column = true) :
    (t.extend added).has column = true := by
  rw [has_iff] at *
  rw [extend, List.map_append]
  exact List.mem_append_left _ h

theorem Consistent.addColumn (h : t.Consistent) {c : Column} (hadd : t.addColumn c = .ok u) :
    u.Consistent := by
  obtain ⟨hhas, hrequired, rfl⟩ := addColumn_eq_ok.mp hadd
  refine ⟨?_, fun column hcolumn => has_extend (h.rowKey column hcolumn),
    fun i hi p hp => has_extend (h.parts i hi p hp), ?_, fun i hi hunique => ?_⟩
  · have hnew : Text.fold c.name ∉ t.columns.map fun c => Text.fold c.name := by
      rw [← has_iff, hhas]
      exact Bool.false_ne_true
    rw [Table.extend, List.map_append]
    exact h.columns.append (List.nodup_singleton _) (List.disjoint_singleton.mpr hnew)
  · intro row hrow
    obtain ⟨r, hr, rfl⟩ := List.mem_map.mp hrow
    refine (h.rows r hr).extend hhas fun hc => ?_
    cases hnull : c.fallback.isNull with
    | false => rfl
    | true =>
        rw [hrequired hc hnull] at hr
        exact absurd hr List.not_mem_nil
  · refine hasCollision_map _ (fun r hr p hp => ?_) (h.unique i hi hunique)
    exact Row.cell_extend_of_lists ((h.rows r hr).lists_iff.mpr (h.parts i hi p hp)) [c]

/-! More indexes -/

theorem need_eq_ok_iff {names : List String} :
    t.need names = .ok () ↔ ∀ name ∈ names, t.has name = true := by
  induction names with
  | nil => simp [need]
  | cons name rest ih =>
      rw [need, List.forall_mem_cons, ← ih]
      cases t.has name <;> simp

theorem addIndex_eq_ok {i : Index} : t.addIndex i = .ok u ↔
    (∀ p ∈ i.parts, t.has p.columnName = true) ∧
      (i.unique = true → hasCollision i t.rows = false) ∧
      u = { t with indexes := t.indexes ++ [i] } := by
  have hparts : (∀ p ∈ i.parts, t.has p.columnName = true) ↔
      t.need (i.parts.map KeyPart.columnName) = .ok () := by
    rw [need_eq_ok_iff, List.forall_mem_map]
  rw [hparts, addIndex]
  cases hneed : t.need (i.parts.map KeyPart.columnName) with
  | error fault => simp
  | ok =>
      simp only [ok_bind, true_and]
      cases hunique : i.unique <;> cases hcollision : hasCollision i t.rows <;>
        simp [pure, Except.pure, throw, throwThe, MonadExceptOf.throw, eq_comm]

theorem Consistent.withIndexes (h : t.Consistent) {indexes : List Index}
    (hindexes : ∀ i ∈ indexes, i ∈ t.indexes ∨ (∀ p ∈ i.parts, t.has p.columnName = true) ∧
      (i.unique = true → hasCollision i t.rows = false)) :
    { t with indexes := indexes : Table }.Consistent where
  columns := h.columns
  rowKey := h.rowKey
  parts i hi := (hindexes i hi).elim (h.parts i) And.left
  rows r hr := ⟨(h.rows r hr).names, (h.rows r hr).required, (h.rows r hr).texts⟩
  unique i hi := (hindexes i hi).elim (h.unique i) And.right

theorem Consistent.addIndex (h : t.Consistent) {i : Index} (hadd : t.addIndex i = .ok u) :
    u.Consistent := by
  obtain ⟨hparts, hunique, rfl⟩ := addIndex_eq_ok.mp hadd
  refine h.withIndexes fun other hother => ?_
  rcases List.mem_append.mp hother with hother | hother
  · exact Or.inl hother
  · rw [List.mem_singleton.mp hother]
    exact Or.inr ⟨hparts, hunique⟩

/-! Tables from declarations -/

private theorem nodup_of_repeatedName? {names : List String} (h : repeatedName? names = none) :
    (names.map Text.fold).Nodup := by
  induction names with
  | nil => exact List.nodup_nil
  | cons name rest ih =>
      rw [repeatedName?] at h
      split at h
      · cases h
      next hany =>
        refine List.nodup_cons.mpr ⟨fun hmem => hany ?_, ih h⟩
        obtain ⟨other, hother, hname⟩ := List.mem_map.mp hmem
        exact List.any_eq_true.mpr ⟨other, hother, beq_iff_eq.mpr hname.symm⟩

theorem ofDeclarations_eq_ok {name : String} {columns : List (String × Declaration)}
    (h : ofDeclarations name columns = .ok t) :
    t.name = name ∧ t.columns = columns.map (fun c => c.2.column c.1) ∧ t.rows = [] := by
  rw [ofDeclarations] at h
  split at h
  · cases h
  · simp only at h
    split at h
    · cases h
    · cases h
      exact ⟨rfl, rfl, rfl⟩

theorem consistent_ofDeclarations {name : String} {columns : List (String × Declaration)}
    (h : ofDeclarations name columns = .ok t) : t.Consistent := by
  rw [ofDeclarations] at h
  split at h
  · cases h
  next hnames =>
    simp only at h
    split at h
    · cases h
    · cases h
      have hhas : ∀ c ∈ columns, (columns.map fun c => c.2.column c.1).any
          (fun d => Text.sameLetters d.name c.1) = true := by
        intro c hc
        refine List.any_eq_true.mpr ⟨_, List.mem_map_of_mem hc, Text.sameLetters_refl c.1⟩
      have hfind : ∀ c ∈ columns, ((columns.map fun c => c.2.column c.1).find?
          fun d => Text.sameLetters d.name c.1).isSome = true := by
        intro c hc
        rw [List.find?_isSome]
        exact List.any_eq_true.mp (hhas c hc)
      refine ⟨?_, ?_, ?_, fun r hr => absurd hr List.not_mem_nil, fun i _ _ => rfl⟩
      · have hnodup := nodup_of_repeatedName? hnames
        rw [List.map_map] at hnodup ⊢
        exact hnodup
      · intro column hcolumn
        obtain ⟨c, hc, rfl⟩ := List.mem_map.mp (List.mem_of_mem_head? hcolumn)
        exact hfind c (List.mem_of_mem_filter (List.mem_of_mem_filter hc))
      · intro i hi p hp
        obtain ⟨c, hc, rfl⟩ := List.mem_map.mp hi
        rw [List.mem_singleton.mp hp]
        exact hfind c (List.mem_of_mem_filter hc)

end Table

end Gazetteer
