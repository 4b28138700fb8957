import Mathlib
import Gazetteer.Catalog.Write
import Gazetteer.Proofs.Catalog.Access
import Gazetteer.Proofs.Migration.Settled
import Gazetteer.Proofs.Store.Cell
import Gazetteer.Proofs.Store.Legacy
import Gazetteer.Schema.Aardvark
/-!
Distributions put after those that a resource has, in a database of whatever layout.  The number
that is given is that of the rows that were added.  Each distribution is stored once where nothing
but its own key can keep a row out.
-/

namespace Gazetteer

open Layout

/-! Results -/

theorem Step.result_eq_ok {α : Type} {step : Step} {id : String} {x : Except Fault α} {a : α}
    (h : step.result id x = .ok a) : x = .ok a := by
  cases x with
  | error fault => cases h
  | ok b => exact congrArg Except.ok (Except.ok.inj h)

theorem engineResult_eq_ok {α : Type} {x : Except Fault α} {a : α} (h : engineResult x = .ok a) :
    x = .ok a := by
  cases x with
  | error fault => cases h
  | ok b => exact congrArg Except.ok (Except.ok.inj h)

namespace Cell

theorem eq_of_equals_int {m n : Int} (h : (int m).equals (int n) = true) : m = n := by
  rw [equals, Bool.and_eq_true] at h
  have hcompare : compare .binary (int m) (int n) = .eq :=
    Rank.compare_eq_eq.mpr (beq_iff_eq.mp h.2)
  rw [compare_int] at hcompare
  exact Std.compare_eq_iff_eq.mp hcompare

end Cell

/-! Rows of distributions -/

def Row.places (r : Row) (id : String) (d : Distribution) : Bool :=
  r.cell "resource_id" == .text id && r.cell "relation_key" == .text d.relation &&
    r.cell "url" == .text d.url && (KeyPart.orEmpty "label").cell r == .text (d.label.getD "")

namespace Row

variable {r other : Row} {id : String} {d : Distribution}

theorem places_iff : r.places id d = true ↔
    r.cell "resource_id" = .text id ∧ r.cell "relation_key" = .text d.relation ∧
      r.cell "url" = .text d.url ∧
        (KeyPart.orEmpty "label").cell r = .text (d.label.getD "") := by
  simp only [places, Bool.and_eq_true, beq_iff_eq, and_assoc]

theorem places_eq (h : r.places id d = true) (e : Distribution) :
    r.places id e = e.sameAccess d := by
  obtain ⟨hid, hrelation, hurl, hlabel⟩ := places_iff.mp h
  rw [Bool.eq_iff_iff, places_iff, hid, hrelation, hurl, hlabel, Distribution.sameAccess_comm]
  simp only [Cell.text.injEq, true_and, Distribution.sameAccess, Bool.and_eq_true, beq_iff_eq,
    and_assoc]

theorem collide_labeledIndex (h : r.places id d = true) :
    labeledIndex.collide r other = other.places id d := by
  obtain ⟨hid, hrelation, hurl, hlabel⟩ := places_iff.mp h
  have hcell (s : String) (c : Cell) : (Cell.text s).equals c = (c == .text s) := by
    rw [Cell.equals_comm, Bool.eq_iff_iff, Cell.equals_text_iff, beq_iff_eq]
  simp only [Index.collide, labeledIndex, List.all_cons, List.all_nil, KeyPart.cell, Bool.and_true]
  simp only [KeyPart.cell] at hlabel
  rw [hid, hrelation, hurl, hlabel, hcell, hcell, hcell, hcell, places]
  simp only [KeyPart.cell, Bool.and_assoc]

end Row

namespace Table

variable {t u : Table} {r : Row} {id : String} {d : Distribution} {values : List (String × Cell)}

def places (t : Table) (id : String) (d : Distribution) : Bool :=
  t.rows.any fun r => r.places id d

/-- What an insertion does that passes over rows: one that misses a value, or that shares a key with
a row that is there. -/
theorem insert_ignore_eq_ok {taken : Bool} (h : t.insert .ignore values = .ok (u, taken)) :
    (∀ name ∈ values.map Prod.fst, t.has name = true) ∧
      ∃ r, t.fillRowKey (t.newRow values) = .ok r ∧
        ((taken = true ∧ u = { t with rows := t.place r } ∧ t.missing? r = none ∧
            t.collision? t.rows r = none) ∨
          (taken = false ∧ u = t ∧ (t.missing? r ≠ none ∨ t.collision? t.rows r ≠ none))) := by
  obtain ⟨⟨⟩, hneed, h⟩ := bind_eq_ok.mp h
  obtain ⟨-, -, h⟩ := bind_eq_ok.mp h
  obtain ⟨r, hr, h⟩ := bind_eq_ok.mp h
  obtain ⟨-, -, h⟩ := bind_eq_ok.mp h
  refine ⟨need_eq_ok_iff.mp hneed, r, hr, ?_⟩
  cases hmissing : t.missing? r with
  | some fault =>
      rw [hmissing] at h
      cases h
      exact Or.inr ⟨rfl, rfl, Or.inl (Option.some_ne_none fault)⟩
  | none =>
      rw [hmissing] at h
      cases hcollision : t.collision? t.rows r with
      | some i =>
          rw [hcollision] at h
          cases h
          exact Or.inr ⟨rfl, rfl, Or.inr (Option.some_ne_none i)⟩
      | none =>
          rw [hcollision] at h
          cases h
          exact Or.inl ⟨rfl, rfl, rfl, rfl⟩

/-! Tables in which nothing but its own key keeps a distribution out -/

def accessColumns : List String :=
  ["resource_id", "relation_key", "url", "label", "position"]

/-- Whether a table takes every distribution that it does not have: the key of distributions is one
of its keys, and what else is asked of a row is given to it. -/
structure TakesDistributions (t : Table) : Prop where
  labeled : labeledIndex ∈ t.indexes
  /-- Any other key is a number by which the rows are ordered. -/
  keys : ∀ i ∈ t.indexes, i.unique = true →
    i = labeledIndex ∨ ∃ key ∈ t.rowKey, i.parts = [.column key]
  numbered : ∀ key ∈ t.rowKey, Text.fold key ∉ accessColumns ∧
    (∀ c, t.column? key = some c → c.fallback = .null) ∧ ∀ r ∈ t.rows, ∃ n, r.cell key = .int n
  required : ∀ c ∈ t.columns, c.required = true →
    Text.fold c.name ∈ ["resource_id", "relation_key", "url", "position"] ∨
      (Text.fold c.name ∉ accessColumns ∧ c.fallback.isNull = false) ∨
        ∃ key ∈ t.rowKey, Text.fold key = Text.fold c.name

/-- Whether a distribution and its id are stored as they are given. -/
structure KeepsTexts (t : Table) (id : String) (d : Distribution) : Prop where
  id : (Cell.text id).store (t.affinity "resource_id") = .text id
  relation : (Cell.text d.relation).store (t.affinity "relation_key") = .text d.relation
  url : (Cell.text d.url).store (t.affinity "url") = .text d.url
  label : ∀ label ∈ d.label, (Cell.text label).store (t.affinity "label") = .text label

theorem distributionCells_names (id : String) (d : Distribution) (position : Int) :
    (Database.distributionCells id d position).map Prod.fst = accessColumns :=
  rfl

theorem fold_accessColumns : ∀ column ∈ accessColumns, Text.fold column = column := by
  decide

variable {position : Int}

private theorem newRow_given (hneed : ∀ name ∈ accessColumns, t.has name = true) {column : String}
    {c : Cell} (hmem : (column, c) ∈ Database.distributionCells id d position) :
    (t.newRow (Database.distributionCells id d position)).cell column =
      c.store (t.affinity column) := by
  have hcolumn : column ∈ accessColumns := by
    rw [← distributionCells_names id d position]
    exact List.mem_map_of_mem hmem
  have hdistinct : ((Database.distributionCells id d position).map fun value =>
      Text.fold value.1).Nodup := by
    have hnames : (accessColumns.map Text.fold).Nodup := by
      decide
    exact hnames
  have hfind : (Database.distributionCells id d position).find? (fun value =>
      Text.sameLetters value.1 column) = some (column, c) := by
    cases hfound : (Database.distributionCells id d position).find? (fun value =>
        Text.sameLetters value.1 column) with
    | none =>
        have hnot := List.find?_eq_none.mp hfound _ hmem
        exact absurd (Text.sameLetters_refl column) hnot
    | some value =>
        have hsame : Text.fold value.1 = Text.fold column := by
          simpa [Text.sameLetters] using List.find?_some hfound
        rw [List.inj_on_of_nodup_map hdistinct (List.mem_of_find?_eq_some hfound) hmem hsame]
  obtain ⟨found, hfound⟩ := Option.isSome_iff_exists.mp (hneed column hcolumn)
  rw [cell_newRow, hfound, hfind, affinity, hfound]
  rfl

private theorem newRow_other {column : String} (hother : Text.fold column ∉ accessColumns) :
    (t.newRow (Database.distributionCells id d position)).cell column =
      match t.column? column with
      | some c => c.fallback.store c.affinity
      | none => .null := by
  have hfind : (Database.distributionCells id d position).find? (fun value =>
      Text.sameLetters value.1 column) = none := by
    refine List.find?_eq_none.mpr fun value hvalue hsame => hother ?_
    have hname := List.mem_map_of_mem (f := Prod.fst) hvalue
    rw [distributionCells_names] at hname
    rw [← beq_iff_eq.mp hsame, fold_accessColumns _ hname]
    exact hname
  rw [cell_newRow, hfind]
  rfl

private theorem newRow_places (hneed : ∀ name ∈ accessColumns, t.has name = true)
    (hkeeps : t.KeepsTexts id d) :
    (t.newRow (Database.distributionCells id d position)).places id d = true := by
  refine Row.places_iff.mpr ⟨?_, ?_, ?_, ?_⟩
  · exact (newRow_given hneed (.head _)).trans hkeeps.id
  · exact (newRow_given hneed (.tail _ (.head _))).trans hkeeps.relation
  · exact (newRow_given hneed (.tail _ (.tail _ (.head _)))).trans hkeeps.url
  · rw [KeyPart.cell, newRow_given hneed (.tail _ (.tail _ (.tail _ (.head _))))]
    cases hd : d.label with
    | none => cases t.affinity "label" <;> rfl
    | some label =>
        simp only [Option.map_some, Option.getD_some, hkeeps.label label hd]

private theorem le_foldl_max (cells : List Int) (least : Int) :
    least ≤ cells.foldl max least ∧ ∀ n ∈ cells, n ≤ cells.foldl max least := by
  induction cells generalizing least with
  | nil => exact ⟨le_rfl, fun n hn => absurd hn List.not_mem_nil⟩
  | cons first rest ih =>
      obtain ⟨hleast, hrest⟩ := ih (max least first)
      refine ⟨(le_max_left _ _).trans hleast, fun n hn => ?_⟩
      rcases List.mem_cons.mp hn with rfl | hn
      · exact (le_max_right _ _).trans hleast
      · exact hrest n hn

/-- A row as it is put into a table: the number by which rows are ordered is a new one, and all
other cells are those of the new row. -/
structure Numbered (t : Table) (new r : Row) : Prop where
  others : ∀ column, (∀ key ∈ t.rowKey, Text.fold key ≠ Text.fold column) →
    r.cell column = new.cell column
  number : ∀ key ∈ t.rowKey, ∃ n, r.cell key = .int n ∧ ∀ other ∈ t.rows, other.cell key ≠ .int n

private theorem TakesDistributions.numbered_of_fillRowKey (h : t.TakesDistributions)
    (hfill : t.fillRowKey (t.newRow (Database.distributionCells id d position)) = .ok r) :
    t.Numbered (t.newRow (Database.distributionCells id d position)) r := by
  rw [fillRowKey] at hfill
  cases hkey : t.rowKey with
  | none =>
      rw [hkey] at hfill
      cases hfill
      refine ⟨fun _ _ => rfl, fun key hmem => ?_⟩
      rw [hkey] at hmem
      cases hmem
  | some key =>
      obtain ⟨hother, hfallback, hnumbers⟩ := h.numbered key hkey
      have hnull : (t.newRow (Database.distributionCells id d position)).cell key = .null := by
        rw [newRow_other hother]
        cases hcolumn : t.column? key with
        | none => rfl
        | some c =>
            simp only [hfallback c hcolumn]
            cases c.affinity <;> rfl
      simp only [hkey, hnull, Except.ok.injEq] at hfill
      subst hfill
      refine ⟨fun column hcolumn => ?_, fun found hmem => ?_⟩
      · have hne : Text.fold key ≠ Text.fold column := hcolumn key hkey
        rw [Row.cell_update]
        simp [Row.ofChanges, findEntry, hne]
      · rw [hkey] at hmem
        cases hmem
        refine ⟨(wholeCells key t.rows).foldl max 0 + 1, ?_, fun other hmem hcell => ?_⟩
        · rw [Row.cell_update]
          simp [Row.ofChanges, findEntry]
        · have hwhole : (wholeCells key t.rows).foldl max 0 + 1 ∈ wholeCells key t.rows :=
            List.mem_filterMap.mpr ⟨other, hmem, by rw [hcell]⟩
          have hle := (le_foldl_max (wholeCells key t.rows) 0).2 _ hwhole
          omega

section

variable (h : t.TakesDistributions) (hconsistent : t.Consistent)
  (hneed : ∀ name ∈ accessColumns, t.has name = true) (hkeeps : t.KeepsTexts id d)
  (hrow : t.Numbered (t.newRow (Database.distributionCells id d position)) r)

include h hrow

private theorem access_cell {column : String} (hcolumn : column ∈ accessColumns) :
    r.cell column = (t.newRow (Database.distributionCells id d position)).cell column := by
  refine hrow.others column fun key hkey hsame => (h.numbered key hkey).1 ?_
  rw [hsame, fold_accessColumns column hcolumn]
  exact hcolumn

include hneed hkeeps

private theorem row_places : r.places id d = true := by
  have hlabel : (KeyPart.orEmpty "label").cell r =
      (KeyPart.orEmpty "label").cell
        (t.newRow (Database.distributionCells id d position)) := by
    simp only [KeyPart.cell, access_cell h hrow (by decide : "label" ∈ accessColumns)]
  have hplaces : (t.newRow (Database.distributionCells id d position)).places id d = true :=
    newRow_places hneed hkeeps
  rw [Row.places] at hplaces ⊢
  rw [hlabel, access_cell h hrow (by decide), access_cell h hrow (by decide),
    access_cell h hrow (by decide)]
  exact hplaces

include hconsistent

private theorem missing?_row : t.missing? r = none := by
  obtain ⟨hid, hrelation, hurl, -⟩ := Row.places_iff.mp (row_places h hneed hkeeps hrow)
  have hposition : (r.cell "position").isNull = false := by
    rw [access_cell h hrow (by decide),
      newRow_given hneed (.tail _ (.tail _ (.tail _ (.tail _ (.head _))))), Cell.isNull_store]
    rfl
  refine missing?_eq_none_iff.mpr fun c hc hrequired => ?_
  rcases h.required c hc hrequired with hname | ⟨hother, hfallback⟩ | ⟨key, hkey, hsame⟩
  · have hfold : Text.fold (Text.fold c.name) = Text.fold c.name :=
      fold_accessColumns _ ((by decide : ["resource_id", "relation_key", "url", "position"] ⊆
        accessColumns) hname)
    rw [← r.cell_congr hfold]
    simp only [List.mem_cons, List.not_mem_nil, or_false] at hname
    rcases hname with hname | hname | hname | hname <;> rw [hname]
    · rw [hid]
      rfl
    · rw [hrelation]
      rfl
    · rw [hurl]
      rfl
    · exact hposition
  · by_cases hkey : ∀ key ∈ t.rowKey, Text.fold key ≠ Text.fold c.name
    · rw [hrow.others c.name hkey, newRow_other hother, hconsistent.column?_eq hc rfl]
      simp only [Cell.isNull_store, hfallback]
    · push Not at hkey
      obtain ⟨key, hkey, hsame⟩ := hkey
      obtain ⟨n, hn, -⟩ := hrow.number key hkey
      rw [← r.cell_congr hsame, hn]
      rfl
  · obtain ⟨n, hn, -⟩ := hrow.number key hkey
    rw [← r.cell_congr hsame, hn]
    rfl

omit hconsistent

/-- The row of a distribution shares a key with another one only if the distribution is there. -/
private theorem collision?_row : t.collision? t.rows r = none ↔ t.places id d = false := by
  have hplaces := row_places h hneed hkeeps hrow
  rw [collision?_eq_none_iff, places, List.any_eq_false]
  constructor
  · intro hfree other hother
    rw [← Row.collide_labeledIndex hplaces, hfree _ h.labeled rfl other hother]
    exact Bool.false_ne_true
  · intro hnone i hi hunique other hother
    rcases h.keys i hi hunique with rfl | ⟨key, hkey, hparts⟩
    · rw [Row.collide_labeledIndex hplaces, Bool.eq_false_iff]
      exact hnone other hother
    · obtain ⟨n, hn, hfresh⟩ := hrow.number key hkey
      obtain ⟨m, hm⟩ := (h.numbered key hkey).2.2 other hother
      rw [Index.collide, hparts, List.all_cons, List.all_nil, Bool.and_true, KeyPart.cell,
        KeyPart.cell, hn, hm, Bool.eq_false_iff]
      intro hequals
      exact hfresh other hother (by rw [hm, Cell.eq_of_equals_int hequals])

end

private theorem TakesDistributions.place (h : t.TakesDistributions) {new : Row}
    (hrow : t.Numbered new r) : { t with rows := t.place r : Table }.TakesDistributions where
  labeled := h.labeled
  keys := h.keys
  required := h.required
  numbered key hkey := by
    obtain ⟨hother, hfallback, hnumbers⟩ := h.numbered key hkey
    refine ⟨hother, hfallback, fun other hmem => ?_⟩
    rcases List.mem_cons.mp ((t.place_perm r).mem_iff.mp hmem) with rfl | hmem
    · obtain ⟨n, hn, -⟩ := hrow.number key hkey
      exact ⟨n, hn⟩
    · exact hnumbers other hmem

private theorem places_place (hplaces : r.places id d = true) :
    { t with rows := t.place r : Table }.places id =
      fun other => t.places id other || other.sameAccess d := by
  funext other
  rw [places, (t.place_perm r).any_eq, List.any_cons, Row.places_eq hplaces, Bool.or_comm]
  rfl

/-- Inserting a distribution adds a row for it, and then it was not there, or it leaves the table as
it is, and then it was. -/
private theorem insertDistribution_cases {u : Table} {taken : Bool} (hconsistent : t.Consistent)
    (h : t.insert .ignore (Database.distributionCells id d position) = .ok (u, taken)) :
    (taken = true ∧ ∃ r, u = { t with rows := t.place r } ∧
      (t.TakesDistributions → u.TakesDistributions) ∧
      (t.TakesDistributions → t.KeepsTexts id d →
        r.places id d = true ∧ t.places id d = false)) ∨
    (taken = false ∧ u = t ∧ (t.TakesDistributions → t.KeepsTexts id d →
      t.places id d = true)) := by
  obtain ⟨hneed, r, hfill, ⟨rfl, rfl, -, hcollision⟩ | ⟨rfl, rfl, hrefused⟩⟩ :=
    insert_ignore_eq_ok h
  · refine Or.inl ⟨rfl, r, rfl, fun htakes => htakes.place (htakes.numbered_of_fillRowKey hfill),
      fun htakes hkeeps => ?_⟩
    have hrow := htakes.numbered_of_fillRowKey hfill
    exact ⟨row_places htakes hneed hkeeps hrow,
      (collision?_row htakes hneed hkeeps hrow).mp hcollision⟩
  · refine Or.inr ⟨rfl, rfl, fun htakes hkeeps => ?_⟩
    have hrow := htakes.numbered_of_fillRowKey hfill
    rcases hrefused with hmissing | hcollision
    · exact absurd (missing?_row htakes hconsistent hneed hkeeps hrow) hmissing
    · rw [← Bool.not_eq_false]
      exact fun hnone => hcollision ((collision?_row htakes hneed hkeeps hrow).mpr hnone)

end Table

namespace Database

variable {db changed ready : Database} {t : Table} {id : String} {ds : List Distribution} {n : Nat}
  {schema : Schema}

/-- Distributions inserted one after the other: rows are only added, and their number is given. -/
theorem insertDistributions_rows {position : Int} {count : Nat} (hdb : db.Consistent)
    (ht : db.table? distributions = some t)
    (hinsert : db.insertDistributions id position count ds = .ok (changed, n)) :
    ∃ u news, changed = db.put u ∧ u = { t with rows := u.rows } ∧
      u.rows.Perm (t.rows ++ news) ∧ n = count + news.length ∧
        (t.TakesDistributions → (∀ d ∈ ds, t.KeepsTexts id d) →
          List.Forall₂ (fun d r => r.places id d = true)
            (Distribution.newcomers (t.places id) ds) news) := by
  induction ds generalizing db t position count with
  | nil =>
      cases hinsert
      refine ⟨t, [], (put_self ht).symm, rfl, ?_, rfl, fun _ _ => .nil⟩
      rw [List.append_nil]
  | cons d rest ih =>
      rw [Database.insertDistributions] at hinsert
      split at hinsert
      · cases hinsert
      next next taken hnext =>
        obtain ⟨found, v, hfound, hv, rfl⟩ := modify_eq_ok hnext
        rw [ht, Option.some.injEq] at hfound
        subst hfound
        have hconsistent := hdb t (mem_of_table? ht)
        rcases Table.insertDistribution_cases hconsistent hv with
          ⟨rfl, r, rfl, htakesOn, hplaced⟩ | ⟨rfl, rfl, hknown⟩
        · have hput : (db.put { t with rows := t.place r }).table? distributions =
              some { t with rows := t.place r } := table?_put_self ht rfl
          obtain ⟨u, news, hchanged, hu, hperm, hcount, hnews⟩ :=
            ih (hdb.put (hconsistent.insert hv)) hput hinsert
          refine ⟨u, r :: news, hchanged.trans (put_put db ?_), hu, ?_, ?_, fun htakes hkeeps => ?_⟩
          · rw [hu]
          · exact hperm.trans (((t.place_perm r).append_right news).trans
              List.perm_middle.symm)
          · rw [hcount, List.length_cons]
            simp only [if_true]
            omega
          · obtain ⟨hkeepsFirst, hkeepsRest⟩ := List.forall_mem_cons.mp hkeeps
            obtain ⟨hplaces, hnew⟩ := hplaced htakes hkeepsFirst
            rw [Distribution.newcomers, hnew]
            refine .cons hplaces ?_
            -- the rest comes to what was stored and the first one
            rw [← Table.places_place hplaces]
            exact hnews (htakesOn htakes) fun other hother =>
              ⟨(hkeepsRest other hother).id, (hkeepsRest other hother).relation,
                (hkeepsRest other hother).url, (hkeepsRest other hother).label⟩
        · rw [put_self ht] at hinsert
          obtain ⟨u, news, hchanged, hu, hperm, hcount, hnews⟩ := ih hdb ht hinsert
          refine ⟨u, news, hchanged, hu, hperm, hcount, fun htakes hkeeps => ?_⟩
          obtain ⟨hkeepsFirst, hkeepsRest⟩ := List.forall_mem_cons.mp hkeeps
          rw [Distribution.newcomers, hknown htakes hkeepsFirst]
          exact hnews htakes hkeepsRest

theorem append_eq_insertDistributions (h : db.append id ds = .ok (changed, n)) :
    ∃ position, db.insertDistributions id position 0 ds = .ok (changed, n) := by
  rw [append] at h
  split at h
  next hempty =>
    rw [List.isEmpty_iff.mp hempty]
    exact ⟨0, by cases h; rfl⟩
  next =>
    split at h
    · cases h
    next position _ =>
      split at h
      · cases h
      · exact ⟨position, Step.result_eq_ok h⟩

private theorem exists_of_forall₂ {α β : Type} {R : α → β → Prop} {as : List α} {bs : List β}
    (h : List.Forall₂ R as bs) : ∀ a ∈ as, ∃ b ∈ bs, R a b := by
  induction h with
  | nil => exact fun a ha => absurd ha List.not_mem_nil
  | cons hfirst _ ih =>
      refine List.forall_mem_cons.mpr ⟨⟨_, List.mem_cons_self, hfirst⟩, fun a ha => ?_⟩
      obtain ⟨b, hb, hrelated⟩ := ih a ha
      exact ⟨b, List.mem_cons_of_mem _ hb, hrelated⟩

/-- What is appended in a database that was brought to the layout: rows are only added, and their
number is given.  Where nothing but its own key keeps a distribution out, those that are new are
added, each once, and then all are there. -/
theorem append_once (h : db.Consistent) (hready : db.prepare schema = .ok ready)
    (happend : ready.append id ds = .ok (changed, n)) :
    ∃ t u news, ready.table? distributions = some t ∧ changed = ready.put u ∧
      u = { t with rows := u.rows } ∧ u.rows.Perm (t.rows ++ news) ∧ n = news.length ∧
        (t.TakesDistributions → (∀ d ∈ ds, t.KeepsTexts id d) →
          (∀ d ∈ ds, u.places id d = true) ∧
            List.Forall₂ (fun d r => r.places id d = true)
              (Distribution.newcomers (t.places id) ds) news) := by
  obtain ⟨later, ids, hcompletes, hrefills, -⟩ := prepare_refills h hready
  obtain ⟨t, ht⟩ : ∃ t, ready.table? distributions = some t := by
    have hlater := hcompletes.tables (distributions, distributionColumns) (by simp [layoutTables])
    obtain ⟨t, ht⟩ := Option.isSome_iff_exists.mp hlater
    exact ⟨t, (hrefills.others (by decide)).trans ht⟩
  obtain ⟨position, hinsert⟩ := append_eq_insertDistributions happend
  obtain ⟨u, news, hchanged, hu, hperm, hcount, hnews⟩ :=
    insertDistributions_rows hrefills.consistent ht hinsert
  refine ⟨t, u, news, ht, hchanged, hu, hperm, ?_, fun htakes hkeeps => ?_⟩
  · rw [hcount, Nat.zero_add]
  · have hplaced := hnews htakes hkeeps
    refine ⟨fun d hd => ?_, hplaced⟩
    rw [Table.places, hperm.any_eq, List.any_append, Bool.or_eq_true]
    have hfound : t.places id d = true ∨
        ∃ e ∈ Distribution.newcomers (t.places id) ds, d.sameAccess e = true :=
      Distribution.known_or_newcomer d hd
    rcases hfound with hknown | ⟨e, he, hsame⟩
    · exact Or.inl hknown
    · obtain ⟨r, hr, hplaces⟩ := exists_of_forall₂ hplaced e he
      exact Or.inr (List.any_eq_true.mpr ⟨r, hr, (Row.places_eq hplaces d).trans hsame⟩)

/-! A table that numbers its rows, and one that has a distribution twice -/

def numberedSource : TableSource where
  name := distributions
  columns := [("number", "INTEGER PRIMARY KEY"), ("resource_id", "TEXT"), ("relation_key", "TEXT"),
    ("url", "TEXT")]
  rows := [[.int 1, .text "a", .text "download", .text "u"]]
  unique := []

def numbered : Table where
  name := distributions
  columns := [⟨"number", .integer, false, .null⟩, ⟨"resource_id", .text, false, .null⟩,
    ⟨"relation_key", .text, false, .null⟩, ⟨"url", .text, false, .null⟩,
    ⟨"label", .text, false, .null⟩, ⟨"position", .integer, true, .int 0⟩]
  rowKey := some "number"
  rows := [⟨[("number", .int 1), ("resource_id", .text "a"), ("relation_key", .text "download"),
    ("url", .text "u"), ("label", .null), ("position", .int 0)]⟩]
  indexes := [⟨"", [.column "number"], true⟩,
    plainIndex "idx_distributions_resource" ["resource_id"], labeledIndex]
  rejections := []

private theorem takes_numbered : numbered.TakesDistributions where
  labeled := by decide
  keys i hi hunique := by
    simp only [numbered, List.mem_cons, List.not_mem_nil, or_false] at hi
    rcases hi with rfl | rfl | rfl
    · exact Or.inr ⟨"number", rfl, rfl⟩
    · exact absurd hunique Bool.false_ne_true
    · exact Or.inl rfl
  numbered key hkey := by
    cases hkey
    refine ⟨by decide, fun c hc => ?_, fun r hr => ?_⟩
    · cases hc
      rfl
    · rw [List.mem_singleton.mp hr]
      exact ⟨1, rfl⟩
  required := by
    decide

private theorem append_numbered : ((ofSources [numberedSource]).bind fun db =>
    (db.prepare .aardvark).map fun ready => (ready.table? distributions,
      (ready.append "a" [⟨"download", "u", some ""⟩, ⟨"download", "v", none⟩]).toOption.map
        Prod.snd)) = .ok (some numbered, some 1) := by
  decide +kernel

theorem append_once_numbered : ∃ db ready changed, ofSources [numberedSource] = .ok db ∧
    db.Consistent ∧ db.prepare .aardvark = .ok ready ∧
    ready.append "a" [⟨"download", "u", some ""⟩, ⟨"download", "v", none⟩] = .ok (changed, 1) ∧
    ∃ u news, changed = ready.put u ∧ u.rows.Perm (numbered.rows ++ news) ∧ 1 = news.length ∧
      u.places "a" ⟨"download", "u", some ""⟩ = true ∧
        u.places "a" ⟨"download", "v", none⟩ = true := by
  obtain ⟨db, hdb, hrest⟩ := bind_eq_ok.mp append_numbered
  obtain ⟨ready, hready, hdone⟩ := map_eq_ok.mp hrest
  rw [Prod.mk.injEq] at hdone
  obtain ⟨ht, happended⟩ := hdone
  obtain ⟨⟨changed, n⟩, happend, hn⟩ := Option.map_eq_some_iff.mp happended
  obtain rfl : n = 1 := hn
  have happend : ready.append "a" [⟨"download", "u", some ""⟩, ⟨"download", "v", none⟩] =
      .ok (changed, 1) := toOption_eq_some.mp happend
  have hconsistent := consistent_ofSources hdb
  obtain ⟨t, u, news, hfound, hchanged, -, hperm, hcount, htaken⟩ :=
    append_once hconsistent hready happend
  rw [ht, Option.some.injEq] at hfound
  subst hfound
  have hkeeps : ∀ d ∈ [(⟨"download", "u", some ""⟩ : Distribution), ⟨"download", "v", none⟩],
      numbered.KeepsTexts "a" d := by
    refine List.forall_mem_cons.mpr ⟨⟨rfl, rfl, rfl, ?_⟩, List.forall_mem_singleton.mpr
      ⟨rfl, rfl, rfl, ?_⟩⟩
    · exact fun label _ => rfl
    · exact fun label _ => rfl
  obtain ⟨hplaced, -⟩ := htaken takes_numbered hkeeps
  exact ⟨db, ready, changed, hdb, hconsistent, hready, happend, u, news, hchanged, hperm, hcount,
    hplaced _ List.mem_cons_self, hplaced _ (List.mem_cons_of_mem _ List.mem_cons_self)⟩

def repeatedSource : TableSource where
  name := distributions
  columns := [("resource_id", "TEXT"), ("relation_key", "TEXT"), ("url", "TEXT")]
  rows := [[.text "a", .text "url", .text "u"], [.text "a", .text "url", .text "u"]]
  unique := []

/-- Where a table has a distribution twice its key cannot be added, and then it is added again. -/
theorem append_repeats : ((ofSources [repeatedSource]).bind fun db =>
    (db.prepare .aardvark).map fun ready =>
      ((ready.table? distributions).map fun t => t.places "a" ⟨"url", "u", none⟩,
        (ready.append "a" [⟨"url", "u", none⟩]).toOption.map fun done =>
          ((done.1.rows distributions).length, done.2))) = .ok (some true, some (3, 1)) := by
  decide +kernel

end Database

end Gazetteer
