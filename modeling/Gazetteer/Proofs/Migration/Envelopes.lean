import Mathlib
import Gazetteer.Proofs.Ledger.Rows
import Gazetteer.Proofs.Migration.Backfill
import Gazetteer.Proofs.Store.Legacy
import Gazetteer.Proofs.Text.Like
/-!
The envelopes of a database that had none: rows get that of their text if it begins with the word
and its bracket, and then the one that a write of that text stores.  A text with blanks before or
within its beginning can be read as an envelope too, and gets none.
-/

namespace Gazetteer

open Layout

namespace Envelope

/-- Whether a text begins with the word and its bracket, in either case. -/
def opens (s : String) : Bool :=
  (s.toList.take 9).map Char.toLower == keyword ++ ['(']

theorem isLike_envelopeStart (s : String) :
    Text.isLike Database.envelopeStart s.toList = opens s := by
  have hterm : ∀ c ∈ keyword ++ ['('], c.toLower = c ∧ c.toNat ≠ 0 := by
    simp [keyword]
  have hitems : Text.wildcards? (Text.upToNul Database.envelopeStart) =
      some ((keyword ++ ['(']).map Text.Wildcard.char ++ [.run]) := by
    decide
  rw [Text.isLike, hitems]
  exact Text.matchesItems_start hterm s.toList

end Envelope

namespace Database

variable {db ready : Database} {schema : Schema}

def filling? (c : Cell) : Option Envelope :=
  (c.string?.filter Envelope.opens).bind Envelope.parse?

theorem awaited?_eq {r : Row} (h : r.cell "geom_minx" = .null) :
    awaited? r = filling? (r.cell boxField) := by
  rw [awaited?, awaitsEnvelope, h, Cell.isNull, Bool.true_and]
  cases hbox : r.cell boxField with
  | text s =>
      simp only [Cell.likeChars?, Envelope.isLike_envelopeStart, filling?, Cell.string?,
        Option.filter_some, Cell.envelope?]
      cases Envelope.opens s <;> rfl
  | null => rfl
  | int n => simp [filling?, Cell.string?, Cell.envelope?]
  | real x => simp [filling?, Cell.string?, Cell.envelope?]
  | blob b => simp [filling?, Cell.string?, Cell.envelope?]

/-! The table of the resources -/

/-- No named index of the layout asks the resources to differ in anything. -/
theorem layoutIndexes_resources : ∀ entry ∈ layoutIndexes,
    Text.sameLetters entry.1 resources = true → entry.2.unique = false := by
  decide

private theorem scalarColumns_apart :
    ∀ column ∈ Schema.scalarColumns .aardvark, Text.fold column ∉ geometryColumns := by
  decide

private theorem Completes.geometry {later : Database} (h : Completes schema db later)
    {u : Table} (hu : later.table? resources = some u) {column : String}
    (hcolumn : column ∈ geometryColumns) : ∃ c ∈ u.columns, Text.fold c.name = column := by
  have hentry : (resources, column, plain .real) ∈ laterColumns schema :=
    List.mem_append_left _ (List.mem_append_right _ (List.mem_map_of_mem hcolumn))
  obtain ⟨found, hfound, c, hc, hlower⟩ :=
    h.columns hentry (unquote?_geometry column hcolumn) List.mem_cons_self
  rw [hu, Option.some.injEq] at hfound
  subst hfound
  exact ⟨c, hc, fold_eq_of_geometry hcolumn hlower⟩

def Occupied (schema : Schema) (column : String) : Prop :=
  ∃ field ∈ schema.scalarColumns, ∃ read, Name.unquote? field = some read ∧
    Text.fold read = column

theorem not_occupied_aardvark {column : String} (hcolumn : column ∈ geometryColumns) :
    ¬Occupied .aardvark column := by
  rintro ⟨field, hfield, read, hread, rfl⟩
  obtain rfl := Schema.eq_of_unquote?_scalar hfield hread
  exact scalarColumns_apart read hfield hcolumn

/-- What a table of resources that had no columns for an envelope has become before its envelopes
are filled in. -/
structure Widened (schema : Schema) (t later : Table) (added : List Column) : Prop where
  consistent : later.Consistent
  fillable : later.Fillable
  grown : t.Grown later added
  fallback : ∀ c ∈ added, c.fallback = .null
  edges : ∀ column ∈ geometryColumns, ∃ c, later.column? column = some c ∧
    (c.affinity = .real ∨ Occupied schema column)

private theorem real_or_occupied {name column : String} {c : Column}
    (hname : Text.sameLetters resources name = true) (hlater : IsLater schema name c)
    (hfold : Text.fold c.name = column) : c.affinity = .real ∨ Occupied schema column := by
  rcases isLater_resources hname hlater with ⟨field, hfield, read, hread, rfl⟩ | ⟨other, -, rfl⟩
  · exact Or.inr ⟨field, hfield, read, hread, hfold⟩
  · exact Or.inl rfl

theorem Completes.widened {later : Database} (h : Completes schema db later)
    (hdb : db.Consistent) {t : Table} (ht : db.table? resources = some t)
    (hgeometry : ∀ column ∈ geometryColumns, t.has column = false) :
    ∃ u added, later.table? resources = some u ∧ Widened schema t u added := by
  obtain ⟨u, hu, hgained⟩ := h.grows.kept ht
  have hconsistent := h.grows.consistent hdb u (mem_of_table? hu)
  obtain ⟨added, hgrown, hlater⟩ := hgained.columns
  have hname : Text.sameLetters resources t.name = true := by
    rw [Text.sameLetters_comm]
    exact sameLetters_of_table? ht
  have hedges : ∀ column ∈ geometryColumns, ∃ c, u.column? column = some c ∧
      (c.affinity = .real ∨ Occupied schema column) := by
    intro column hcolumn
    obtain ⟨c, hc, hfold⟩ := h.geometry hu hcolumn
    have hsame : Text.fold c.name = Text.fold column := by
      rw [hfold, Row.fold_geometryColumns column hcolumn]
    have hadded : c ∈ added := by
      rw [hgrown.columns] at hc
      refine (List.mem_append.mp hc).resolve_left fun hold => ?_
      have hhas := Table.has_iff.mpr (List.mem_map.mpr ⟨c, hold, hsame⟩)
      rw [hgeometry column hcolumn] at hhas
      cases hhas
    exact ⟨c, hconsistent.column?_eq hc hsame, real_or_occupied hname (hlater c hadded) hfold⟩
  refine ⟨u, added, hu, hconsistent, ⟨fun column hcolumn => ?_, ?_⟩, hgrown, fun c hc => ?_,
    hedges⟩
  · obtain ⟨c, hc, -⟩ := hedges column hcolumn
    rw [Table.has, hc]
    rfl
  · intro i hi hunique p hp hmem
    rcases hgained.indexes i hi with hi | ⟨entry, hentry, hentryName, rfl⟩
    · have hpart := Table.has_iff.mp ((hdb t (mem_of_table? ht)).parts i hi p hp)
      rw [← Row.fold_geometryColumns _ hmem, ← Table.has_iff, hgeometry _ hmem] at hpart
      cases hpart
    · rw [Text.sameLetters_comm] at hname
      have hnot := layoutIndexes_resources entry hentry (sameLetters_trans hentryName hname)
      rw [hnot] at hunique
      cases hunique
  · rcases isLater_resources hname (hlater c hc) with
      ⟨column, -, read, -, rfl⟩ | ⟨column, -, rfl⟩ <;> rfl

/-- The same for the fields of the layout, where none has a name of the envelope. -/
structure Awaiting (t later : Table) : Prop where
  consistent : later.Consistent
  fillable : later.Fillable
  real : ∀ column ∈ geometryColumns, ∃ c, later.column? column = some c ∧ c.affinity = .real
  box : later.has boxField = true
  rows : ∃ added, later.rows = t.rows.map (fun r => r.extend added) ∧
    ∀ c ∈ added, c.fallback = .null

theorem Completes.awaiting {later : Database} (h : Completes .aardvark db later)
    (hdb : db.Consistent) {t : Table} (ht : db.table? resources = some t)
    (hbox : t.has boxField = true) (hgeometry : ∀ column ∈ geometryColumns, t.has column = false) :
    ∃ u, later.table? resources = some u ∧ Awaiting t u := by
  obtain ⟨u, added, hu, hwidened⟩ := h.widened hdb ht hgeometry
  refine ⟨u, hu, hwidened.consistent, hwidened.fillable, fun column hcolumn => ?_,
    hwidened.grown.has hbox, added, hwidened.grown.rows, hwidened.fallback⟩
  obtain ⟨c, hc, hreal | hoccupied⟩ := hwidened.edges column hcolumn
  · exact ⟨c, hc, hreal⟩
  · exact absurd hoccupied (not_occupied_aardvark hcolumn)

theorem cell_of_no_geometry {t : Table} (hconsistent : t.Consistent)
    (hgeometry : ∀ column ∈ geometryColumns, t.has column = false) {r : Row} (hr : r ∈ t.rows)
    {column : String} (hcolumn : column ∈ geometryColumns) : r.cell column = .null := by
  refine Row.cell_of_not_lists fun hlists => ?_
  have hhas := (hconsistent.rows r hr).lists_iff.mp hlists
  rw [hgeometry column hcolumn] at hhas
  cases hhas

/-! Filled rows -/

/-- What a row of the resources has become in the table `u`. -/
structure Filled (u : Table) (old new : Row) : Prop where
  text : ∀ column, Text.fold column ∉ geometryColumns → new.cell column = old.cell column
  /-- The envelope is that of the box text if the text begins with the word and its bracket. -/
  geometry : geometryColumns.map new.cell =
    (geometryCells ((filling? (old.cell boxField)).map Envelope.stored)).map Prod.snd
  /-- Then, or if the text is no envelope at all, it is what a write of the text stores. -/
  written : ∀ s, old.cell boxField = .text s →
    Envelope.opens s = true ∨ Envelope.parse? s = none →
      ∀ r : Resource, Schema.Accepts .aardvark r → r.boxText? = some s →
        geometryColumns.map new.cell = geometryColumns.map (u.newRow (scalarCells r)).cell

private theorem map_newRow_geometry {u : Table} {r : Resource} (hr : Schema.Accepts .aardvark r)
    (hreal : ∀ column ∈ geometryColumns, ∃ c, u.column? column = some c ∧ c.affinity = .real) :
    geometryColumns.map (u.newRow (scalarCells r)).cell =
      (geometryCells r.envelope?).map Prod.snd := by
  have hcells : geometryColumns.map (u.newRow (scalarCells r)).cell =
      geometryColumns.map fun column => (findEntry column (geometryCells r.envelope?)).getD .null :=
    List.map_congr_left fun column hcolumn => by
      obtain ⟨c, hc, haffinity⟩ := hreal column hcolumn
      exact Resource.newRow_geometry hr hcolumn hc haffinity
  rw [hcells]
  cases r.envelope? <;> simp [geometryColumns, geometryCells, findEntry]

private theorem filling?_text {s : String}
    (h : Envelope.opens s = true ∨ Envelope.parse? s = none) :
    filling? (.text s) = Envelope.parse? s := by
  rw [filling?, Cell.string?, Option.filter_some]
  rcases h with hopens | hnone
  · rw [hopens]
    rfl
  · rw [hnone]
    cases Envelope.opens s
    · rfl
    · exact hnone

theorem filled_fillOwn {t later : Table} (h : Awaiting t later) {u : Table}
    (hu : u.columns = later.columns) {old new : Row}
    (hsame : ∀ column, new.cell column = old.cell column)
    (hnone : ∀ column ∈ geometryColumns, old.cell column = .null) :
    Filled u old (fillOwn later new) := by
  have hminX : new.cell "geom_minx" = .null := by
    rw [hsame]
    exact hnone _ (by decide)
  have hawaited : awaited? new = filling? (old.cell boxField) := by
    rw [awaited?_eq hminX, hsame]
  have hcells : geometryColumns.map (fillOwn later new).cell =
      (geometryCells ((filling? (old.cell boxField)).map Envelope.stored)).map Prod.snd := by
    rw [fillOwn, hawaited]
    cases filling? (old.cell boxField) with
    | none =>
        have hnull : geometryColumns.map new.cell = geometryColumns.map fun _ => .null :=
          List.map_congr_left fun column hcolumn => (hsame column).trans (hnone column hcolumn)
        exact hnull
    | some e =>
        refine new.cells_update_geometry e fun column hcolumn => ?_
        obtain ⟨c, hc, hreal⟩ := h.real column hcolumn
        rw [Table.affinity, hc]
        exact hreal
  refine ⟨fun column hcolumn => ?_, hcells, fun s hs hcase r hr hbox => ?_⟩
  · rw [fillOwn, ← hsame]
    cases awaited? new with
    | none => rfl
    | some e => exact new.cell_update_outside e hcolumn
  · have hreal : ∀ column ∈ geometryColumns,
        ∃ c, u.column? column = some c ∧ c.affinity = .real := by
      have hcolumn? (column : String) : u.column? column = later.column? column :=
        congrArg (List.find? _) hu
      simpa only [hcolumn?] using h.real
    rw [hcells, map_newRow_geometry hr hreal, hs, filling?_text hcase, Resource.envelope?, hbox,
      Option.bind_some]

/-- Where ids are unique texts and no table of resources had columns for an envelope, all rows are
filled. -/
theorem prepare_fillsEnvelopes {t : Table} {ids : List String} (hdb : db.Consistent)
    (ht : db.table? resources = some t) (hids : t.rows.map (·.cell "id") = ids.map Cell.text)
    (hunique : ids.Nodup) (hbox : t.has boxField = true)
    (hgeometry : ∀ column ∈ geometryColumns, t.has column = false)
    (hready : db.prepare .aardvark = .ok ready) :
    ∃ u, ready.table? resources = some u ∧ List.Forall₂ (Filled u) t.rows u.rows := by
  obtain ⟨later, hcompletes, hbackfill⟩ := prepare_eq_ok hready
  obtain ⟨v, hv, hawaiting⟩ := hcompletes.awaiting hdb ht hbox hgeometry
  obtain ⟨added, hrows, hadded⟩ := hawaiting.rows
  have hsame (r : Row) (column : String) : (r.extend added).cell column = r.cell column :=
    r.cell_extend_of_null column hadded
  have hmap : v.rows.map (·.cell "id") = ids.map Cell.text := by
    rw [hrows, List.map_map, ← hids]
    exact List.map_congr_left fun r _ => hsame r "id"
  have hnodup : (v.rows.map (·.cell "id")).Nodup := by
    rw [hmap]
    exact hunique.map fun a b h => Cell.text.inj h
  have htexts : ∀ r ∈ v.rows, ∃ id, r.cell "id" = .text id := by
    intro r hr
    have hmem := List.mem_map_of_mem (f := fun r : Row => r.cell "id") hr
    rw [hmap] at hmem
    obtain ⟨id, -, hid⟩ := List.mem_map.mp hmem
    exact ⟨id, hid.symm⟩
  have hlater := hcompletes.grows.consistent hdb
  obtain ⟨filled, n, u, hfill, hu, hfilled⟩ :=
    backfill_eq hlater hv hawaiting.fillable hawaiting.box htexts hnodup
  obtain rfl : ready = filled := by
    rcases hbackfill with ⟨m, hm⟩ | ⟨-, fault, hfault⟩
    · rw [hfill] at hm
      cases hm
      rfl
    · rw [hfill] at hfault
      cases hfault
  obtain ⟨_, hrefills, -⟩ := Refills.backfill hlater hfill
  obtain ⟨w, hw, hrefilled⟩ := hrefills.resources hv
  rw [hu, Option.some.injEq] at hw
  subst hw
  refine ⟨u, hu, ?_⟩
  rw [hfilled, hrows, List.map_map, List.forall₂_map_right_iff, List.forall₂_same]
  intro r hr
  exact filled_fillOwn hawaiting hrefilled.columns (hsame r) fun column hcolumn =>
    cell_of_no_geometry (hdb t (mem_of_table? ht)) hgeometry hr hcolumn

/-! Two texts that are read as one envelope, one of them with a blank before it -/

def boxesSource : TableSource where
  name := resources
  columns := [("id", "TEXT PRIMARY KEY"), (boxField, "TEXT")]
  rows := [[.text "a", .text "Envelope(1,2,4,3)"], [.text "b", .text " ENVELOPE(1,2,4,3)"]]
  unique := []

def boxes : Table where
  name := resources
  columns := [⟨"id", .text, false, .null⟩, ⟨boxField, .text, false, .null⟩]
  rowKey := none
  rows := [⟨[("id", .text "a"), (boxField, .text "Envelope(1,2,4,3)")]⟩,
    ⟨[("id", .text "b"), (boxField, .text " ENVELOPE(1,2,4,3)")]⟩]
  indexes := [⟨"", [.column "id"], true⟩]
  rejections := []

theorem ofSources_boxes : ofSources [boxesSource] = .ok ⟨[boxes]⟩ := by
  decide +kernel

theorem prepare_boxes : ((⟨[boxes]⟩ : Database).prepare .aardvark).map (fun ready =>
    (ready.rows resources).map fun r => geometryColumns.map r.cell) =
      .ok [[.real 1, .real 3, .real 2, .real 4], [.null, .null, .null, .null]] := by
  decide +kernel

theorem prepare_fillsEnvelopes_boxes : ∃ db t ready, ofSources [boxesSource] = .ok db ∧
    db.table? resources = some t ∧ t.rows.map (·.cell "id") = ["a", "b"].map Cell.text ∧
    db.prepare .aardvark = .ok ready ∧
    ∃ u, ready.table? resources = some u ∧ List.Forall₂ (Filled u) t.rows u.rows := by
  obtain ⟨ready, hready, -⟩ := map_eq_ok.mp prepare_boxes
  have hboxes : (⟨[boxes]⟩ : Database).table? resources = some boxes := rfl
  have hids : boxes.rows.map (·.cell "id") = ["a", "b"].map Cell.text := by
    decide
  refine ⟨_, boxes, ready, ofSources_boxes, hboxes, hids, hready, ?_⟩
  exact prepare_fillsEnvelopes (consistent_ofSources ofSources_boxes) hboxes hids (by decide)
    (by decide) (by decide) hready

/-- Of two texts of one envelope, the one that begins with a blank is passed over, though a write
of it stores the envelope. -/
theorem prepare_missesEnvelope :
    Envelope.parse? "Envelope(1,2,4,3)" = some ⟨1, 3, 2, 4⟩ ∧
      Envelope.parse? " ENVELOPE(1,2,4,3)" = some ⟨1, 3, 2, 4⟩ ∧
      ((⟨[boxes]⟩ : Database).prepare .aardvark).map (fun ready =>
        (ready.rows resources).map fun r => geometryColumns.map r.cell) =
          .ok [[.real 1, .real 3, .real 2, .real 4], [.null, .null, .null, .null]] ∧
      geometryColumns.map ((Resource.ofId "b").setScalar boxField
        " ENVELOPE(1,2,4,3)").scalarRow.cell = [.real 1, .real 3, .real 2, .real 4] := by
  refine ⟨?_, ?_, prepare_boxes, ?_⟩ <;> decide +kernel

end Database

end Gazetteer
