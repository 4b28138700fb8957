import Mathlib
import Gazetteer.Proofs.Migration.Envelopes
import Gazetteer.Proofs.Migration.Settled
/-!
Bringing a database to the layout only adds to it: rows and their cells stay, but for the envelopes
of resources that awaited them, all columns of the layout are there in the end, and to do it again
changes nothing.
-/

namespace Gazetteer

open Layout

/-! Rows after envelopes were put into the rows of their ids -/

namespace Table

variable {t : Table} {r : Row} {entries : List (String × Envelope)}

theorem fillRow_cell (t : Table) (entries : List (String × Envelope)) (r : Row) {column : String}
    (hcolumn : Text.fold column ∉ geometryColumns) :
    (t.fillRow entries r).cell column = r.cell column := by
  induction entries generalizing r with
  | nil => rfl
  | cons entry rest ih =>
      rw [fillRow, List.foldl_cons]
      refine (ih _).trans ?_
      rw [changedRow]
      split
      · exact r.cell_update_outside entry.2 hcolumn
      · rfl

theorem fillRow_eq_self (h : ∀ entry ∈ entries, r.cell "id" ≠ .text entry.1) :
    t.fillRow entries r = r := by
  induction entries with
  | nil => rfl
  | cons entry rest ih =>
      obtain ⟨hentry, hrest⟩ := List.forall_mem_cons.mp h
      have hnot : ¬(r.cell "id").equals (.text entry.1) = true := by
        rwa [Cell.equals_text_iff]
      rw [fillRow, List.foldl_cons, changedRow, if_neg hnot]
      exact ih hrest

private theorem update_minX (r : Row) (e : Envelope) :
    (r.update (t.kept (Database.geometryCells (some e)))).cell "geom_minx" ≠ .null := by
  have hfind : findEntry (Text.fold "geom_minx")
      (Row.ofChanges (t.kept (Database.geometryCells (some e)))) =
        some ((Cell.real e.minX).store (t.affinity "geom_minx")) := by
    simp [kept, Database.geometryCells, geometryColumns, Row.ofChanges, findEntry]
  rw [Row.cell_update, hfind, Option.getD_some, Ne, ← Cell.isNull_iff, Cell.isNull_store]
  exact Bool.false_ne_true

/-- A first edge that is there stays, and rows with an id of the entries get one. -/
theorem fillRow_minX
    (h : r.cell "geom_minx" ≠ .null ∨ ∃ entry ∈ entries, r.cell "id" = .text entry.1) :
    (t.fillRow entries r).cell "geom_minx" ≠ .null := by
  induction entries generalizing r with
  | nil =>
      rcases h with h | ⟨entry, hentry, -⟩
      · exact h
      · exact absurd hentry List.not_mem_nil
  | cons entry rest ih =>
      rw [fillRow, List.foldl_cons, changedRow]
      split
      next => exact ih (Or.inl (update_minX r entry.2))
      next hnot =>
        rcases h with h | ⟨other, hother, hid⟩
        · exact ih (Or.inl h)
        rcases List.mem_cons.mp hother with rfl | hother
        · exact absurd (Cell.equals_text_iff.mpr hid) hnot
        · exact ih (Or.inr ⟨other, hother, hid⟩)

end Table

namespace Database

variable {db filled ready : Database} {t : Table} {schema : Schema}

theorem fillEnvelopes_put {entries : List (String × Envelope)} {count n : Nat} (h : db.Consistent)
    (ht : db.table? resources = some t)
    (hwanted : ∀ entry ∈ entries, t.wanted "id" entry.1 = .text entry.1)
    (hfill : db.fillEnvelopes count entries = .ok (filled, n)) :
    filled = db.put (t.filled entries) := by
  induction entries generalizing db t count with
  | nil =>
      cases hfill
      rw [t.filled_nil, put_self ht]
  | cons entry rest ih =>
      obtain ⟨hfirst, hrest⟩ := List.forall_mem_cons.mp hwanted
      rw [Database.fillEnvelopes] at hfill
      split at hfill
      · cases hfill
      next changed count' hchanged =>
        obtain ⟨found, u, hfound, hu, rfl⟩ := modify_eq_ok hchanged
        rw [ht, Option.some.injEq] at hfound
        subst hfound
        obtain ⟨rfl, hconsistent⟩ := (h t (mem_of_table? ht)).change_eq_ok hu
        rw [Table.filled_singleton hfirst] at hfill hconsistent
        have hput : (db.put (t.filled [entry])).table? resources = some (t.filled [entry]) :=
          table?_put_self ht rfl
        have hfilled := ih (h.put hconsistent) hput hrest hfill
        rw [t.filled_cons] at hfilled
        exact hfilled.trans (put_put db rfl)

theorem id_of_candidates {rows : List Row} {entries : List (String × Envelope)}
    (h : candidates rows = .ok entries) : ∀ r ∈ rows, ∀ e, (r.cell boxField).envelope? = some e →
      ∃ id, r.cell "id" = .text id := by
  induction rows generalizing entries with
  | nil => exact fun r hr => absurd hr List.not_mem_nil
  | cons first rest ih =>
      rw [candidates] at h
      split at h
      next hnone =>
        refine List.forall_mem_cons.mpr ⟨fun e he => ?_, ih h⟩
        rw [hnone] at he
        cases he
      next e he =>
        split at h
        · cases h
        next id hid =>
          obtain ⟨others, hothers, -⟩ := map_eq_ok.mp h
          exact List.forall_mem_cons.mpr
            ⟨fun _ _ => ⟨id, Cell.string?_eq_some.mp hid⟩, ih hothers⟩

/-- What is filled in, where it succeeds: all that is awaited and can be read. -/
structure Fills (db : Database) (t : Table) (filled : Database) : Prop where
  table : db.table? resources = some t
  columns : t.has "geom_minx" = true ∧ t.has boxField = true
  ids : ∀ r ∈ t.rows, ∀ e, awaited? r = some e → ∃ id, r.cell "id" = .text id
  put : filled = db.put (t.filled (fillings t))

theorem exists_of_need {wanted : List (String × String)} (h : db.need wanted = .ok ()) :
    ∀ entry ∈ wanted, ∃ t, db.table? entry.1 = some t ∧ t.has entry.2 = true := by
  induction wanted with
  | nil => exact fun entry hentry => absurd hentry List.not_mem_nil
  | cons entry rest ih =>
      rw [need, Database.table] at h
      cases ht : db.table? entry.1 with
      | none =>
          rw [ht] at h
          cases h
      | some t =>
          simp only [ht] at h
          split at h
          next hcolumn => exact List.forall_mem_cons.mpr ⟨⟨t, ht, hcolumn⟩, ih h⟩
          next => cases h

theorem fills_of_backfill {n : Nat} (h : db.Consistent) (hfill : db.backfill = .ok (filled, n)) :
    ∃ t, db.Fills t filled := by
  obtain ⟨rows, hrows, hfill⟩ := bind_eq_ok.mp hfill
  obtain ⟨⟨⟩, hneed, hawaiting⟩ := map_eq_ok.mp hrows
  have hcolumns := exists_of_need hneed
  simp only [List.forall_mem_cons] at hcolumns
  obtain ⟨⟨t, ht, hminX⟩, ⟨u, hu, hbox⟩, -⟩ := hcolumns
  rw [ht, Option.some.injEq] at hu
  subst hu
  have hfound : db.rows resources = t.rows := by
    simp only [Database.rows, ht]
  rw [hfound] at hawaiting
  subst hawaiting
  have hown {r : Row} {e : Envelope} (hr : r ∈ t.rows) (he : awaited? r = some e) :
      r ∈ t.rows.filter awaitsEnvelope ∧ (r.cell boxField).envelope? = some e := by
    rw [awaited?_eq_some] at he
    exact ⟨List.mem_filter.mpr ⟨hr, he.1⟩, he.2⟩
  split at hfill
  next hall =>
    cases hfill
    refine ⟨t, ht, ⟨hminX, hbox⟩, fun r hr e he => ?_, ?_⟩
    · obtain ⟨hmem, henvelope⟩ := hown hr he
      have hisNone := List.all_eq_true.mp hall r hmem
      rw [henvelope] at hisNone
      cases hisNone
    · rw [fillings_eq_nil hall, t.filled_nil, put_self ht]
  next =>
    obtain ⟨-, -, hfill⟩ := bind_eq_ok.mp hfill
    obtain ⟨entries, hentries, hfill⟩ := bind_eq_ok.mp hfill
    have hsame := candidates_eq_ok hentries
    subst hsame
    refine ⟨t, ht, ⟨hminX, hbox⟩, fun r hr e he => ?_,
      fillEnvelopes_put h ht (fun entry hentry => ?_) hfill⟩
    · obtain ⟨hmem, henvelope⟩ := hown hr he
      exact id_of_candidates hentries r hmem e henvelope
    · obtain ⟨r, hr, -, hcell⟩ := mem_awaited.mp hentry
      exact (h t (mem_of_table? ht)).wanted_eq hr hcell

theorem Fills.awaited?_eq_none (h : db.Fills t filled) :
    ∀ r ∈ (t.filled (fillings t)).rows, awaited? r = none := by
  refine List.forall_mem_map.mpr fun r hr => ?_
  rw [Option.eq_none_iff_forall_ne_some]
  intro e he
  have hbox : (t.fillRow (fillings t) r).cell boxField = r.cell boxField :=
    t.fillRow_cell _ r (by decide)
  rw [awaited?_eq_some, awaitsEnvelope, Bool.and_eq_true,
    Cell.isNull_iff, hbox] at he
  obtain ⟨⟨hminX, hstart⟩, henvelope⟩ := he
  refine Table.fillRow_minX ?_ hminX
  by_contra hnot
  rw [not_or, not_not] at hnot
  have hawaited : awaited? r = some e := by
    rw [awaited?, awaitsEnvelope, hnot.1, henvelope]
    exact if_pos hstart
  obtain ⟨id, hid⟩ := h.ids r hr e hawaited
  exact hnot.2 ⟨(id, e), mem_awaited.mpr ⟨r, hr, hawaited, hid⟩, hid⟩

theorem Fills.backfill (h : db.Fills t filled) : filled.backfill = .ok (filled, 0) := by
  have ht : filled.table? resources = some (t.filled (fillings t)) := by
    rw [h.put]
    exact table?_put_self h.table rfl
  refine backfill_eq_self (awaiting_eq ht h.columns.1 h.columns.2)
    (List.all_eq_true.mpr fun r hr => ?_)
  obtain ⟨hmem, hawaits⟩ := List.mem_filter.mp hr
  have hnone := h.awaited?_eq_none r hmem
  rw [awaited?, if_pos hawaits] at hnone
  rw [hnone]
  rfl

theorem Fills.retains (h : db.Fills t filled) : Retains db filled := by
  rw [h.put]
  exact .put h.table rfl (fun _ => id) fun _ => id

theorem Fills.hasIndex (h : db.Fills t filled) {index : String}
    (hindex : filled.hasIndex index = true) : db.hasIndex index = true := by
  have hback : filled.put t = db := by
    have hname : t.name = (t.filled (fillings t)).name := rfl
    rw [h.put]
    exact (put_put db hname).trans (put_self h.table)
  have ht : filled.table? resources = some (t.filled (fillings t)) := by
    rw [h.put]
    exact table?_put_self h.table rfl
  rw [← hback]
  exact hasIndex_put ht rfl (fun _ => id) hindex

theorem Fills.table?_of_ne (h : db.Fills t filled) {name : String}
    (hname : Text.sameLetters resources name = false) : filled.table? name = db.table? name := by
  have hne : Text.sameLetters t.name name = false :=
    sameLetters_eq_false (sameLetters_of_table? h.table) hname
  rw [h.put]
  exact table?_put_of_ne hne

/-- To bring a database to the layout again changes nothing, and all columns of the layout are
there, or would be there twice. -/
theorem prepare_again (h : db.Consistent) (hready : db.prepare schema = .ok ready) :
    ready.prepare schema = .ok ready ∧
      ∀ entry ∈ laterColumns schema, ready.Asked entry.1 entry.2.1 := by
  obtain ⟨base, hbase, hfilled⟩ := prepare_steps hready
  obtain ⟨hgrows, htables⟩ := afterAll_baseSteps hbase
  have hlater := (completes_addLater hbase).grows.consistent h
  have hagain := (settles_afterAll settles_baseStep db base hbase).2
  have hretains := Retains.addLater schema base
  rcases hfilled with ⟨n, hfill⟩ | ⟨rfl, fault, hfault⟩
  · obtain ⟨t, hfills⟩ := fills_of_backfill hlater hfill
    obtain ⟨hself, hasked⟩ := addLater_eq_self htables hfills.retains hfills.hasIndex
      (hfills.table?_of_ne (by decide))
    refine ⟨?_, hasked⟩
    simp only [prepare, hagain ready (hretains.trans hfills.retains), hself, hfills.backfill]
  · obtain ⟨hself, hasked⟩ := addLater_eq_self htables (.refl _) id rfl
    refine ⟨?_, hasked⟩
    simp only [prepare, hagain _ hretains, hself, hfault]

end Database

namespace Table

/-- Whether a row has the id of a row that awaits an envelope and has the text of one. -/
def Pending (t : Table) (r : Row) : Prop :=
  ∃ other ∈ t.rows, ∃ id, r.cell "id" = .text id ∧ other.cell "id" = .text id ∧
    other.cell "geom_minx" = .null ∧
      ∃ s, other.cell boxField = .text s ∧ Envelope.opens s = true ∧
        (Envelope.parse? s).isSome = true

end Table

namespace Database

variable {db filled later ready : Database} {t : Table} {schema : Schema} {name : String}

/-- Whether the cell of a row may change: an edge of the envelope of a resource that awaits it. -/
def MayChange (name : String) (t : Table) (r : Row) (column : String) : Prop :=
  Text.sameLetters resources name = true ∧ Text.fold column ∈ geometryColumns ∧ t.Pending r

/-- A table as it was, but for more columns and for the envelopes that its rows awaited. -/
def KeepsRows (name : String) (t u : Table) : Prop :=
  List.Forall₂ (fun old new => ∀ column, t.has column = true →
    new.cell column = old.cell column ∨ MayChange name t old column) t.rows u.rows

/-- What bringing a database to the layout makes of it. -/
structure Additive (schema : Schema) (db ready : Database) : Prop where
  rows : ∀ {name t}, db.table? name = some t →
    ∃ u, ready.table? name = some u ∧ KeepsRows name t u
  fields : ∀ column ∈ schema.scalarColumns, ready.Offers resources column
  envelopes : ∀ column ∈ geometryColumns, ready.Offers resources column
  places : ready.Offers distributions "label" ∧ ready.Offers distributions "position"
  stamps : ready.Offers thumbnails "updated_at" ∧ ready.Offers staticMaps "updated_at"
  again : ready.prepare schema = .ok ready

/-! Rows -/

theorem pending_of_awaited {r : Row} (h : (awaited? r).isSome = true) :
    r.cell "geom_minx" = .null ∧ ∃ s, r.cell boxField = .text s ∧ Envelope.opens s = true ∧
      (Envelope.parse? s).isSome = true := by
  obtain ⟨e, he⟩ := Option.isSome_iff_exists.mp h
  have hminX : r.cell "geom_minx" = .null := by
    rw [awaited?_eq_some, awaitsEnvelope, Bool.and_eq_true,
      Cell.isNull_iff] at he
    exact he.1.1
  rw [awaited?_eq hminX, filling?] at he
  obtain ⟨s, hs, hparse⟩ := Option.bind_eq_some_iff.mp he
  obtain ⟨hstring, hopens⟩ := Option.filter_eq_some_iff.mp hs
  exact ⟨hminX, s, Cell.string?_eq_some.mp hstring, hopens, by rw [hparse]; rfl⟩

private theorem keepsRows_of_grown (name : String) (hconsistent : t.Consistent) {u : Table}
    {added : List Column} (h : t.Grown u added) : KeepsRows name t u := by
  rw [KeepsRows, h.rows, List.forall₂_map_right_iff, List.forall₂_same]
  intro r hr column hcolumn
  exact Or.inl (Row.cell_extend_of_lists ((hconsistent.rows r hr).lists_iff.mpr hcolumn) added)

/-- The rows of the resources, with the columns that they gained and the envelopes that they
awaited. -/
private theorem keepsRows_filled (hname : Text.sameLetters resources name = true)
    {u : Table} {added : List Column} (h : t.Grown u added)
    (hadded : ∀ c ∈ added, c.fallback = .null) : KeepsRows name t (u.filled (fillings u)) := by
  have hextend (r : Row) (column : String) : (r.extend added).cell column = r.cell column :=
    r.cell_extend_of_null column hadded
  have hrows : (u.filled (fillings u)).rows =
      t.rows.map fun r => u.fillRow (fillings u) (r.extend added) := by
    rw [Table.filled, h.rows, List.map_map]
    rfl
  rw [KeepsRows, hrows, List.forall₂_map_right_iff, List.forall₂_same]
  intro r hr column hcolumn
  by_cases hedge : Text.fold column ∈ geometryColumns
  · by_cases hid : ∃ entry ∈ fillings u, (r.extend added).cell "id" = .text entry.1
    · obtain ⟨entry, hentry, hid⟩ := hid
      obtain ⟨found, hfound, hawaited, hother⟩ := mem_awaited.mp hentry
      rw [h.rows] at hfound
      obtain ⟨other, hmem, rfl⟩ := List.mem_map.mp hfound
      have hpending := pending_of_awaited (Option.isSome_iff_exists.mpr ⟨_, hawaited⟩)
      simp only [hextend] at hpending hid hother
      exact Or.inr ⟨hname, hedge, other, hmem, entry.1, hid, hother, hpending⟩
    · have hself : u.fillRow (fillings u) (r.extend added) = r.extend added :=
        Table.fillRow_eq_self fun entry hentry hsame => hid ⟨entry, hentry, hsame⟩
      rw [hself]
      exact Or.inl (hextend r column)
  · exact Or.inl ((u.fillRow_cell _ _ hedge).trans (hextend r column))

theorem prepare_keepsRows (h : db.Consistent) (ht : db.table? name = some t)
    (hready : db.prepare schema = .ok ready) :
    ∃ u, ready.table? name = some u ∧ KeepsRows name t u := by
  obtain ⟨later, hcompletes, hfilled⟩ := prepare_eq_ok hready
  obtain ⟨u, hu, hgained⟩ := hcompletes.grows.kept ht
  obtain ⟨added, hgrown, hadded⟩ := hgained.columns
  have hconsistent := h t (mem_of_table? ht)
  rcases hfilled with ⟨n, hfill⟩ | ⟨rfl, -⟩
  · obtain ⟨found, hfills⟩ := fills_of_backfill (hcompletes.grows.consistent h) hfill
    cases hname : Text.sameLetters resources name with
    | false =>
        exact ⟨u, (hfills.table?_of_ne hname).trans hu, keepsRows_of_grown name hconsistent hgrown⟩
    | true =>
        have hresources : found = u := by
          have hfound := hfills.table
          rw [table?_congr hname, hu, Option.some.injEq] at hfound
          exact hfound.symm
        subst hresources
        refine ⟨_, ?_, keepsRows_filled hname hgrown fun c hc => ?_⟩
        · rw [← table?_congr hname, hfills.put]
          exact table?_put_self hfills.table rfl
        · have hown : Text.sameLetters resources t.name = true := by
            have hsame := sameLetters_of_table? ht
            rw [Text.sameLetters_comm] at hsame
            exact sameLetters_trans hname hsame
          rcases isLater_resources hown (hadded c hc) with
            ⟨column, -, read, -, rfl⟩ | ⟨column, -, rfl⟩ <;> rfl
  · exact ⟨u, hu, keepsRows_of_grown name hconsistent hgrown⟩

/-! Columns -/

private theorem unquoted_fields {base : Database}
    (hbase : db.afterAll (baseSteps schema) = .ok base)
    (hquotes : ∀ column ∈ schema.scalarColumns, '"' ∉ column.toList) :
    ∀ column ∈ schema.scalarColumns, Name.unquote? column = some column := by
  intro column hcolumn
  have hread : ∃ read, Name.unquoteAll (resourceColumns schema) = .ok read := by
    rw [baseSteps, afterAll] at hbase
    split at hbase
    · cases hbase
    next hfirst =>
      obtain ⟨read, hread, -⟩ := map_eq_ok.mp hfirst
      exact ⟨read, hread⟩
  obtain ⟨read, hread⟩ := hread
  have hentry : (column, plain .text) ∈ resourceColumns schema :=
    List.mem_cons_of_mem _ (List.mem_append_left _ (List.mem_map_of_mem hcolumn))
  obtain ⟨found, hfound, -⟩ := Name.exists_of_unquoteAll hread _ hentry
  rw [hfound, Name.eq_of_unquote? (hquotes column hcolumn) hfound]

/-- Where no field's name holds a quote, a database is brought to the layout by adding to it. -/
theorem prepare_additive (h : db.Consistent)
    (hquotes : ∀ column ∈ schema.scalarColumns, '"' ∉ column.toList)
    (hready : db.prepare schema = .ok ready) : Additive schema db ready := by
  obtain ⟨hagain, hasked⟩ := prepare_again h hready
  obtain ⟨base, hbase, -⟩ := prepare_steps hready
  simp only [laterColumns, List.forall_mem_append, List.forall_mem_map, List.forall_mem_cons]
    at hasked
  obtain ⟨⟨hfields, hedges⟩, hlabel, hposition, hthumbnail, hmap, -⟩ := hasked
  refine ⟨fun ht => prepare_keepsRows h ht hready, fun column hcolumn => ?_,
    fun column hcolumn => ?_, ⟨?_, ?_⟩, ⟨?_, ?_⟩, hagain⟩
  · exact (hfields column hcolumn).offers (unquoted_fields hbase hquotes column hcolumn)
  · exact (hedges column hcolumn).offers (unquote?_geometry column hcolumn)
  · exact hlabel.offers (by decide)
  · exact hposition.offers (by decide)
  · exact hthumbnail.offers (by decide)
  · exact hmap.offers (by decide)

theorem prepare_additive_boxes : ∃ db ready, ofSources [boxesSource] = .ok db ∧ db.Consistent ∧
    (∀ column ∈ Schema.scalarColumns .aardvark, '"' ∉ column.toList) ∧
    db.prepare .aardvark = .ok ready ∧ Additive .aardvark db ready := by
  obtain ⟨ready, hready, -⟩ := map_eq_ok.mp prepare_boxes
  have hquotes : ∀ column ∈ Schema.scalarColumns .aardvark, '"' ∉ column.toList := by
    decide
  have hconsistent := consistent_ofSources ofSources_boxes
  exact ⟨_, ready, ofSources_boxes, hconsistent, hquotes, hready,
    prepare_additive hconsistent hquotes hready⟩

/-! A field whose name holds two quotes -/

def quotingSchema : Schema :=
  ⟨[⟨"id", .scalar, false, false⟩, ⟨"x\"\"y", .scalar, false, false⟩]⟩

private theorem prepare_quoting : (empty.prepare quotingSchema).map (fun ready =>
    ((ready.table? resources).map fun t => (t.columns.map Column.name,
      t.columns.any fun c => Text.lowercase c.name == Text.lowercase "x\"\"y"))) =
    .ok (some (["id", "x\"y", "geom_minx", "geom_miny", "geom_maxx", "geom_maxy"], false)) := by
  decide +kernel

/-- Of two quotes in the name of a field its column gets one, and no column has the field's name. -/
theorem prepare_losesQuote : empty.Consistent ∧ "x\"\"y" ∈ quotingSchema.scalarColumns ∧
    ∃ ready, empty.prepare quotingSchema = .ok ready ∧ ready.Offers resources "x\"y" ∧
      ¬ready.Offers resources "x\"\"y" := by
  obtain ⟨ready, hready, hcolumns⟩ := map_eq_ok.mp prepare_quoting
  obtain ⟨t, ht, hnames⟩ := Option.map_eq_some_iff.mp hcolumns
  rw [Prod.mk.injEq] at hnames
  refine ⟨fun t ht => absurd ht List.not_mem_nil, by decide, ready, hready, ⟨t, ht, ?_⟩, ?_⟩
  · have hmem : "x\"y" ∈ t.columns.map Column.name := by
      rw [hnames.1]
      decide
    obtain ⟨c, hc, hname⟩ := List.mem_map.mp hmem
    exact ⟨c, hc, congrArg Text.lowercase hname⟩
  · rintro ⟨u, hu, c, hc, hname⟩
    rw [ht, Option.some.injEq] at hu
    subst hu
    have hnone := List.any_eq_false.mp hnames.2 c hc
    exact hnone (beq_iff_eq.mpr hname)

end Database

end Gazetteer
