import Mathlib
import Gazetteer.Proofs.Geometry.Envelope
import Gazetteer.Proofs.Migration.Growth
import Gazetteer.Proofs.Store.Cell
import Gazetteer.Proofs.Store.Change
import Gazetteer.Store.Backfill
/-!
What the filling in of envelopes does to the rows of the resources: whatever happens, it changes
nothing but the four columns of the envelope, and where ids are unique it gives each row the
envelope of its own text.
-/

namespace Gazetteer

open Layout

/-! The cells of an envelope -/

namespace Row

variable {t : Table}

theorem fold_geometryColumns : ∀ column ∈ geometryColumns, Text.fold column = column := by
  decide

private theorem names_changes (t : Table) (e : Envelope) :
    (ofChanges (t.kept (Database.geometryCells (some e)))).map Prod.fst = geometryColumns :=
  List.map_congr_left fold_geometryColumns

theorem cell_update_outside (r : Row) (e : Envelope) {column : String}
    (hcolumn : Text.fold column ∉ geometryColumns) :
    (r.update (t.kept (Database.geometryCells (some e)))).cell column = r.cell column := by
  have hnone : findEntry (Text.fold column)
      (ofChanges (t.kept (Database.geometryCells (some e)))) = none := by
    rwa [findEntry_eq_none_iff, names_changes]
  rw [cell_update, hnone, Option.getD_none]

theorem cells_update_kept (r : Row) (e : Envelope) :
    geometryColumns.map (r.update (t.kept (Database.geometryCells (some e)))).cell =
      (Database.geometryCells (some e)).map fun entry => entry.2.store (t.affinity entry.1) := by
  have hchanges : ofChanges (t.kept (Database.geometryCells (some e))) =
      t.kept (Database.geometryCells (some e)) := by
    have hkept : ∀ entry ∈ t.kept (Database.geometryCells (some e)),
        (Text.fold entry.1, entry.2) = entry := by
      simp only [Table.kept, Database.geometryCells, geometryColumns, List.zip_cons_cons,
        List.zip_nil_right, List.map_cons, List.map_nil, List.forall_mem_cons, Prod.mk.injEq,
        and_true]
      decide
    exact (List.map_congr_left hkept).trans (List.map_id' _)
  have hcells : geometryColumns.map (r.update (t.kept (Database.geometryCells (some e)))).cell =
      geometryColumns.map fun column =>
        (findEntry column (t.kept (Database.geometryCells (some e)))).getD (r.cell column) :=
    List.map_congr_left fun column hcolumn => by
      rw [cell_update, hchanges, fold_geometryColumns column hcolumn]
  rw [hcells]
  simp [geometryColumns, Table.kept, Database.geometryCells, findEntry]

theorem cells_update_geometry (r : Row) (e : Envelope)
    (hreal : ∀ column ∈ geometryColumns, t.affinity column = .real) :
    geometryColumns.map (r.update (t.kept (Database.geometryCells (some e)))).cell =
      (Database.geometryCells (some e.stored)).map Prod.snd := by
  have hedge (x : Float) : (Cell.real x).store .real = .real (Envelope.storedEdge x) := by
    simp only [Cell.store, Envelope.storedEdge]
    split <;> rfl
  simp only [geometryColumns, List.forall_mem_cons] at hreal
  obtain ⟨hminX, hminY, hmaxX, hmaxY, -⟩ := hreal
  rw [cells_update_kept]
  simp only [Database.geometryCells, geometryColumns, List.zip_cons_cons, List.zip_nil_right,
    List.map_cons, List.map_nil, hminX, hminY, hmaxX, hmaxY, hedge]
  rfl

end Row

namespace Table

variable {t u v : Table}

/-- A table of which only envelopes changed, and only in the rows of some ids. -/
structure Refilled (ids : List String) (t u : Table) : Prop where
  name : u.name = t.name
  columns : u.columns = t.columns
  rows : ∃ f : Row → Row, u.rows = t.rows.map f ∧ ∀ r ∈ t.rows,
    (∀ column, Text.fold column ∉ geometryColumns → (f r).cell column = r.cell column) ∧
      ∀ id, r.cell "id" = .text id → id ∉ ids → f r = r

namespace Refilled

variable {ids more : List String}

theorem refl (t : Table) : Refilled [] t t :=
  ⟨rfl, rfl, id, (List.map_id _).symm, fun _ _ => ⟨fun _ _ => rfl, fun _ _ _ => rfl⟩⟩

theorem trans (h : Refilled ids t u) (h' : Refilled more u v) : Refilled (ids ++ more) t v := by
  obtain ⟨f, hf, hcells⟩ := h.rows
  obtain ⟨g, hg, hcells'⟩ := h'.rows
  refine ⟨h'.name.trans h.name, h'.columns.trans h.columns, g ∘ f, ?_, fun r hr => ?_⟩
  · rw [hg, hf, List.map_map]
  · have hmem : f r ∈ u.rows := hf ▸ List.mem_map_of_mem hr
    obtain ⟨houtside, hkept⟩ := hcells r hr
    obtain ⟨houtside', hkept'⟩ := hcells' (f r) hmem
    refine ⟨fun column hcolumn => ?_, fun id hid hnot => ?_⟩
    · exact (houtside' column hcolumn).trans (houtside column hcolumn)
    · rw [List.mem_append, not_or] at hnot
      have hfr : f r = r := hkept id hid hnot.1
      rw [hfr] at hkept'
      exact (congrArg g hfr).trans (hkept' id hid hnot.2)

theorem changed (t : Table) (id : String) (e : Envelope) :
    Refilled [id] t (t.changed "id" id (Database.geometryCells (some e))) := by
  refine ⟨rfl, rfl, _, rfl, fun r hr => ⟨fun column hcolumn => ?_, fun other hother hnot => ?_⟩⟩
  · rw [changedRow]
    split
    · exact r.cell_update_outside e hcolumn
    · rfl
  · rw [changedRow, if_neg]
    rw [hother]
    exact fun h => hnot (List.mem_singleton.mpr (eq_of_equals_wanted h))

end Refilled

end Table

namespace Database

variable {db filled : Database}

structure Refills (ids : List String) (db filled : Database) : Prop where
  consistent : filled.Consistent
  resources : ∀ {t}, db.table? resources = some t →
    ∃ u, filled.table? Layout.resources = some u ∧ Table.Refilled ids t u
  others : ∀ {name}, Text.sameLetters Layout.resources name = false →
    filled.table? name = db.table? name

namespace Refills

theorem refl (h : db.Consistent) : Refills [] db db :=
  ⟨h, fun ht => ⟨_, ht, .refl _⟩, fun _ => rfl⟩

theorem trans {ids more : List String} {first second third : Database}
    (h : Refills ids first second) (h' : Refills more second third) :
    Refills (ids ++ more) first third where
  consistent := h'.consistent
  resources ht := by
    obtain ⟨u, hu, hrefilled⟩ := h.resources ht
    obtain ⟨v, hv, hrefilled'⟩ := h'.resources hu
    exact ⟨v, hv, hrefilled.trans hrefilled'⟩
  others hname := (h'.others hname).trans (h.others hname)

/-- Whichever envelopes are filled in, and whether or not that succeeds in the end. -/
theorem fillEnvelopes (h : db.Consistent) {entries : List (String × Envelope)} {count n : Nat}
    (hfill : db.fillEnvelopes count entries = .ok (filled, n)) :
    Refills (entries.map Prod.fst) db filled := by
  induction entries generalizing db count with
  | nil =>
      cases hfill
      exact refl h
  | cons entry rest ih =>
      rw [Database.fillEnvelopes] at hfill
      split at hfill
      · cases hfill
      next changed count' hchanged =>
        obtain ⟨t, u, ht, hu, rfl⟩ := modify_eq_ok hchanged
        obtain ⟨rfl, hconsistent⟩ := (h t (mem_of_table? ht)).change_eq_ok hu
        have hstep : Refills [entry.1] db
            (db.put (t.changed "id" entry.1 (geometryCells (some entry.2)))) := by
          refine ⟨h.put hconsistent, fun {found} hfound => ?_, fun {name} hname => ?_⟩
          · rw [ht] at hfound
            cases hfound
            exact ⟨_, table?_put_self ht rfl, .changed t entry.1 entry.2⟩
          · have hother : Text.sameLetters t.name name = false :=
              sameLetters_eq_false (sameLetters_of_table? ht) hname
            exact table?_put_of_ne hother
        exact hstep.trans (ih hstep.consistent hfill)

end Refills

def candidate? (r : Row) : Option (String × Envelope) :=
  (r.cell boxField).envelope?.bind fun e => (r.cell "id").string?.map (·, e)

theorem candidate?_eq_some {r : Row} {entry : String × Envelope} : candidate? r = some entry ↔
    (r.cell boxField).envelope? = some entry.2 ∧ r.cell "id" = .text entry.1 := by
  obtain ⟨id, e⟩ := entry
  cases henvelope : (r.cell boxField).envelope? with
  | none => simp [candidate?, henvelope]
  | some found =>
      cases hid : r.cell "id" <;> simp [candidate?, henvelope, hid, Cell.string?, and_comm]

theorem candidates_eq_ok {rows : List Row} {entries : List (String × Envelope)}
    (h : candidates rows = .ok entries) : entries = rows.filterMap candidate? := by
  induction rows generalizing entries with
  | nil =>
      cases h
      rfl
  | cons r rest ih =>
      rw [candidates] at h
      rw [List.filterMap_cons, candidate?]
      split at h
      next henvelope =>
        rw [henvelope]
        exact ih h
      next e henvelope =>
        split at h
        · cases h
        next id hid =>
          obtain ⟨others, hothers, rfl⟩ := map_eq_ok.mp h
          rw [henvelope, hid, ih hothers]
          rfl

def Awaits (db : Database) (id : String) : Prop :=
  ∃ r ∈ db.rows resources, awaitsEnvelope r = true ∧ r.cell "id" = .text id

theorem Refills.backfill (h : db.Consistent) {n : Nat}
    (hfill : db.backfill = .ok (filled, n)) :
    ∃ ids, Refills ids db filled ∧ ∀ id ∈ ids, db.Awaits id := by
  obtain ⟨rows, hrows, hfill⟩ := bind_eq_ok.mp hfill
  obtain ⟨-, -, hawaiting⟩ := map_eq_ok.mp hrows
  split at hfill
  · cases hfill
    exact ⟨[], refl h, fun id hid => absurd hid List.not_mem_nil⟩
  · obtain ⟨-, -, hfill⟩ := bind_eq_ok.mp hfill
    obtain ⟨entries, hentries, hfill⟩ := bind_eq_ok.mp hfill
    refine ⟨_, fillEnvelopes h hfill, fun id hid => ?_⟩
    obtain ⟨entry, hentry, rfl⟩ := List.mem_map.mp hid
    rw [candidates_eq_ok hentries, ← hawaiting] at hentry
    obtain ⟨r, hr, hcandidate⟩ := List.mem_filterMap.mp hentry
    rw [List.mem_filter] at hr
    exact ⟨r, hr.1, hr.2, (candidate?_eq_some.mp hcandidate).2⟩

variable {schema : Schema} {ready : Database}

/-- A database is brought to the layout first; then its envelopes are filled in, or if that fails
left as they are. -/
theorem prepare_steps (h : db.prepare schema = .ok ready) : ∃ base,
    db.afterAll (baseSteps schema) = .ok base ∧
      ((∃ n, (base.addLater schema).backfill = .ok (ready, n)) ∨
        (ready = base.addLater schema ∧ ∃ fault, (base.addLater schema).backfill = .error fault)) := by
  rw [prepare] at h
  split at h
  · cases h
  next base hbase =>
    refine ⟨base, hbase, ?_⟩
    dsimp only at h
    split at h
    next filled n hfill =>
      cases h
      exact Or.inl ⟨n, hfill⟩
    next fault hfault =>
      cases h
      exact Or.inr ⟨rfl, fault, hfault⟩

theorem prepare_eq_ok (h : db.prepare schema = .ok ready) : ∃ later, Completes schema db later ∧
    ((∃ n, later.backfill = .ok (ready, n)) ∨
      (ready = later ∧ ∃ fault, later.backfill = .error fault)) := by
  obtain ⟨base, hbase, hready⟩ := prepare_steps h
  exact ⟨base.addLater schema, completes_addLater hbase, hready⟩

theorem prepare_refills (h : db.Consistent) (hready : db.prepare schema = .ok ready) :
    ∃ later ids, Completes schema db later ∧ Refills ids later ready ∧
      ∀ id ∈ ids, later.Awaits id := by
  obtain ⟨later, hcompletes, ⟨n, hfill⟩ | ⟨rfl, -⟩⟩ := prepare_eq_ok hready
  · obtain ⟨ids, hrefills, hawait⟩ := Refills.backfill (hcompletes.grows.consistent h) hfill
    exact ⟨later, ids, hcompletes, hrefills, hawait⟩
  · exact ⟨ready, [], hcompletes, .refl (hcompletes.grows.consistent h),
      fun id hid => absurd hid List.not_mem_nil⟩

end Database

/-! Envelopes in the rows of their ids -/

namespace Table

def fillRow (t : Table) (entries : List (String × Envelope)) (r : Row) : Row :=
  entries.foldl (fun r entry => changedRow "id" (.text entry.1)
    (t.kept (Database.geometryCells (some entry.2))) r) r

def filled (t : Table) (entries : List (String × Envelope)) : Table :=
  { t with rows := t.rows.map (t.fillRow entries) }

theorem filled_nil (t : Table) : t.filled [] = t := by
  have hrow : t.fillRow [] = id := rfl
  rw [filled, hrow, List.map_id]

theorem filled_cons (t : Table) (entry : String × Envelope) (rest : List (String × Envelope)) :
    (t.filled [entry]).filled rest = t.filled (entry :: rest) := by
  have hrows : (t.rows.map (t.fillRow [entry])).map (t.fillRow rest) =
      t.rows.map (t.fillRow (entry :: rest)) := by
    rw [List.map_map]
    rfl
  exact congrArg (fun rows => { t with rows := rows }) hrows

variable {t : Table} {r : Row} {id : String} {entries : List (String × Envelope)}

theorem filled_singleton {entry : String × Envelope}
    (hwanted : t.wanted "id" entry.1 = .text entry.1) :
    t.changed "id" entry.1 (Database.geometryCells (some entry.2)) = t.filled [entry] := by
  rw [changed, hwanted]
  rfl

private theorem changedRow_text (hid : r.cell "id" = .text id) (other : String)
    (changes : List (String × Cell)) :
    changedRow "id" (.text other) changes r = if id = other then r.update changes else r := by
  rw [changedRow, hid, Cell.equals_text]
  simp only [beq_iff_eq]

theorem fillRow_of_not_mem (hid : r.cell "id" = .text id) (h : id ∉ entries.map Prod.fst) :
    t.fillRow entries r = r := by
  induction entries with
  | nil => rfl
  | cons entry rest ih =>
      rw [List.map_cons, List.mem_cons, not_or] at h
      obtain ⟨hne, hrest⟩ := h
      rw [fillRow, List.foldl_cons, changedRow_text hid, if_neg hne]
      exact ih hrest

theorem fillRow_of_mem {e : Envelope} (hid : r.cell "id" = .text id)
    (hnodup : (entries.map Prod.fst).Nodup) (h : (id, e) ∈ entries) :
    t.fillRow entries r = r.update (t.kept (Database.geometryCells (some e))) := by
  induction entries with
  | nil => exact absurd h List.not_mem_nil
  | cons entry rest ih =>
      obtain ⟨hnew, hrest⟩ := List.nodup_cons.mp hnodup
      rw [fillRow, List.foldl_cons, changedRow_text hid]
      rcases List.mem_cons.mp h with rfl | h
      · rw [if_pos rfl]
        refine fillRow_of_not_mem ?_ hnew
        rw [Row.cell_update_outside r e (by decide), hid]
      · have hne : id ≠ entry.1 := by
          rintro rfl
          exact hnew (List.mem_map.mpr ⟨_, h, rfl⟩)
        rw [if_neg hne]
        exact ih hrest h

structure Fillable (t : Table) : Prop where
  has : ∀ name ∈ geometryColumns, t.has name = true
  apart : ∀ i ∈ t.indexes, i.unique = true → ∀ p ∈ i.parts,
    Text.fold p.columnName ∉ geometryColumns

theorem Fillable.change_eq_ok (h : t.Fillable) (hconsistent : t.Consistent)
    (hid : t.has "id" = true) {entry : String × Envelope}
    (hwanted : t.wanted "id" entry.1 = .text entry.1) :
    ∃ n, t.change "id" entry.1 (Database.geometryCells (some entry.2)) =
      .ok (t.filled [entry], n) := by
  rw [← filled_singleton hwanted]
  refine hconsistent.change_of_apart (List.forall_mem_cons.mpr ⟨hid, h.has⟩) ?_ ?_
  · intro change hchange
    simp only [Database.geometryCells, geometryColumns, List.zip_cons_cons, List.zip_nil_right,
      List.mem_cons, List.not_mem_nil, or_false] at hchange
    rcases hchange with rfl | rfl | rfl | rfl <;> rfl
  · intro i hi hunique p hp change hchange heq
    have hname : change.1 ∈ geometryColumns :=
      List.mem_map_of_mem (f := Prod.fst) hchange
    rw [Row.fold_geometryColumns change.1 hname] at heq
    exact h.apart i hi hunique p hp (heq ▸ hname)

end Table

namespace Database

variable {db : Database} {t : Table}

theorem fillEnvelopes_eq {entries : List (String × Envelope)} (h : db.Consistent)
    (ht : db.table? resources = some t) (hfillable : t.Fillable) (hid : t.has "id" = true)
    (hwanted : ∀ entry ∈ entries, t.wanted "id" entry.1 = .text entry.1) (count : Nat) :
    ∃ filled n, db.fillEnvelopes count entries = .ok (filled, n) ∧
      filled.table? resources = some (t.filled entries) := by
  induction entries generalizing db t count with
  | nil => exact ⟨db, count, rfl, ht.trans (congrArg some t.filled_nil.symm)⟩
  | cons entry rest ih =>
      obtain ⟨hfirst, hrest⟩ := List.forall_mem_cons.mp hwanted
      have hconsistent := h t (mem_of_table? ht)
      obtain ⟨n, hchange⟩ := hfillable.change_eq_ok hconsistent hid hfirst
      have hmodify : db.modify resources
          (fun t => t.change "id" entry.1 (geometryCells (some entry.2))) =
            .ok (db.put (t.filled [entry]), n) := by
        simp only [modify, table, ht, hchange]
      have hput : (db.put (t.filled [entry])).table? resources = some (t.filled [entry]) :=
        table?_put_self ht rfl
      obtain ⟨filled, m, hfill, hfound⟩ := ih (h.put (hconsistent.change_eq_ok hchange).2) hput
        ⟨hfillable.has, hfillable.apart⟩ hid hrest (count + n)
      refine ⟨filled, m, ?_, hfound.trans (congrArg some (t.filled_cons entry rest))⟩
      simp only [fillEnvelopes, hmodify, hfill]

theorem candidates_eq {rows : List Row} (h : ∀ r ∈ rows, ∀ e,
    (r.cell boxField).envelope? = some e → ∃ id, r.cell "id" = .text id) :
    candidates rows = .ok (rows.filterMap candidate?) := by
  induction rows with
  | nil => rfl
  | cons r rest ih =>
      obtain ⟨hfirst, hrest⟩ := List.forall_mem_cons.mp h
      rw [candidates, ih hrest, List.filterMap_cons]
      cases henvelope : (r.cell boxField).envelope? with
      | none => simp [candidate?, henvelope]
      | some e =>
          obtain ⟨id, hid⟩ := hfirst e henvelope
          simp [candidate?, henvelope, hid, Cell.string?, Except.map]

def awaited? (r : Row) : Option Envelope :=
  if awaitsEnvelope r then (r.cell boxField).envelope? else none

def fillOwn (t : Table) (r : Row) : Row :=
  match awaited? r with
  | some e => r.update (t.kept (geometryCells (some e)))
  | none => r

def fillings (t : Table) : List (String × Envelope) :=
  (t.rows.filter awaitsEnvelope).filterMap candidate?

/-- What is filled in: for each row that awaits an envelope, its own one under its id. -/
theorem mem_awaited {rows : List Row} {entry : String × Envelope} :
    entry ∈ (rows.filter awaitsEnvelope).filterMap candidate? ↔
      ∃ r ∈ rows, awaited? r = some entry.2 ∧ r.cell "id" = .text entry.1 := by
  have hrow (r : Row) : awaitsEnvelope r = true ∧ candidate? r = some entry ↔
      awaited? r = some entry.2 ∧ r.cell "id" = .text entry.1 := by
    rw [candidate?_eq_some, awaited?, ← and_assoc]
    cases awaitsEnvelope r <;> simp
  simp only [List.mem_filterMap, List.mem_filter, and_assoc, hrow]

theorem awaited?_eq_some {r : Row} {e : Envelope} : awaited? r = some e ↔
    awaitsEnvelope r = true ∧ (r.cell boxField).envelope? = some e := by
  rw [awaited?, Option.ite_none_right_eq_some]

private theorem nodup_awaited {rows : List Row} (h : (rows.map (·.cell "id")).Nodup) :
    (((rows.filter awaitsEnvelope).filterMap candidate?).map Prod.fst).Nodup := by
  rw [List.Nodup, List.pairwise_map] at h ⊢
  rw [List.pairwise_filterMap]
  refine (h.filter awaitsEnvelope).imp fun {a b} hab x hx y hy heq => hab ?_
  rw [(candidate?_eq_some.mp hx).2, (candidate?_eq_some.mp hy).2, heq]

theorem awaiting_eq (ht : db.table? resources = some t) (hminX : t.has "geom_minx" = true)
    (hbox : t.has boxField = true) : db.awaiting = .ok (t.rows.filter awaitsEnvelope) := by
  have hneed : db.need [(resources, "geom_minx"), (resources, boxField)] = .ok () :=
    need_eq_ok (List.forall_mem_cons.mpr
      ⟨⟨t, ht, hminX⟩, List.forall_mem_singleton.mpr ⟨t, ht, hbox⟩⟩)
  simp only [awaiting, hneed, rows, ht, Except.map]

theorem backfill_eq_self {rows : List Row} (hawaiting : db.awaiting = .ok rows)
    (hnone : (rows.all fun r => (r.cell boxField).envelope?.isNone) = true) :
    db.backfill = .ok (db, 0) := by
  simp only [backfill, hawaiting, ok_bind, hnone, if_true]
  rfl

theorem fillings_eq_nil (hnone : ((t.rows.filter awaitsEnvelope).all fun r =>
    (r.cell boxField).envelope?.isNone) = true) : fillings t = [] := by
  refine List.filterMap_eq_nil_iff.mpr fun r hr => ?_
  rw [candidate?, Option.isNone_iff_eq_none.mp (List.all_eq_true.mp hnone r hr)]
  rfl

/-- The envelopes are put into the rows of their ids if each row that gets one has a text for
its id. -/
theorem backfill_filled (h : db.Consistent) (ht : db.table? resources = some t)
    (hfillable : t.Fillable) (hbox : t.has boxField = true)
    (hids : ∀ r ∈ t.rows, ∀ e, awaited? r = some e → ∃ id, r.cell "id" = .text id) :
    ∃ filled n, db.backfill = .ok (filled, n) ∧
      filled.table? resources = some (t.filled (fillings t)) := by
  have hconsistent := h t (mem_of_table? ht)
  have hawaiting := awaiting_eq ht (hfillable.has _ (by decide)) hbox
  have hcandidate : ∀ r ∈ t.rows.filter awaitsEnvelope, ∀ e,
      (r.cell boxField).envelope? = some e → ∃ id, r.cell "id" = .text id := by
    intro r hr e he
    obtain ⟨hmem, hawaits⟩ := List.mem_filter.mp hr
    exact hids r hmem e (awaited?_eq_some.mpr ⟨hawaits, he⟩)
  cases hall : (t.rows.filter awaitsEnvelope).all fun r => (r.cell boxField).envelope?.isNone with
  | true =>
      refine ⟨db, 0, backfill_eq_self hawaiting hall, ?_⟩
      rw [fillings_eq_nil hall, t.filled_nil, ht]
  | false =>
      -- a text that can be read belongs to a row with an id, so the column of ids is there
      obtain ⟨r, hr, hsome⟩ := List.all_eq_false.mp hall
      have hid : t.has "id" = true := by
        obtain ⟨e, he⟩ := Option.ne_none_iff_exists'.mp fun hnone =>
          hsome (Option.isNone_iff_eq_none.mpr hnone)
        obtain ⟨id, hid⟩ := hcandidate r hr e he
        exact hconsistent.has_of_text (List.mem_of_mem_filter hr) hid
      have hcandidates : candidates (t.rows.filter awaitsEnvelope) = .ok (fillings t) :=
        candidates_eq hcandidate
      have hwanted : ∀ entry ∈ fillings t, t.wanted "id" entry.1 = .text entry.1 := by
        intro entry hentry
        obtain ⟨r, hr, -, hcell⟩ := mem_awaited.mp hentry
        exact hconsistent.wanted_eq hr hcell
      obtain ⟨filled, n, hfill, hfilled⟩ := fillEnvelopes_eq h ht hfillable hid hwanted 0
      refine ⟨filled, n, ?_, hfilled⟩
      have hneed :
          db.need ((resources, "id") :: geometryColumns.map (resources, ·)) = .ok () := by
        refine need_eq_ok (List.forall_mem_cons.mpr ⟨⟨t, ht, hid⟩, ?_⟩)
        exact List.forall_mem_map.mpr fun column hcolumn => ⟨t, ht, hfillable.has column hcolumn⟩
      simp only [backfill, hawaiting, ok_bind, hall, hneed, hcandidates, hfill]
      rfl

/-- Each row gets the envelope of its own text, where ids are unique. -/
theorem backfill_eq (h : db.Consistent) (ht : db.table? resources = some t)
    (hfillable : t.Fillable) (hbox : t.has boxField = true)
    (hids : ∀ r ∈ t.rows, ∃ id, r.cell "id" = .text id)
    (hunique : (t.rows.map (·.cell "id")).Nodup) :
    ∃ filled n u, db.backfill = .ok (filled, n) ∧ filled.table? resources = some u ∧
      u.rows = t.rows.map (fillOwn t) := by
  obtain ⟨filled, n, hfill, hfilled⟩ :=
    backfill_filled h ht hfillable hbox fun r hr _ _ => hids r hr
  refine ⟨filled, n, _, hfill, hfilled, List.map_congr_left fun r hr => ?_⟩
  obtain ⟨id, hid⟩ := hids r hr
  rw [fillOwn]
  cases hown : awaited? r with
  | some e =>
      exact Table.fillRow_of_mem hid (nodup_awaited hunique)
        (mem_awaited.mpr ⟨r, hr, hown, hid⟩)
  | none =>
      refine Table.fillRow_of_not_mem hid fun hmem => ?_
      obtain ⟨entry, hentry, rfl⟩ := List.mem_map.mp hmem
      obtain ⟨other, hother, hawaited, hcell⟩ := mem_awaited.mp hentry
      have hsame := List.inj_on_of_nodup_map hunique hother hr (hcell.trans hid.symm)
      rw [← hsame, hawaited] at hown
      cases hown

end Database

end Gazetteer
