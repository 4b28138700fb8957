import Mathlib
import Gazetteer.Proofs.Catalog.Reads
import Gazetteer.Proofs.Interchange.Table
/-!
Interleavings: operations on different ids, done in one order or in another.  What a run of operations
makes of a slice is told by the operations on its id, and no read tells more than the slices do.
-/

namespace Gazetteer

inductive Operation
  | edit (e : Edit)
  /-- An import of a table with one row. -/
  | importRow (row : TableRow) (aliases : Option (Dict String))

namespace Operation

def id? (config : Config) : Operation → Option String
  | edit (.upsert r _) => some r.id
  | edit (.upsertRecord record) => Record.id? record
  | edit (.delete id) => some id
  | edit (.cacheThumbnail id _) => some id
  | edit (.cacheStaticMap id _) => some id
  | importRow row aliases =>
      (FieldCells.ofRow (aliases.getD config.aliases) .aardvark row).cell? "id"

/-- The operations on one id, in their order. -/
def history (config : Config) (operations : List Operation) (id : String) : List Operation :=
  operations.filter fun o => o.id? config == some id

end Operation

namespace Catalog

/-- The catalog after an operation; one that fails leaves it as it is. -/
def perform (c : Catalog) : Operation → Catalog
  | .edit e => stateAfter c (c.edit e)
  | .importRow row aliases => stateAfter c (c.importTabular [row] aliases)

def performAll (c : Catalog) (operations : List Operation) : Catalog :=
  operations.foldl perform c

end Catalog

/-! Slices after an operation -/

namespace Slice

def upsert (m : Slice) (r : Resource) (ds : List Distribution) : Slice :=
  match Schema.check .aardvark r with
  | .ok () => m.put r ds
  | .error _ => m

def edit (m : Slice) (config : Config) : Edit → Slice
  | .upsert r ds => m.upsert r ds
  | .upsertRecord record =>
      match Record.read .aardvark config record with
      | .ok written => m.upsert written.1 written.2
      | .error _ => m
  | .delete id => if Text.allBlank id then m else .empty
  | .cacheThumbnail _ url => { m with thumbnail := some url }
  | .cacheStaticMap _ url => { m with staticMap := some url }

def importRow (m : Slice) (config : Config) (aliases : Dict String) (row : TableRow) : Slice :=
  let cells := FieldCells.ofRow aliases .aardvark row
  match TableKind.ofRows aliases .aardvark [row] with
  | .resources =>
      match cells.resource? .aardvark config with
      | some (r, ds) => m.refresh r ds
      | none => m
  | .distributions =>
      match cells.distribution? config with
      | some (id, d) => m.extend id [d]
      | none => m
  | .unrecognized => m

def perform (m : Slice) (config : Config) : Operation → Slice
  | .edit e => m.edit config e
  | .importRow row aliases => m.importRow config (aliases.getD config.aliases) row

end Slice

/-! Ledgers after an operation -/

theorem FieldCells.cell?_of_distribution? {config : Config} {cells : FieldCells} {id : String}
    {d : Distribution} (h : cells.distribution? config = some (id, d)) :
    cells.cell? "id" = some id := by
  obtain ⟨own, hown, h⟩ := Option.bind_eq_some_iff.mp h
  obtain ⟨type, -, h⟩ := Option.bind_eq_some_iff.mp h
  obtain ⟨url, -, h⟩ := Option.bind_eq_some_iff.mp h
  cases h
  exact hown

namespace Ledger

variable {L : Ledger} {config : Config}

def importRow (L : Ledger) (config : Config) (aliases : Dict String) (row : TableRow) : Ledger :=
  let cells := FieldCells.ofRow aliases .aardvark row
  match TableKind.ofRows aliases .aardvark [row] with
  | .resources =>
      match cells.resource? .aardvark config with
      | some (r, ds) => L.refresh r ds
      | none => L
  | .distributions =>
      match cells.distribution? config with
      | some (id, d) => L.extend id [d]
      | none => L
  | .unrecognized => L

def perform (L : Ledger) (config : Config) : Operation → Ledger
  | .edit e => stateAfter L (L.edit config e)
  | .importRow row aliases => L.importRow config (aliases.getD config.aliases) row

theorem importRow_database (L : Ledger) (config : Config) (aliases : Dict String) (row : TableRow) :
    stateAfter L.database (L.database.importRows .aardvark config aliases [row]) =
      (L.importRow config aliases row).database := by
  rw [Database.importRows, importRow]
  cases TableKind.ofRows aliases .aardvark [row] with
  | unrecognized => rfl
  | resources =>
      simp only [List.map_cons, List.map_nil, List.foldl_cons, List.foldl_nil,
        Database.importResourceRow, stateAfter]
      cases hrow : (FieldCells.ofRow aliases .aardvark row).resource? .aardvark config with
      | none => rfl
      | some w =>
          have hchecked := Schema.check_eq_ok.mpr (FieldCells.taken_resource? hrow).accepted
          simp only [refresh_database, hchecked, refresh]
          cases L.replace? w.1 w.2 .metadata <;> rfl
  | distributions =>
      simp only [List.map_cons, List.map_nil, List.foldl_cons, List.foldl_nil,
        Database.importDistributionRow, stateAfter]
      cases (FieldCells.ofRow aliases .aardvark row).distribution? config with
      | none => rfl
      | some w =>
          simp only [append_database, extend]
          cases L.extend? w.1 [w.2] <;> rfl

theorem Sound.importRow (h : L.Sound) (config : Config) (aliases : Dict String) (row : TableRow) :
    (L.importRow config aliases row).Sound := by
  rw [Ledger.importRow]
  cases TableKind.ofRows aliases .aardvark [row] with
  | unrecognized => exact h
  | resources =>
      cases hrow : (FieldCells.ofRow aliases .aardvark row).resource? .aardvark config with
      | none => exact h
      | some w => exact h.refresh (FieldCells.taken_resource? hrow).accepted w.2
  | distributions =>
      cases (FieldCells.ofRow aliases .aardvark row).distribution? config with
      | none => exact h
      | some w => exact h.extend w.1 [w.2]

theorem Sound.perform (h : L.Sound) (config : Config) (o : Operation) :
    (L.perform config o).Sound := by
  cases o with
  | edit e =>
      rw [Ledger.perform]
      cases hedit : L.edit config e with
      | error _ => exact h
      | ok changed => exact h.edit hedit
  | importRow row aliases => exact h.importRow config _ row

theorem slice_upsert (L : Ledger) (r : Resource) (ds : List Distribution) (id : String) :
    (stateAfter L ((L.upsert r ds).map (·, (none : Option Bool)))).slice id =
      if id = r.id then (L.slice id).upsert r ds else L.slice id := by
  rw [Ledger.upsert, Slice.upsert]
  cases Schema.check .aardvark r with
  | error e => exact (ite_self _).symm
  | ok => exact L.slice_put r ds id

theorem slice_edit (L : Ledger) (config : Config) (e : Edit) (id : String) :
    (stateAfter L (L.edit config e)).slice id =
      if (Operation.edit e).id? config = some id then (L.slice id).edit config e
      else L.slice id := by
  cases e with
  | upsert r ds =>
      simp only [Operation.id?, Option.some.injEq, eq_comm (b := id)]
      exact L.slice_upsert r ds id
  | upsertRecord record =>
      rw [Ledger.edit, Slice.edit]
      cases hread : Record.read .aardvark config record with
      | error e => exact (ite_self _).symm
      | ok written =>
          have hid : Record.id? record = some written.1.id := Record.id?_of_read hread
          simp only [Operation.id?, hid, Option.some.injEq, eq_comm (b := id)]
          exact L.slice_upsert written.1 written.2 id
  | delete other =>
      rw [Ledger.edit, Slice.edit]
      simp only [Operation.id?, Option.some.injEq, eq_comm (b := id)]
      cases Text.allBlank other with
      | true => exact (ite_self _).symm
      | false => exact L.slice_remove other id
  | cacheThumbnail other url =>
      simp only [Operation.id?, Option.some.injEq, eq_comm (b := id)]
      exact L.slice_cacheThumbnail other url id
  | cacheStaticMap other url =>
      simp only [Operation.id?, Option.some.injEq, eq_comm (b := id)]
      exact L.slice_cacheStaticMap other url id

theorem slice_importRow (L : Ledger) (config : Config) (aliases : Dict String) (row : TableRow)
    (id : String) :
    (L.importRow config aliases row).slice id =
      if (FieldCells.ofRow aliases .aardvark row).cell? "id" = some id then
        (L.slice id).importRow config aliases row
      else L.slice id := by
  rw [Ledger.importRow, Slice.importRow]
  cases TableKind.ofRows aliases .aardvark [row] with
  | unrecognized => exact (ite_self _).symm
  | resources =>
      simp only [FieldCells.resource?_eq]
      cases (FieldCells.ofRow aliases .aardvark row).cell? "id" with
      | none => rfl
      | some own =>
          simp only [Option.map_some, Option.some.injEq, eq_comm (b := id)]
          exact L.slice_refresh _ _ id
  | distributions =>
      cases hrow : (FieldCells.ofRow aliases .aardvark row).distribution? config with
      | none => exact (ite_self _).symm
      | some w =>
          simp only [FieldCells.cell?_of_distribution? hrow, Option.some.injEq, eq_comm (b := id)]
          exact L.slice_extend [w.2] w.1 id

/-- An operation changes the slice of the id that it names, by that slice alone. -/
theorem slice_perform (L : Ledger) (config : Config) (o : Operation) (id : String) :
    (L.perform config o).slice id =
      if o.id? config = some id then (L.slice id).perform config o else L.slice id := by
  cases o with
  | edit e => exact L.slice_edit config e id
  | importRow row aliases => exact L.slice_importRow config _ row id

def performAll (L : Ledger) (config : Config) (operations : List Operation) : Ledger :=
  operations.foldl (fun L o => L.perform config o) L

/-- What a run of operations makes of a slice is told by the history of its id. -/
theorem slice_performAll (L : Ledger) (config : Config) (operations : List Operation)
    (id : String) :
    (L.performAll config operations).slice id =
      (Operation.history config operations id).foldl (fun m o => m.perform config o)
        (L.slice id) := by
  induction operations generalizing L with
  | nil => rfl
  | cons o rest ih =>
      have hstep := L.slice_perform config o id
      rw [performAll, List.foldl_cons, Operation.history, List.filter_cons]
      refine (ih (L.perform config o)).trans ?_
      by_cases hid : o.id? config = some id
      · rw [hstep, if_pos hid, if_pos (beq_iff_eq.mpr hid)]
        rfl
      · rw [hstep, if_neg hid, if_neg (by simpa using hid)]
        rfl

theorem Sound.performAll (h : L.Sound) (config : Config) (operations : List Operation) :
    (L.performAll config operations).Sound :=
  List.foldlRecOn operations _ h fun _ hM o _ => hM.perform config o

end Ledger

namespace Catalog

variable {c : Catalog} {L : Ledger}

theorem perform_database (hc : c.database = some L.database) (o : Operation) :
    (c.perform o).database = some (L.perform c.config o).database ∧
      (c.perform o).config = c.config := by
  cases o with
  | edit e =>
      rw [perform, Ledger.perform, edit_database hc]
      cases L.edit c.config e with
      | error _ => exact ⟨hc, rfl⟩
      | ok changed => exact ⟨rfl, rfl⟩
  | importRow row aliases =>
      have hrow := L.importRow_database c.config (aliases.getD c.config.aliases) row
      rw [perform, Ledger.perform]
      cases himport : L.database.importRows .aardvark c.config (aliases.getD c.config.aliases)
          [row] with
      | error e =>
          rw [himport] at hrow
          have hfails : c.importTabular [row] aliases = .error e :=
            write_database hc (.error e) himport
          rw [hfails]
          exact ⟨hc.trans (congrArg some hrow), rfl⟩
      | ok imported =>
          obtain ⟨changed, summary⟩ := imported
          rw [himport] at hrow
          obtain rfl : changed = _ := hrow
          have hwrites : c.importTabular [row] aliases = .ok (c.holding _, summary) :=
            write_database hc (.ok (_, summary)) himport
          rw [hwrites]
          exact ⟨rfl, rfl⟩

theorem performAll_database (hc : c.database = some L.database) (operations : List Operation) :
    (c.performAll operations).database = some (L.performAll c.config operations).database ∧
      (c.performAll operations).config = c.config := by
  induction operations generalizing c L with
  | nil => exact ⟨hc, rfl⟩
  | cons o rest ih =>
      obtain ⟨hdatabase, hconfig⟩ := perform_database hc o
      obtain ⟨hrest, hsame⟩ := ih hdatabase
      rw [hconfig] at hrest hsame
      exact ⟨hrest, hsame⟩

end Catalog

/-- Two runs of operations on a reachable catalog in which every id has the same history: no read
tells one from the other. -/
theorem Session.Reachable.reads_of_histories {s : Session} (h : s.Reachable)
    {first second : List Operation}
    (hsame : ∀ id, Operation.history s.catalog.config first id =
      Operation.history s.catalog.config second id)
    {q : Call} (hq : q.isWrite = false) :
    ((s.catalog.performAll first).call q).map Prod.snd =
      ((s.catalog.performAll second).call q).map Prod.snd := by
  obtain ⟨L, hL, hc⟩ := h.ledger
  obtain ⟨hfirst, hconfig⟩ := Catalog.performAll_database hc first
  obtain ⟨hsecond, hconfig'⟩ := Catalog.performAll_database hc second
  have hslices : (L.performAll s.catalog.config first).slice =
      (L.performAll s.catalog.config second).slice := by
    funext id
    rw [Ledger.slice_performAll, Ledger.slice_performAll, hsame]
  exact Catalog.answer_of_slices (hconfig.trans hconfig'.symm) (hL.performAll _ first)
    (hL.performAll _ second) hfirst hsecond hslices hq

/-! Operations on two ids, of which one removes and one is a row of a table -/

def mixedOperations : List Operation :=
  [.edit (.upsert (.ofId "b") [⟨"url", "u", none⟩]),
    .importRow (.ofList [("ID", " a "), ("Title", "T")]) none, .edit (.cacheThumbnail "b" "v"),
    .edit (.delete "a"), .edit (.cacheStaticMap "a" "w")]

def reorderedOperations : List Operation :=
  [.importRow (.ofList [("ID", " a "), ("Title", "T")]) none, .edit (.delete "a"),
    .edit (.upsert (.ofId "b") [⟨"url", "u", none⟩]), .edit (.cacheStaticMap "a" "w"),
    .edit (.cacheThumbnail "b" "v")]

theorem Session.reads_of_histories_mixed :
    let s := afterUpsert (.ofId "a") []
    s.Reachable ∧
      (∀ id, Operation.history s.catalog.config mixedOperations id =
        Operation.history s.catalog.config reorderedOperations id) ∧
      Call.exportRecords.isWrite = false ∧
      ((s.catalog.performAll mixedOperations).call .exportRecords).map Prod.snd =
        ((s.catalog.performAll reorderedOperations).call .exportRecords).map Prod.snd := by
  intro s
  have h : s.Reachable := reachable_afterUpsert (by decide) []
  have hrow : Operation.id? s.catalog.config
      (.importRow (.ofList [("ID", " a "), ("Title", "T")]) none) = some "a" := by
    decide +kernel
  have hsame (id : String) : Operation.history s.catalog.config mixedOperations id =
      Operation.history s.catalog.config reorderedOperations id := by
    simp only [Operation.history, mixedOperations, reorderedOperations, List.filter_cons, hrow]
    obtain rfl | ha := eq_or_ne id "a"
    · simp [Operation.id?, Resource.ofId]
    · obtain rfl | hb := eq_or_ne id "b"
      · simp [Operation.id?, Resource.ofId]
      · simp [Operation.id?, Resource.ofId, ha.symm, hb.symm]
  exact ⟨h, hsame, rfl, h.reads_of_histories hsame rfl⟩

end Gazetteer
