import Mathlib
import Gazetteer.Proofs.Ledger.Basic
import Gazetteer.Proofs.Transaction.Write
/-!
Batches in place: of an import only the records and rows that succeed leave anything behind, so
each of them meets what the successful ones before it left.
-/

namespace Gazetteer

inductive Outcome (β : Type)
  | skipped
  | failed
  | done (result : β)

section

variable {ι β : Type}

/-- Items taken in one after the other, whatever becomes of each. -/
def takeIn (attempt : ι → Option (Work β)) :
    List ι → Connection → List (Outcome β) × Connection
  | [], c => ([], c)
  | item :: rest, c =>
      let (outcome, after) : Outcome β × Connection :=
        match attempt item with
        | none => (.skipped, c)
        | some w =>
            match w c with
            | (.ok b, after) => (.done b, after)
            | (.error _, after) => (.failed, after)
      let (outcomes, last) := takeIn attempt rest after
      (outcome :: outcomes, last)

/-- Items taken in one after the other: each that is done changes what the ones before it left, and
the others change nothing. -/
inductive TakenIn (change : ι → Option (Database → Except Error (Database × β))) :
    List ι → List (Outcome β) → Database → Database → Prop
  | nil (db : Database) : TakenIn change [] [] db db
  | skipped {item rest outcomes db last} : change item = none →
      TakenIn change rest outcomes db last →
        TakenIn change (item :: rest) (.skipped :: outcomes) db last
  | failed {item rest outcomes db last f} : change item = some f →
      TakenIn change rest outcomes db last →
        TakenIn change (item :: rest) (.failed :: outcomes) db last
  | done {item rest outcomes db last f changed b} : change item = some f →
      f db = .ok (changed, b) → TakenIn change rest outcomes changed last →
        TakenIn change (item :: rest) (.done b :: outcomes) db last

variable {attempt : ι → Option (Work β)}
  {change : ι → Option (Database → Except Error (Database × β))}

private theorem rel_cases {α γ : Type} {R : α → γ → Prop} {a : Option α} {b : Option γ}
    (h : Option.Rel R a b) :
    (a = none ∧ b = none) ∨ ∃ x y, a = some x ∧ b = some y ∧ R x y := by
  cases h with
  | none => exact .inl ⟨rfl, rfl⟩
  | some hxy => exact .inr ⟨_, _, rfl, rfl, hxy⟩

theorem takenIn_takeIn (h : ∀ item, Option.Rel Work.Atomic (attempt item) (change item))
    (items : List ι) {c : Connection} (hsaved : c.saved = none) :
    TakenIn change items (takeIn attempt items c).1 c.current (takeIn attempt items c).2.current ∧
      (takeIn attempt items c).2.saved = none := by
  induction items generalizing c with
  | nil => exact ⟨.nil c.current, hsaved⟩
  | cons item rest ih =>
      unfold takeIn
      obtain ⟨hattempt, hchange⟩ | ⟨w, f, hattempt, hchange, hw⟩ := rel_cases (h item)
      · rw [hattempt]
        exact ⟨.skipped hchange (ih hsaved).1, (ih hsaved).2⟩
      · simp only [hattempt]
        split
        next b after hb =>
          obtain ⟨hdone, hidle⟩ := hw.ok hsaved hb
          exact ⟨.done hchange hdone (ih hidle).1, (ih hidle).2⟩
        next e after he =>
          obtain ⟨hcurrent, hidle, -⟩ := hw.error hsaved he
          rw [← hcurrent]
          exact ⟨.failed hchange (ih hidle).1, (ih hidle).2⟩

/-- One item of a batch by which nothing but its change is seen, with a count of the outcomes. -/
def batchStep {σ : Type} (change : ι → Option (Database → Except Error (Database × β)))
    (count : σ → Outcome β → σ) (state : Database × σ) (item : ι) : Database × σ :=
  match change item with
  | none => (state.1, count state.2 .skipped)
  | some f =>
      match f state.1 with
      | .ok (changed, b) => (changed, count state.2 (.done b))
      | .error _ => (state.1, count state.2 .failed)

/-- If nothing comes in the way, a batch in place is a fold over its items. -/
theorem foldl_batchStep {σ : Type} (count : σ → Outcome β → σ)
    (h : ∀ item, Option.Rel Work.Atomic (attempt item) (change item)) (items : List ι) (s : σ)
    {c : Connection} (hsaved : c.saved = none) (hmishaps : c.mishaps = []) :
    items.foldl (batchStep change count) (c.current, s) =
      ((takeIn attempt items c).2.current, (takeIn attempt items c).1.foldl count s) := by
  induction items generalizing c s with
  | nil => rfl
  | cons item rest ih =>
      unfold takeIn
      rw [List.foldl_cons, batchStep]
      obtain ⟨hattempt, hchange⟩ | ⟨w, f, hattempt, hchange, hw⟩ := rel_cases (h item)
      · rw [hattempt, hchange]
        exact ih _ hsaved hmishaps
      · have hfree := hw.mishaps c hmishaps
        rw [hattempt, hchange]
        rcases hrun : w c with ⟨e | b, after⟩
        · obtain ⟨hcurrent, hidle, hfailed⟩ := hw.error hsaved hrun
          rw [hrun] at hfree
          simp only [hrun, hfailed hmishaps]
          rw [← hcurrent]
          exact ih _ hidle hfree
        · obtain ⟨hdone, hidle⟩ := hw.ok hsaved hrun
          rw [hrun] at hfree
          simp only [hrun, hdone]
          exact ih _ hidle hfree

end

/-! Records and rows -/

namespace Work

variable (schema : Schema) (config : Config)

def importRecord (record : Json) : Option (Work Unit) :=
  (Record.id? record).map fun _ =>
    match Record.read schema config record with
    | .error e => fail e
    | .ok (r, ds) => upsert schema r ds

def importResourceRow (cells : FieldCells) : Option (Work Unit) :=
  (cells.resource? schema config).map fun (r, ds) => refresh schema r ds

def importDistributionRow (cells : FieldCells) : Option (Work Nat) :=
  (cells.distribution? config).map fun (id, d) => appendOne id d

end Work

namespace Database

variable (schema : Schema) (config : Config)

/-- What a record, a row of resources and a row of distributions turn a database into. -/
def recordChange (record : Json) : Option (Database → Except Error (Database × Unit)) :=
  (Record.id? record).map fun _ db =>
    (db.upsertRecord schema config record).map fun changed => (changed, ())

def resourceRowChange (cells : FieldCells) : Option (Database → Except Error (Database × Unit)) :=
  (cells.resource? schema config).map fun (r, ds) db =>
    (db.refresh schema r ds).map fun changed => (changed, ())

def distributionRowChange (cells : FieldCells) :
    Option (Database → Except Error (Database × Nat)) :=
  (cells.distribution? config).map fun (id, d) db => db.append id [d]

end Database

def ImportReport.count (report : ImportReport) : Outcome Unit → ImportReport
  | .skipped => { report with skipped := report.skipped + 1 }
  | .failed => { report with failed := report.failed + 1 }
  | .done () => { report with processed := report.processed + 1 }

def countResource (added : Nat) : Outcome Unit → Nat
  | .done () => added + 1
  | _ => added

def countDistributions (added : Nat) : Outcome Nat → Nat
  | .done n => added + n
  | _ => added

section

variable (schema : Schema) (config : Config)

private theorem atomic_importRecord (record : Json) :
    Option.Rel Work.Atomic (Work.importRecord schema config record)
      (Database.recordChange schema config record) := by
  unfold Work.importRecord Database.recordChange Database.upsertRecord
  cases Record.id? record with
  | none => exact .none
  | some id =>
      refine .some ?_
      cases Record.read schema config record with
      | error e => exact Work.Atomic.fail e
      | ok written => exact Work.atomic_upsert schema written.1 written.2

private theorem atomic_importResourceRow (cells : FieldCells) :
    Option.Rel Work.Atomic (Work.importResourceRow schema config cells)
      (Database.resourceRowChange schema config cells) := by
  unfold Work.importResourceRow Database.resourceRowChange
  cases cells.resource? schema config with
  | none => exact .none
  | some written => exact .some (Work.atomic_refresh schema written.1 written.2)

private theorem atomic_importDistributionRow (cells : FieldCells) :
    Option.Rel Work.Atomic (Work.importDistributionRow config cells)
      (Database.distributionRowChange config cells) := by
  unfold Work.importDistributionRow Database.distributionRowChange
  cases cells.distribution? config with
  | none => exact .none
  | some written => exact .some (Work.atomic_appendOne written.1 written.2)

private theorem importRecord_eq :
    Database.importRecord schema config =
      batchStep (Database.recordChange schema config) ImportReport.count := by
  funext state item
  unfold Database.importRecord batchStep Database.recordChange
  cases Record.id? item with
  | none => rfl
  | some id =>
      cases hwritten : state.1.upsertRecord schema config item <;> simp [hwritten] <;> rfl

private theorem importResourceRow_eq :
    Database.importResourceRow schema config =
      batchStep (Database.resourceRowChange schema config) countResource := by
  funext state item
  unfold Database.importResourceRow batchStep Database.resourceRowChange
  cases item.resource? schema config with
  | none => rfl
  | some written =>
      cases hwritten : state.1.refresh schema written.1 written.2 <;> simp [hwritten] <;> rfl

private theorem importDistributionRow_eq :
    Database.importDistributionRow config =
      batchStep (Database.distributionRowChange config) countDistributions := by
  funext state item
  unfold Database.importDistributionRow batchStep Database.distributionRowChange
  cases item.distribution? config with
  | none => rfl
  | some written =>
      cases hwritten : state.1.append written.1 [written.2] <;> simp [hwritten] <;> rfl

end

/-- A write that fails leaves all that is stored as it was, at whichever statement it fails and for
whatever reason, and each item of an import meets what the successful ones before it left. -/
theorem Work.failures_change_nothing (schema : Schema) (config : Config) :
    (∀ r ds, (Work.upsert schema r ds).Atomic fun db =>
      (db.upsert schema r ds).map fun changed => (changed, ())) ∧
    (∀ id, (Work.remove id).Atomic (Database.remove id)) ∧
    ∀ c : Connection, c.saved = none →
      (∀ records,
        let batch := takeIn (Work.importRecord schema config) records c
        TakenIn (Database.recordChange schema config) records batch.1 c.current batch.2.current ∧
          (c.mishaps = [] → c.current.importRecords schema config records =
            (batch.2.current, batch.1.foldl ImportReport.count ⟨0, 0, 0⟩))) ∧
      (∀ aliases rows,
        let cells := rows.map (FieldCells.ofRow aliases schema)
        let batch := takeIn (Work.importResourceRow schema config) cells c
        TakenIn (Database.resourceRowChange schema config) cells batch.1 c.current
            batch.2.current ∧
          (c.mishaps = [] → TableKind.ofRows aliases schema rows = .resources →
            c.current.importRows schema config aliases rows =
              .ok (batch.2.current, ⟨.resources, batch.1.foldl countResource 0⟩))) ∧
      ∀ aliases rows,
        let cells := rows.map (FieldCells.ofRow aliases schema)
        let batch := takeIn (Work.importDistributionRow config) cells c
        TakenIn (Database.distributionRowChange config) cells batch.1 c.current
            batch.2.current ∧
          (c.mishaps = [] → TableKind.ofRows aliases schema rows = .distributions →
            c.current.importRows schema config aliases rows =
              .ok (batch.2.current, ⟨.distributions, batch.1.foldl countDistributions 0⟩)) := by
  refine ⟨Work.atomic_upsert schema, Work.atomic_remove, fun c hsaved =>
    ⟨fun records => ?_, fun aliases rows => ?_, fun aliases rows => ?_⟩⟩
  · have hatomic := atomic_importRecord schema config
    refine ⟨(takenIn_takeIn hatomic records hsaved).1, fun hmishaps => ?_⟩
    rw [Database.importRecords, importRecord_eq]
    exact foldl_batchStep _ hatomic records _ hsaved hmishaps
  · have hatomic := atomic_importResourceRow schema config
    refine ⟨(takenIn_takeIn hatomic _ hsaved).1, fun hmishaps hkind => ?_⟩
    simp only [Database.importRows, hkind, importResourceRow_eq,
      foldl_batchStep _ hatomic _ _ hsaved hmishaps]
  · have hatomic := atomic_importDistributionRow config
    refine ⟨(takenIn_takeIn hatomic _ hsaved).1, fun hmishaps hkind => ?_⟩
    simp only [Database.importRows, hkind, importDistributionRow_eq,
      foldl_batchStep _ hatomic _ _ hsaved hmishaps]

/-- A resource whose searched text is refused: the replacement alone has lost the old one by then,
and the write as a whole has not. -/
theorem Work.failures_change_nothing_refused :
    let r := (Resource.ofId "a").setScalar "dct_title_s" "b"
    ∃ refusing, (Ledger.empty.put (.ofId "a") []).database.reject Layout.searchTexts
        ⟨.insert, "content", "b"⟩ = .ok refusing ∧
      (Work.replace .aardvark r [] .full ⟨refusing, none, []⟩).2.current ≠ refusing ∧
      (Work.upsert .aardvark r [] ⟨refusing, none, []⟩).1 =
        .error (.unreconciled "a" .insertSearchContent) ∧
      (Work.upsert .aardvark r [] ⟨refusing, none, []⟩).2.current = refusing := by
  intro r
  have hupsert := (Work.failures_change_nothing .aardvark default).1 r []
  refine ⟨_, rfl, by decide +kernel, by decide +kernel, ?_⟩
  exact (hupsert.error (e := .unreconciled "a" .insertSearchContent) rfl
    (Prod.ext (by decide +kernel) rfl)).1

end Gazetteer
