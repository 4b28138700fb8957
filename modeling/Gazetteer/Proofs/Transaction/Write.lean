import Mathlib
import Gazetteer.Proofs.Store.Table
import Gazetteer.Proofs.Transaction.Work
/-!
Writes in place: the statements that replace or remove a resource, each with a failure of its own,
come to what the database as a whole turns into, and in a transaction to nothing if one fails.
-/

namespace Gazetteer

def Step.report (step : Step) (id : String) (_ : Fault) : Error :=
  .unreconciled id step

theorem Step.mapError_report {α : Type} (step : Step) (id : String) (found : Except Fault α) :
    found.mapError (step.report id) = step.result id found := by
  cases found <;> rfl

private theorem result_map {α β : Type} (step : Step) (id : String) (x : Except Fault α)
    (f : α → β) : step.result id (x.map f) = (step.result id x).map f := by
  cases x <;> rfl

namespace Work

open Layout

/-! The statements of a write -/

def clear (id : String) (step : Step) (table column : String) : Work Unit :=
  statement (step.report id) fun db => (db.delete table column id).map fun done => (done.1, ())

def insertScalars (r : Resource) : Work Unit :=
  statement (Step.insertScalarRow.report r.id) fun db =>
    ((Name.unquoteAll (Database.scalarCells r)).bind (db.insert resources .abort)).map
      fun done => (done.1, ())

def insertPairs (id : String) : List (String × String) → Work Unit
  | [] => pure ()
  | (field, value) :: rest => do
      statement (Step.insertAttributeRow.report id) fun db =>
        (db.insert attributes .abort
          [("id", .text id), ("field", .text field), ("value", .text value)]).map
            fun done => (done.1, ())
      insertPairs id rest

/-- A question to the database, which changes nothing. -/
def ask {α : Type} (report : Fault → Error) (question : Database → Except Fault α) : Work α :=
  statement report fun db => (question db).map fun a => (db, a)

def insertAttributes (r : Resource) : Work Unit := do
  ask (Step.prepareAttributeInsert.report r.id) fun db =>
    db.canInsert attributes ["id", "field", "value"]
  insertPairs r.id (Database.attributePairs r)

def insertDistributions (id : String) (position : Int) (count : Nat) :
    List Distribution → Work Nat
  | [] => pure count
  | d :: rest => do
      let inserted ← statement (Step.insertDistribution.report id) fun db =>
        db.insert distributions .ignore (Database.distributionCells id d position)
      insertDistributions id (position + 1) (if inserted then count + 1 else count) rest

def append (id : String) (ds : List Distribution) : Work Nat :=
  if ds.isEmpty then pure 0
  else do
    let next ← ask (Step.readDistributionPosition.report id) (Database.nextPosition id)
    ask (Step.prepareDistributionInsert.report id) fun db =>
      db.canInsert distributions ((Database.distributionCells id default 0).map Prod.fst)
    insertDistributions id next 0 ds

def insertSearchText (schema : Schema) (r : Resource) : Work Unit :=
  statement (Step.insertSearchContent.report r.id) fun db =>
    (db.insert searchTexts .abort
      [("id", .text r.id), ("content", .text (schema.searchContent r))]).map
        fun done => (done.1, ())

def clearDistributions (id : String) : Replacement → Work Unit
  | .full => clear id .deleteDistributions distributions "resource_id"
  | .metadata => pure ()

def replace (schema : Schema) (r : Resource) (ds : List Distribution) (extent : Replacement) :
    Work Unit := do
  clear r.id .deleteScalarRow resources "id"
  clear r.id .deleteAttributeRows attributes "id"
  clearDistributions r.id extent
  clear r.id .deleteSearchContent searchTexts "id"
  insertScalars r
  insertAttributes r
  let _ ← append r.id ds
  insertSearchText schema r

def removeRows (id : String) : Work Bool := do
  let removed ← statement (Step.deleteScalarRow.report id) fun db => db.delete resources "id" id
  clear id .deleteAttributeRows attributes "id"
  clear id .deleteDistributions distributions "resource_id"
  clear id .deleteSearchContent searchTexts "id"
  clear id .deleteThumbnail thumbnails "id"
  clear id .deleteStaticMap staticMaps "id"
  return removed != 0

/-! The writes -/

def upsert (schema : Schema) (r : Resource) (ds : List Distribution) : Work Unit :=
  match schema.check r with
  | .error e => fail e
  | .ok () => transaction .engine (Step.commit.report r.id) (replace schema r ds .full)

def remove (id : String) : Work Bool :=
  if Text.allBlank id then fail (.invalid .idRequired)
  else transaction .engine (Step.commit.report id) (removeRows id)

def refresh (schema : Schema) (r : Resource) (ds : List Distribution) : Work Unit :=
  match schema.check r with
  | .error e => fail e
  | .ok () => transaction .engine .engine (replace schema r ds .metadata)

def appendOne (id : String) (d : Distribution) : Work Nat :=
  transaction .engine .engine (append id [d])

/-! What the statements come to -/

private theorem realizes_clear (id : String) (step : Step) (table column : String) :
    (clear id step table column).Realizes fun db =>
      (db.clear id step table column).map fun changed => (changed, ()) :=
  (Realizes.statement _ _).congr fun db => by
    rw [Step.mapError_report, result_map, Database.clear, result_map, map_map_except]

private theorem realizes_ask {α : Type} (step : Step) (id : String)
    (question : Database → Except Fault α) :
    (ask (step.report id) question).Realizes fun db =>
      (step.result id (question db)).map fun a => (db, a) :=
  (Realizes.statement _ _).congr fun db => by rw [Step.mapError_report, result_map]

private theorem realizes_insertPairs (id : String) (pairs : List (String × String)) :
    (insertPairs id pairs).Realizes fun db =>
      (Step.insertAttributeRow.result id (db.insertPairs id pairs)).map
        fun changed => (changed, ()) := by
  induction pairs with
  | nil => exact Realizes.pure ()
  | cons pair rest ih =>
      refine ((Realizes.statement _ _).bind fun _ => ih).congr fun db => ?_
      rw [Database.insertPairs]
      cases db.insert attributes .abort
        [("id", .text id), ("field", .text pair.1), ("value", .text pair.2)] <;> rfl

private theorem realizes_insertAttributes (r : Resource) :
    (insertAttributes r).Realizes fun db =>
      (db.insertAttributes r).map fun changed => (changed, ()) := by
  refine ((realizes_ask _ _ _).bind fun _ => realizes_insertPairs r.id _).congr fun db => ?_
  rw [Database.insertAttributes, map_bind_except]
  cases db.canInsert attributes ["id", "field", "value"] <;> rfl

private theorem realizes_insertDistributions (id : String) (position : Int) (count : Nat)
    (ds : List Distribution) :
    (insertDistributions id position count ds).Realizes fun db =>
      Step.insertDistribution.result id (db.insertDistributions id position count ds) := by
  induction ds generalizing position count with
  | nil => exact Realizes.pure count
  | cons d rest ih =>
      refine ((Realizes.statement _ _).bind fun inserted : Bool =>
        ih (position + 1) (if inserted then count + 1 else count)).congr fun db => ?_
      rw [Database.insertDistributions]
      cases db.insert distributions .ignore (Database.distributionCells id d position) <;> rfl

private theorem realizes_append (id : String) (ds : List Distribution) :
    (append id ds).Realizes (Database.append id ds) := by
  unfold append
  split
  next hempty => exact (Realizes.pure 0).congr fun db => by rw [Database.append, if_pos hempty]
  next hempty =>
    refine ((realizes_ask _ _ _).bind fun next => (realizes_ask _ _ _).bind fun _ =>
      realizes_insertDistributions id next 0 ds).congr fun db => ?_
    rw [Database.append, if_neg hempty, map_bind_except]
    cases db.nextPosition id with
    | error fault => rfl
    | ok next =>
        change (Except.map _ _ >>= _) = _
        rw [map_bind_except]
        simp only [Step.result]
        cases db.canInsert distributions
          ((Database.distributionCells id default 0).map Prod.fst) <;> rfl

private theorem realizes_clearDistributions (id : String) (extent : Replacement) :
    (clearDistributions id extent).Realizes fun db =>
      (match extent with
        | .full => db.clear id .deleteDistributions distributions "resource_id"
        | .metadata => .ok db).map fun changed => (changed, ()) := by
  cases extent with
  | full => exact realizes_clear _ _ _ _
  | metadata => exact Realizes.pure ()

private theorem realizes_replace (schema : Schema) (r : Resource) (ds : List Distribution)
    (extent : Replacement) :
    (replace schema r ds extent).Realizes fun db =>
      (db.replace schema r ds extent).map fun changed => (changed, ()) := by
  have hscalars : (insertScalars r).Realizes fun db =>
      (db.insertScalars r).map fun changed => (changed, ()) :=
    (Realizes.statement _ _).congr fun db => by
      rw [Step.mapError_report, result_map, Database.insertScalars, result_map, map_map_except]
  have htext : (insertSearchText schema r).Realizes fun db =>
      (db.insertSearchText schema r).map fun changed => (changed, ()) :=
    (Realizes.statement _ _).congr fun db => by
      rw [Step.mapError_report, result_map, Database.insertSearchText, result_map, map_map_except]
  refine ((realizes_clear _ _ _ _).bind fun _ => (realizes_clear _ _ _ _).bind fun _ =>
    (realizes_clearDistributions _ _).bind fun _ => (realizes_clear _ _ _ _).bind fun _ =>
      hscalars.bind fun _ => (realizes_insertAttributes r).bind fun _ =>
        (realizes_append r.id ds).bind fun _ => htext).congr fun db => ?_
  cases extent <;> simp only [Database.replace, map_bind_except, bind_map_except]

private theorem realizes_removeRows (id : String) (h : Text.allBlank id = false) :
    (removeRows id).Realizes (Database.remove id) := by
  have hscalars : (statement (Step.deleteScalarRow.report id) fun db =>
      db.delete resources "id" id).Realizes fun db =>
        Step.deleteScalarRow.result id (db.delete resources "id" id) :=
    (Realizes.statement _ _).congr fun db => Step.mapError_report _ _ _
  refine (hscalars.bind fun removed => (realizes_clear _ _ _ _).bind fun _ =>
    (realizes_clear _ _ _ _).bind fun _ => (realizes_clear _ _ _ _).bind fun _ =>
      (realizes_clear _ _ _ _).bind fun _ => (realizes_clear _ _ _ _).bind fun _ =>
        Realizes.pure (removed != 0)).congr fun db => ?_
  simp only [Database.remove, h, Bool.false_eq_true, if_false, map_bind_except]
  rfl

/-! Each write is done as a whole or not at all -/

theorem atomic_upsert (schema : Schema) (r : Resource) (ds : List Distribution) :
    (upsert schema r ds).Atomic fun db =>
      (db.upsert schema r ds).map fun changed => (changed, ()) := by
  unfold upsert Database.upsert
  cases schema.check r with
  | error e => exact Atomic.fail e
  | ok => exact Atomic.transaction (realizes_replace schema r ds .full) _ _

theorem atomic_remove (id : String) : (remove id).Atomic (Database.remove id) := by
  unfold remove
  cases hblank : Text.allBlank id with
  | true =>
      have hrefused : Database.remove id = fun _ => .error (.invalid .idRequired) := by
        funext db
        rw [Database.remove, if_pos hblank]
      rw [hrefused]
      exact Atomic.fail _
  | false => exact Atomic.transaction (realizes_removeRows id hblank) _ _

theorem atomic_refresh (schema : Schema) (r : Resource) (ds : List Distribution) :
    (refresh schema r ds).Atomic fun db =>
      (db.refresh schema r ds).map fun changed => (changed, ()) := by
  unfold refresh Database.refresh
  cases schema.check r with
  | error e => exact Atomic.fail e
  | ok => exact Atomic.transaction (realizes_replace schema r ds .metadata) _ _

theorem atomic_appendOne (id : String) (d : Distribution) :
    (appendOne id d).Atomic (Database.append id [d]) :=
  Atomic.transaction (realizes_append id [d]) _ _

end Work

end Gazetteer
