import Mathlib
import Gazetteer.Catalog.Import
import Gazetteer.Proofs.Interchange.Record
/-!
Imports of many records or rows: what their single writes keep, the whole import keeps.
-/

namespace Gazetteer.Database

variable {config : Config} {P : Database → Prop} {db changed : Database}

structure Kept (config : Config) (P : Database → Prop) : Prop where
  upsert : ∀ {db changed : Database} {r : Resource} {ds : List Distribution}, P db →
    Taken config r ds → db.upsert .aardvark r ds = .ok changed → P changed
  refresh : ∀ {db changed : Database} {r : Resource} {ds : List Distribution}, P db →
    Taken config r ds → db.refresh .aardvark r ds = .ok changed → P changed
  append : ∀ {db changed : Database} {id : String} {d : Distribution} {count : Nat}, P db →
    d.Regular config → db.append id [d] = .ok (changed, count) → P changed

namespace Kept

theorem importRecord (h : Kept config P) {state : Database × ImportReport} (hstate : P state.1)
    (record : Json) : P (Database.importRecord .aardvark config state record).1 := by
  rw [Database.importRecord]
  split
  · exact hstate
  · cases hrecord : state.1.upsertRecord .aardvark config record with
    | error e => exact hstate
    | ok changed =>
        rw [upsertRecord] at hrecord
        split at hrecord
        · cases hrecord
        next r ds hread => exact h.upsert hstate (Record.taken_read hread) hrecord

theorem importResourceRow (h : Kept config P) {state : Database × Nat} (hstate : P state.1)
    (cells : FieldCells) : P (Database.importResourceRow .aardvark config state cells).1 := by
  rw [Database.importResourceRow]
  split
  · exact hstate
  next r ds hcells =>
    cases hrefresh : state.1.refresh .aardvark r ds with
    | error e => exact hstate
    | ok changed => exact h.refresh hstate (FieldCells.taken_resource? hcells) hrefresh

theorem importDistributionRow (h : Kept config P) {state : Database × Nat} (hstate : P state.1)
    (cells : FieldCells) : P (Database.importDistributionRow config state cells).1 := by
  rw [Database.importDistributionRow]
  split
  · exact hstate
  next id d hcells =>
    cases happend : state.1.append id [d] with
    | error e => exact hstate
    | ok changed => exact h.append hstate (FieldCells.regular_distribution? hcells) happend

private theorem foldl {α β : Type} {next : Database × β → α → Database × β}
    (hnext : ∀ {state : Database × β}, P state.1 → ∀ a : α, P (next state a).1)
    (items : List α) {state : Database × β} (hstate : P state.1) :
    P (items.foldl next state).1 := by
  induction items generalizing state with
  | nil => exact hstate
  | cons a rest ih => exact ih (hnext hstate a)

theorem importRecords (h : Kept config P) (hdb : P db) (records : List Json) :
    P (db.importRecords .aardvark config records).1 :=
  foldl h.importRecord records hdb

theorem importRows (h : Kept config P) (hdb : P db) {aliases : Dict String}
    {rows : List TableRow} {summary : TableSummary}
    (himport : db.importRows .aardvark config aliases rows = .ok (changed, summary)) :
    P changed := by
  rw [Database.importRows] at himport
  split at himport
  · cases himport
    exact foldl h.importResourceRow _ hdb
  · cases himport
    exact foldl h.importDistributionRow _ hdb
  · cases himport

end Kept

end Gazetteer.Database
