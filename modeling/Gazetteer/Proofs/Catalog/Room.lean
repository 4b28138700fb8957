import Mathlib
import Gazetteer.Proofs.Catalog.Reachable
/-!
Room for positions: the distributions that a session was given bound the positions at which it
stores them.
-/

namespace Gazetteer

/-! Positions below a bound -/

namespace Placement

variable {n m : Nat} {id : String} {ds : List Distribution} {placements placed : List Placement}

def Within (n : Nat) (placements : List Placement) : Prop :=
  ∀ p ∈ placements, 0 ≤ p.position ∧ p.position < n

theorem Within.mono (h : Within n placements) (hnm : n ≤ m) : Within m placements := by
  intro p hp
  have hbounds := h p hp
  omega

theorem Within.place (h : Within n placements) {position : Int} (hle : 0 ≤ position)
    (hnext : position ≤ n) (id : String) (ds : List Distribution) :
    Within (n + ds.length) (place id placements position ds) := by
  induction ds generalizing placements position n with
  | nil => exact h
  | cons d rest ih =>
      have hplaced : Within (n + 1) (if placements.any (clashes id d) then placements
          else placements ++ [⟨id, d, position⟩]) := by
        split
        · exact h.mono (Nat.le_succ n)
        · refine List.forall_mem_append.mpr ⟨h.mono (Nat.le_succ n), ?_⟩
          rw [List.forall_mem_singleton]
          exact ⟨hle, by push_cast; omega⟩
      have hlength : n + (d :: rest).length = n + 1 + rest.length := by
        rw [List.length_cons]
        omega
      rw [hlength]
      exact ih hplaced (by omega) (by push_cast; omega)

theorem Within.of_next? (h : Within n placements) {position : Int}
    (hnext : next? id placements = some position) : 0 ≤ position ∧ position ≤ n := by
  rw [next?] at hnext
  cases hmax : ((placements.filter fun p => p.id == id).map Placement.position).max? with
  | none =>
      simp only [hmax, Option.some_inj] at hnext
      omega
  | some last =>
      simp only [hmax, Option.filter_eq_some_iff, Option.some_inj] at hnext
      obtain ⟨p, hp, hposition⟩ := List.mem_map.mp (List.max?_mem hmax)
      have hbounds := h p (List.mem_filter.mp hp).1
      omega

theorem Within.exists_next? (h : Within n placements) (hn : n < 2 ^ 63) (id : String) :
    ∃ position, next? id placements = some position := by
  rw [next?]
  cases hmax : ((placements.filter fun p => p.id == id).map Placement.position).max? with
  | none => exact ⟨0, rfl⟩
  | some last =>
      obtain ⟨p, hp, hposition⟩ := List.mem_map.mp (List.max?_mem hmax)
      have hbounds := h p (List.mem_filter.mp hp).1
      have hword : Cell.isWord (last + 1) = true := by
        simp only [Cell.isWord, Bool.and_eq_true, decide_eq_true_eq]
        omega
      exact ⟨last + 1, by simp [hword]⟩

theorem Within.append? (h : Within n placements) (happend : append? id ds placements = some placed) :
    Within (n + ds.length) placed := by
  rw [Placement.append?] at happend
  split at happend
  · exact Option.some_inj.mp happend ▸ h.mono (Nat.le_add_right _ _)
  · obtain ⟨position, hnext, rfl⟩ := Option.map_eq_some_iff.mp happend
    obtain ⟨hle, hbound⟩ := h.of_next? hnext
    exact h.place hle hbound id ds

theorem Within.exists_append? (h : Within n placements) (hn : n < 2 ^ 63) (id : String)
    (ds : List Distribution) : ∃ placed, Placement.append? id ds placements = some placed := by
  rw [Placement.append?]
  split
  · exact ⟨placements, rfl⟩
  · obtain ⟨position, hnext⟩ := h.exists_next? hn id
    exact ⟨_, by rw [hnext, Option.map_some]⟩

end Placement

namespace Ledger

variable {n m : Nat} {L M : Ledger} {r : Resource} {id : String} {ds : List Distribution}

structure Within (n : Nat) (L : Ledger) : Prop where
  sound : L.Sound
  placements : Placement.Within n L.placements

theorem Within.mono (hnm : n ≤ m) (L : Ledger) (h : L.Within n) : L.Within m :=
  ⟨h.sound, h.placements.mono hnm⟩

theorem kind_within (n : Nat) : Kind (Within n) where
  empty := ⟨sound_empty, List.forall_mem_nil _⟩
  sound _ h := h.sound

theorem Within.replace? (h : L.Within n) (hr : Schema.Accepts .aardvark r)
    {extent : Replacement} (hreplace : L.replace? r ds extent = some M) :
    M.Within (n + ds.length) := by
  refine ⟨h.sound.replace? hr hreplace, ?_⟩
  obtain ⟨placed, hplaced, rfl⟩ := Option.map_eq_some_iff.mp hreplace
  have hrest : Placement.Within n (L.cleared r.id extent).placements := by
    cases extent with
    | full => exact fun p hp => h.placements p (List.mem_filter.mp hp).1
    | metadata => exact h.placements
  exact hrest.append? hplaced

theorem Within.put (h : L.Within n) (hr : Schema.Accepts .aardvark r) (ds : List Distribution) :
    (L.put r ds).Within (n + ds.length) :=
  h.replace? hr (L.replace?_full r ds)

theorem Within.extend? (h : L.Within n) (hextend : L.extend? id ds = some M) :
    M.Within (n + ds.length) := by
  refine ⟨h.sound.extend? hextend, ?_⟩
  obtain ⟨placed, hplaced, rfl⟩ := Option.map_eq_some_iff.mp hextend
  exact h.placements.append? hplaced

end Ledger

/-! What is given -/

def Record.given (config : Config) (record : Json) : Nat :=
  match Record.read .aardvark config record with
  | .ok written => written.2.length
  | .error _ => 0

def FieldCells.given (config : Config) (kind : TableKind) (cells : FieldCells) : Nat :=
  match kind with
  | .resources => (cells.resource? .aardvark config).elim 0 fun written => written.2.length
  | .distributions => (cells.distribution? config).elim 0 fun _ => 1
  | .unrecognized => 0

def Edit.given (config : Config) : Edit → Nat
  | .upsert _ ds => ds.length
  | .upsertRecord record => Record.given config record
  | _ => 0

namespace Session

def given (s : Session) : Action → Nat
  | .edit e => e.given s.catalog.config
  | .importBulk records => (records.map (Record.given s.catalog.config)).sum
  | .importTabular rows aliases =>
      let names := aliases.getD s.catalog.config.aliases
      ((rows.map (FieldCells.ofRow names .aardvark)).map
        (FieldCells.given s.catalog.config (.ofRows names .aardvark rows))).sum
  | .reopen => 0
  | .restore _ => 0
  | .reimport =>
      match s.catalog.exportRecords with
      | .ok records => (records.map (Record.given s.catalog.config)).sum
      | .error _ => 0

/-- The reachable sessions, with the number of distributions that were given on the way. -/
inductive ReachableWith : Nat → Session → Prop
  | memory (config : Config) {sink : Option Sink} (hsink : ∀ k ∈ sink, k.latest = none) :
      ReachableWith 0 (start .memory config sink)
  | file (config : Config) {sink : Option Sink} (hsink : ∀ k ∈ sink, k.latest = none) :
      ReachableWith 0 (start (.file .empty) config sink)
  | step {n : Nat} {s t : Session} {a : Action} (hs : ReachableWith n s) (ha : s.step a = .ok t) :
      ReachableWith (n + s.given a) t

variable {n : Nat} {s t : Session} {L : Ledger} {a : Action}

theorem reachable_iff_with : s.Reachable ↔ ∃ n, s.ReachableWith n := by
  constructor
  · intro h
    induction h with
    | memory config hsink => exact ⟨0, .memory config hsink⟩
    | file config hsink => exact ⟨0, .file config hsink⟩
    | step _ ha ih => exact let ⟨n, hn⟩ := ih; ⟨_, hn.step ha⟩
  · rintro ⟨n, h⟩
    induction h with
    | memory config hsink => exact .memory config hsink
    | file config hsink => exact .file config hsink
    | step _ ha ih => exact ih.step ha

end Session

/-! Writes of what is given -/

namespace Database

variable {n : Nat} {db changed : Database} {config : Config} {r : Resource} {id : String}
  {ds : List Distribution}

private theorem within_upsert (h : db.Stores (Ledger.Within n))
    (hupsert : db.upsert .aardvark r ds = .ok changed) :
    changed.Stores (Ledger.Within (n + ds.length)) := by
  obtain ⟨L, hL, rfl⟩ := h
  obtain ⟨hr, hchanged⟩ := Ledger.upsert_eq_ok.mp hupsert
  exact ⟨_, hL.put hr ds, hchanged⟩

private theorem within_importRecord (h : db.Stores (Ledger.Within n)) (report : ImportReport)
    (record : Json) :
    (importRecord .aardvark config (db, report) record).1.Stores
      (Ledger.Within (n + Record.given config record)) := by
  have hkept := h.mono (Ledger.Within.mono (Nat.le_add_right n (Record.given config record)))
  simp only [importRecord]
  split
  · exact hkept
  · cases hrecord : db.upsertRecord .aardvark config record with
    | error e => exact hkept
    | ok changed =>
        rw [upsertRecord] at hrecord
        split at hrecord
        · cases hrecord
        next r ds hread =>
          have hgiven : Record.given config record = ds.length := by rw [Record.given, hread]
          rw [hgiven]
          exact within_upsert h hrecord

private theorem within_importResourceRow (h : db.Stores (Ledger.Within n)) (added : Nat)
    (cells : FieldCells) :
    (importResourceRow .aardvark config (db, added) cells).1.Stores
      (Ledger.Within (n + cells.given config .resources)) := by
  simp only [importResourceRow, FieldCells.given]
  cases cells.resource? .aardvark config with
  | none => exact h
  | some written =>
      obtain ⟨r, ds⟩ := written
      obtain ⟨L, hL, rfl⟩ := h
      cases hrefresh : L.database.refresh .aardvark r ds with
      | error e =>
          simp only [hrefresh]
          exact ⟨L, Ledger.Within.mono (Nat.le_add_right n ds.length) L hL, rfl⟩
      | ok changed =>
          simp only [hrefresh]
          obtain ⟨hr, M, hM, hchanged⟩ := Ledger.refresh_eq_ok.mp hrefresh
          exact ⟨M, hL.replace? hr hM, hchanged⟩

private theorem within_importDistributionRow (h : db.Stores (Ledger.Within n)) (added : Nat)
    (cells : FieldCells) :
    (importDistributionRow config (db, added) cells).1.Stores
      (Ledger.Within (n + cells.given config .distributions)) := by
  simp only [importDistributionRow, FieldCells.given]
  cases cells.distribution? config with
  | none => exact h
  | some placed =>
      obtain ⟨id, d⟩ := placed
      obtain ⟨L, hL, rfl⟩ := h
      cases happend : L.database.append id [d] with
      | error e =>
          simp only [happend]
          exact ⟨L, Ledger.Within.mono (Nat.le_add_right n 1) L hL, rfl⟩
      | ok changed =>
          simp only [happend]
          obtain ⟨M, hM, hchanged, -⟩ := Ledger.append_eq_ok.mp happend
          exact ⟨M, hL.extend? hM, hchanged⟩

private theorem within_foldl {α β : Type} (given : α → Nat) {next : Database × β → α → Database × β}
    (hnext : ∀ {n db}, db.Stores (Ledger.Within n) → ∀ b a,
      (next (db, b) a).1.Stores (Ledger.Within (n + given a)))
    (items : List α) {state : Database × β} (h : state.1.Stores (Ledger.Within n)) :
    (items.foldl next state).1.Stores (Ledger.Within (n + (items.map given).sum)) := by
  induction items generalizing n state with
  | nil => exact h
  | cons a rest ih =>
      have hrest := ih (hnext h state.2 a)
      rwa [Nat.add_assoc, ← List.sum_cons, ← List.map_cons] at hrest

theorem within_importRecords (h : db.Stores (Ledger.Within n)) (records : List Json) :
    (db.importRecords .aardvark config records).1.Stores
      (Ledger.Within (n + (records.map (Record.given config)).sum)) :=
  within_foldl _ within_importRecord records h

theorem within_importRows (h : db.Stores (Ledger.Within n)) {aliases : Dict String}
    {rows : List TableRow} {summary : TableSummary}
    (himport : db.importRows .aardvark config aliases rows = .ok (changed, summary)) :
    changed.Stores (Ledger.Within (n + ((rows.map (FieldCells.ofRow aliases .aardvark)).map
      (FieldCells.given config (.ofRows aliases .aardvark rows))).sum)) := by
  rw [importRows] at himport
  cases hkind : TableKind.ofRows aliases .aardvark rows with
  | resources =>
      rw [hkind] at himport
      cases himport
      exact within_foldl _ within_importResourceRow _ h
  | distributions =>
      rw [hkind] at himport
      cases himport
      exact within_foldl _ within_importDistributionRow _ h
  | unrecognized =>
      rw [hkind] at himport
      cases himport

end Database

/-! Runs -/

namespace Ledger

variable {n : Nat} {L M : Ledger}

theorem Within.edit (h : L.Within n) {config : Config} {e : Edit} {answer : Option Bool}
    (hedit : L.edit config e = .ok (M, answer)) : M.Within (n + e.given config) := by
  have hupsert {r : Resource} {ds : List Distribution}
      (hr : (L.upsert r ds).map (·, none) = .ok (M, answer)) : M.Within (n + ds.length) := by
    obtain ⟨written, hwritten, heq⟩ := map_eq_ok.mp hr
    cases heq
    obtain ⟨haccepted, rfl⟩ := upsert_eq_put.mp hwritten
    exact h.put haccepted ds
  have hsound := h.sound.edit hedit
  cases e with
  | upsert r ds => exact hupsert hedit
  | upsertRecord record =>
      simp only [Edit.given, Record.given]
      rw [Ledger.edit] at hedit
      split at hedit
      · cases hedit
      next hread =>
        rw [hread]
        exact hupsert hedit
  | delete id =>
      refine ⟨hsound, ?_⟩
      rw [Ledger.edit] at hedit
      split at hedit
      · cases hedit
      · cases hedit
        exact fun p hp => h.placements p (List.mem_filter.mp hp).1
  | cacheThumbnail id url =>
      refine ⟨hsound, ?_⟩
      cases hedit
      exact h.placements
  | cacheStaticMap id url =>
      refine ⟨hsound, ?_⟩
      cases hedit
      exact h.placements

end Ledger

namespace Session

variable {n : Nat} {s : Session} {L : Ledger} {a : Action} {db : Database}

private theorem Written.within (hL : L.Within n) (h : Written s L a db) :
    db.Stores (Ledger.Within (n + s.given a)) := by
  have hstores : L.database.Stores (Ledger.Within n) := ⟨L, hL, rfl⟩
  cases h with
  | edit hedit => exact ⟨_, hL.edit hedit, rfl⟩
  | importBulk records => exact Database.within_importRecords hstores records
  | importTabular himport => exact Database.within_importRows hstores himport
  | @reimport records hrecords =>
      have hempty : Ledger.empty.database.Stores (Ledger.Within n) :=
        ⟨.empty, (Ledger.kind_within n).empty, rfl⟩
      rw [given, hrecords]
      exact Database.within_importRecords hempty records

/-- The positions of a session are below the number of distributions that it was given. -/
theorem ReachableWith.stores (h : s.ReachableWith n) : s.Stores (Ledger.Within n) := by
  induction h with
  | memory config hsink => exact stores_memory (Ledger.kind_within 0) config hsink
  | file config hsink => exact stores_file (Ledger.kind_within 0) config hsink
  | @step n s t a _ ha ih =>
      obtain ⟨L, hL, hc⟩ := ih.catalog.database
      have hmono := ih.mono (Ledger.Within.mono (Nat.le_add_right n (s.given a)))
      exact hmono.step (Ledger.kind_within _) hc (fun _ hwritten => hwritten.within hL) ha

theorem reachableWith_afterUpsert {r : Resource} (hr : Schema.check .aardvark r = .ok ())
    (ds : List Distribution) : (afterUpsert r ds).ReachableWith ds.length := by
  have hstart : (start .memory default none).ReachableWith 0 :=
    .memory default fun k hk => absurd hk (Option.not_mem_none k)
  have hstep := hstart.step (step_afterUpsert hr ds)
  rwa [Nat.zero_add] at hstep

end Session

end Gazetteer
