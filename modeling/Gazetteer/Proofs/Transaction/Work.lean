import Mathlib
import Gazetteer.Catalog.Import
import Gazetteer.Proofs.Except
/-!
Statements on a connection.  Each changes the stored database in place, so what the first ones did
is there when a later one fails; only a transaction that is rolled back takes it away.
-/

namespace Gazetteer

structure Connection where
  current : Database
  /-- What was stored when the open transaction began. -/
  saved : Option Database
  /-- What comes in the way of the statements to come from outside, one entry for each. -/
  mishaps : List (Option Fault)

/-- Statements up to the first that fails. -/
def Work (α : Type) : Type :=
  Connection → Except Error α × Connection

namespace Connection

def next (c : Connection) : Option Fault × Connection :=
  match c.mishaps with
  | [] => (none, c)
  | mishap :: rest => (mishap, { c with mishaps := rest })

/-- The connection without what was done since the open transaction began. -/
def rolledBack (c : Connection) : Connection :=
  match c.saved with
  | some db => { c with current := db, saved := none }
  | none => c

@[simp] theorem current_next (c : Connection) : c.next.2.current = c.current := by
  unfold next
  split <;> rfl

@[simp] theorem saved_next (c : Connection) : c.next.2.saved = c.saved := by
  unfold next
  split <;> rfl

theorem next_eq_self {c : Connection} (h : c.mishaps = []) : c.next = (none, c) := by
  simp only [next, h]

theorem rolledBack_of_none {c : Connection} (h : c.saved = none) : c.rolledBack = c := by
  simp only [rolledBack, h]

theorem rolledBack_of_some {c : Connection} {db : Database} (h : c.saved = some db) :
    c.rolledBack = { c with current := db, saved := none } := by
  simp only [rolledBack, h]

end Connection

namespace Work

variable {α β : Type}

instance : Monad Work where
  pure a := fun c => (.ok a, c)
  bind w f := fun c =>
    match w c with
    | (.ok a, after) => f a after
    | (.error e, after) => (.error e, after)

def fail (e : Error) : Work α :=
  fun c => (.error e, c)

/-- One statement, which does nothing at all if it fails. -/
def statement (report : Fault → Error) (run : Database → Except Fault (Database × α)) : Work α :=
  fun c =>
    match c.next with
    | (some fault, after) => (.error (report fault), after)
    | (none, after) =>
        match run c.current with
        | .ok (changed, a) => (.ok a, { after with current := changed })
        | .error fault => (.error (report fault), after)

def start (report : Fault → Error) : Work Unit := fun c =>
  match c.next with
  | (some fault, after) => (.error (report fault), after)
  | (none, after) => (.ok (), { after with saved := some c.current })

def commit (report : Fault → Error) : Work Unit := fun c =>
  match c.next with
  | (some fault, after) => (.error (report fault), after)
  | (none, after) => (.ok (), { after with saved := none })

/-- Work of which nothing stays if it fails, be it at the start, in the middle or in the end. -/
def transaction (starts commits : Fault → Error) (w : Work α) : Work α := fun c =>
  let whole : Work α := do
    start starts
    let a ← w
    commit commits
    return a
  match whole c with
  | (.ok a, after) => (.ok a, after)
  | (.error e, after) => (.error e, after.rolledBack)

@[simp] theorem pure_apply (a : α) (c : Connection) : (pure a : Work α) c = (.ok a, c) := rfl

theorem bind_apply (w : Work α) (f : α → Work β) (c : Connection) :
    (w >>= f) c = match w c with
      | (.ok a, after) => f a after
      | (.error e, after) => (.error e, after) := rfl

theorem transaction_apply (starts commits : Fault → Error) (w : Work α) (c : Connection) :
    transaction starts commits w c = match c.next with
      | (some fault, after) => (.error (starts fault), after.rolledBack)
      | (none, after) =>
          match w { after with saved := some c.current } with
          | (.error e, last) => (.error e, last.rolledBack)
          | (.ok a, last) =>
              match last.next with
              | (some fault, last) => (.error (commits fault), last.rolledBack)
              | (none, last) => (.ok a, { last with saved := none }) := by
  simp only [transaction, bind_apply, start, commit, pure_apply]
  rcases c.next with ⟨_ | fault, after⟩
  · simp only []
    rcases w { after with saved := some c.current } with ⟨_ | a, last⟩
    · rfl
    · simp only []
      rcases last.next with ⟨_ | fault, last⟩ <;> rfl
  · rfl

/-- What work does in place is what a function says of the database as a whole, unless a mishap
keeps it from being done. -/
structure Realizes (w : Work α) (f : Database → Except Error (Database × α)) : Prop where
  ok : ∀ {c a after}, w c = (.ok a, after) → f c.current = .ok (after.current, a)
  error : ∀ {c e after}, c.mishaps = [] → w c = (.error e, after) → f c.current = .error e
  saved : ∀ c, (w c).2.saved = c.saved
  mishaps : ∀ c, c.mishaps = [] → (w c).2.mishaps = []

namespace Realizes

theorem congr {w : Work α} {f g : Database → Except Error (Database × α)} (hw : w.Realizes f)
    (h : ∀ db, f db = g db) : w.Realizes g :=
  funext h ▸ hw

theorem pure (a : α) : (pure a : Work α).Realizes fun db => .ok (db, a) where
  ok h := by
    cases h
    rfl
  error _ h := nomatch h
  saved _ := rfl
  mishaps _ h := h

theorem statement (report : Fault → Error) (run : Database → Except Fault (Database × α)) :
    (statement report run).Realizes fun db => (run db).mapError report := by
  constructor
  · intro c a after h
    unfold Work.statement at h
    split at h
    · cases h
    · split at h
      next hrun =>
        cases h
        exact mapError_eq_ok.mpr hrun
      · cases h
  · intro c e after hmishaps h
    simp only [Work.statement, Connection.next_eq_self hmishaps] at h
    split at h
    · cases h
    next fault hrun =>
      cases h
      exact mapError_eq_error.mpr ⟨fault, hrun, rfl⟩
  · intro c
    have hsaved := c.saved_next
    unfold Work.statement
    split
    next hnext => rwa [hnext] at hsaved
    next hnext =>
      rw [hnext] at hsaved
      split <;> exact hsaved
  · intro c hmishaps
    simp only [Work.statement, Connection.next_eq_self hmishaps]
    split <;> exact hmishaps

theorem bind {w : Work α} {f : Database → Except Error (Database × α)} (hw : w.Realizes f)
    {k : α → Work β} {g : α → Database → Except Error (Database × β)}
    (hk : ∀ a, (k a).Realizes (g a)) :
    (w >>= k).Realizes fun db => f db >>= fun done => g done.2 done.1 := by
  constructor
  · intro c b after h
    rw [bind_apply] at h
    split at h
    next a between hfirst =>
      rw [hw.ok hfirst]
      exact (hk a).ok h
    next => cases h
  · intro c e after hmishaps h
    have hbetween := hw.mishaps c hmishaps
    rw [bind_apply] at h
    split at h
    next a between hfirst =>
      change (f c.current >>= _) = _
      rw [hw.ok hfirst]
      rw [hfirst] at hbetween
      exact (hk a).error hbetween h
    next hfirst =>
      cases h
      change (f c.current >>= _) = _
      rw [hw.error hmishaps hfirst]
      rfl
  · intro c
    have hsaved := hw.saved c
    rw [bind_apply]
    split
    next a between hfirst =>
      rw [hfirst] at hsaved
      exact ((hk a).saved between).trans hsaved
    next hfirst => rwa [hfirst] at hsaved
  · intro c hmishaps
    have hbetween := hw.mishaps c hmishaps
    rw [bind_apply]
    split
    next a between hfirst =>
      rw [hfirst] at hbetween
      exact (hk a).mishaps between hbetween
    next hfirst => rwa [hfirst] at hbetween

end Realizes

/-- Work that is done as a function says or leaves what is stored as it was. -/
structure Atomic (w : Work α) (f : Database → Except Error (Database × α)) : Prop where
  ok : ∀ {c a after}, c.saved = none → w c = (.ok a, after) →
    f c.current = .ok (after.current, a) ∧ after.saved = none
  error : ∀ {c e after}, c.saved = none → w c = (.error e, after) →
    after.current = c.current ∧ after.saved = none ∧ (c.mishaps = [] → f c.current = .error e)
  mishaps : ∀ c, c.mishaps = [] → (w c).2.mishaps = []

namespace Atomic

theorem fail (e : Error) : (fail e : Work α).Atomic fun _ => .error e where
  ok _ h := nomatch h
  error hsaved h := by
    cases h
    exact ⟨rfl, hsaved, fun _ => rfl⟩
  mishaps _ h := h

section

variable {w : Work α} {f : Database → Except Error (Database × α)} {starts commits : Fault → Error}
  {c after : Connection} {a : α} {e : Error}

theorem transaction_eq_ok (hw : w.Realizes f)
    (h : transaction starts commits w c = (.ok a, after)) :
    f c.current = .ok (after.current, a) ∧ after.saved = none := by
  have hcurrent := c.current_next
  rw [transaction_apply] at h
  split at h
  · cases h
  next begun hbegun =>
    rw [hbegun] at hcurrent
    split at h
    · cases h
    next b last hlast =>
      have hdone := hw.ok hlast
      have hkept := last.current_next
      split at h
      · cases h
      next closed hclosed =>
        cases h
        rw [hclosed] at hkept
        rw [hcurrent] at hdone
        exact ⟨hdone.trans (by rw [← hkept]), rfl⟩

/-- The database at the start is saved while the work is done, so it is there to go back to at
whichever statement the work fails. -/
theorem transaction_eq_error (hw : w.Realizes f) (hsaved : c.saved = none)
    (h : transaction starts commits w c = (.error e, after)) :
    after.current = c.current ∧ after.saved = none := by
  rw [transaction_apply] at h
  split at h
  next fault begun hbegun =>
    cases h
    have hcurrent := c.current_next
    have hidle := c.saved_next.trans hsaved
    rw [hbegun] at hcurrent hidle
    rw [Connection.rolledBack_of_none hidle]
    exact ⟨hcurrent, hidle⟩
  next begun hbegun =>
    have hkeeps := hw.saved { begun with saved := some c.current }
    split at h
    next e' last hlast =>
      cases h
      rw [hlast] at hkeeps
      rw [Connection.rolledBack_of_some hkeeps]
      exact ⟨rfl, rfl⟩
    next b last hlast =>
      rw [hlast] at hkeeps
      have hlater := last.saved_next.trans hkeeps
      split at h
      next fault closed hclosed =>
        cases h
        rw [hclosed] at hlater
        rw [Connection.rolledBack_of_some hlater]
        exact ⟨rfl, rfl⟩
      · cases h

/-- Without mishaps only the work itself can fail. -/
theorem eq_error_of_transaction (hw : w.Realizes f) (hmishaps : c.mishaps = [])
    (h : transaction starts commits w c = (.error e, after)) : f c.current = .error e := by
  have hfree := hw.mishaps { c with saved := some c.current } hmishaps
  rw [transaction_apply, Connection.next_eq_self hmishaps] at h
  simp only [] at h
  split at h
  next e' last hlast =>
    cases h
    exact hw.error (c := { c with saved := some c.current }) hmishaps hlast
  next b last hlast =>
    rw [hlast] at hfree
    rw [Connection.next_eq_self hfree] at h
    cases h

theorem mishaps_transaction (hw : w.Realizes f) (hmishaps : c.mishaps = []) :
    (transaction starts commits w c).2.mishaps = [] := by
  have hfree := hw.mishaps { c with saved := some c.current } hmishaps
  rw [transaction_apply, Connection.next_eq_self hmishaps]
  simp only []
  split
  next e last hlast =>
    rw [hlast] at hfree
    unfold Connection.rolledBack
    split <;> exact hfree
  next a last hlast =>
    rw [hlast] at hfree
    rw [Connection.next_eq_self hfree]
    exact hfree

theorem transaction (hw : w.Realizes f) (starts commits : Fault → Error) :
    (transaction starts commits w).Atomic f where
  ok _ h := transaction_eq_ok hw h
  error hsaved h :=
    have ⟨hcurrent, hdone⟩ := transaction_eq_error hw hsaved h
    ⟨hcurrent, hdone, fun hmishaps => eq_error_of_transaction hw hmishaps h⟩
  mishaps _ hmishaps := mishaps_transaction hw hmishaps

end

end Atomic

end Work

end Gazetteer
