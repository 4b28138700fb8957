import Mathlib
import Gazetteer.Proofs.Store.Consistent
/-!
Databases as lists of tables: what is found under a name after a statement, and that statements
keep every table consistent.
-/

namespace Gazetteer

namespace Database

/-! Tables by name -/

variable {db changed : Database} {name : String} {t : Table}

theorem sameLetters_trans {a b c : String} (hab : Text.sameLetters a b = true)
    (hbc : Text.sameLetters b c = true) : Text.sameLetters a c = true :=
  beq_iff_eq.mpr ((beq_iff_eq.mp hab).trans (beq_iff_eq.mp hbc))

theorem sameLetters_eq_false {a b c : String} (hab : Text.sameLetters a b = true)
    (hbc : Text.sameLetters b c = false) : Text.sameLetters a c = false := by
  rw [Text.sameLetters, beq_iff_eq.mp hab]
  exact hbc

theorem sameLetters_of_table? (h : db.table? name = some t) :
    Text.sameLetters t.name name = true := by
  simpa using List.find?_some h

theorem table?_congr {a b : String} (h : Text.sameLetters a b = true) :
    db.table? a = db.table? b := by
  simp only [table?, Text.sameLetters, beq_iff_eq.mp h]

theorem mem_of_table? (h : db.table? name = some t) : t ∈ db.tables :=
  List.mem_of_find?_eq_some h

theorem table?_put (db : Database) (t : Table) (name : String) :
    (db.put t).table? name =
      if Text.sameLetters t.name name then (db.table? name).map fun _ => t
      else db.table? name := by
  obtain ⟨tables⟩ := db
  simp only [put, table?]
  induction tables with
  | nil => simp [put.replaceFirst]
  | cons other rest ih =>
      rw [put.replaceFirst]
      cases hother : Text.sameLetters other.name t.name with
      | true =>
          cases hname : Text.sameLetters t.name name with
          | true => simp [hname, sameLetters_trans hother hname]
          | false => simp [hname, sameLetters_eq_false hother hname]
      | false =>
          simp only [Bool.false_eq_true, if_false, List.find?_cons, ih]
          cases hname : Text.sameLetters other.name name with
          | true =>
              have hnot : Text.sameLetters t.name name = false := by
                rw [Bool.eq_false_iff] at *
                intro h
                rw [Text.sameLetters_comm] at h
                exact hother (sameLetters_trans hname h)
              simp [hnot]
          | false => rfl

theorem table?_put_self (ht : db.table? name = some t) {u : Table} (hname : u.name = t.name) :
    (db.put u).table? name = some u := by
  rw [table?_put, hname, if_pos (sameLetters_of_table? ht), ht]
  rfl

theorem table?_put_of_ne {u : Table} (h : Text.sameLetters u.name name = false) :
    (db.put u).table? name = db.table? name := by
  rw [table?_put, if_neg (Bool.eq_false_iff.mp h)]

/-- The tables before and after the one in whose place another is put stay. -/
theorem put_tables {u : Table} (ht : db.table? name = some t) (hname : u.name = t.name) :
    ∃ before after, db.tables = before ++ t :: after ∧
      (db.put u).tables = before ++ u :: after := by
  have hsame := sameLetters_of_table? ht
  obtain ⟨tables⟩ := db
  simp only [table?, put] at ht ⊢
  induction tables with
  | nil => cases ht
  | cons other rest ih =>
      rw [List.find?_cons] at ht
      rw [put.replaceFirst, hname]
      cases hother : Text.sameLetters other.name name with
      | true =>
          rw [hother] at ht
          cases ht
          rw [Text.sameLetters_refl]
          exact ⟨[], rest, rfl, rfl⟩
      | false =>
          rw [hother] at ht
          obtain ⟨before, after, hrest, hput⟩ := ih ht
          have hnot : Text.sameLetters other.name t.name = false := by
            rw [Bool.eq_false_iff]
            intro h
            rw [sameLetters_trans h hsame] at hother
            cases hother
          rw [hnot]
          exact ⟨other :: before, after, congrArg (other :: ·) hrest, congrArg (other :: ·) hput⟩

theorem put_self (ht : db.table? name = some t) : db.put t = db := by
  obtain ⟨before, after, htables, hput⟩ := put_tables ht rfl
  exact congrArg Database.mk (hput.trans htables.symm)

theorem put_put (db : Database) {u v : Table} (hname : v.name = u.name) :
    (db.put u).put v = db.put v := by
  obtain ⟨tables⟩ := db
  simp only [put, mk.injEq]
  induction tables with
  | nil => rfl
  | cons other rest ih =>
      rw [put.replaceFirst, put.replaceFirst, hname]
      cases hother : Text.sameLetters other.name u.name with
      | true =>
          simp only [if_true]
          rw [put.replaceFirst, hname, Text.sameLetters_refl, if_pos rfl]
      | false =>
          simp only [Bool.false_eq_true, if_false]
          rw [put.replaceFirst, hname, hother, ih]
          rfl

theorem table?_append (db : Database) (t : Table) (name : String) :
    (⟨db.tables ++ [t]⟩ : Database).table? name =
      (db.table? name).or (if Text.sameLetters t.name name then some t else none) := by
  rw [table?, List.find?_append]
  cases hname : Text.sameLetters t.name name <;> simp [table?, hname]

theorem mem_put {u : Table} (h : u ∈ (db.put t).tables) : u = t ∨ u ∈ db.tables := by
  obtain ⟨tables⟩ := db
  simp only [put] at h
  induction tables with
  | nil => cases h
  | cons other rest ih =>
      rw [put.replaceFirst] at h
      split at h
      · exact (List.mem_cons.mp h).imp_right (List.mem_cons_of_mem _)
      · rcases List.mem_cons.mp h with rfl | h
        · exact Or.inr List.mem_cons_self
        · exact (ih h).imp_right (List.mem_cons_of_mem _)

def Consistent (db : Database) : Prop :=
  ∀ t ∈ db.tables, t.Consistent

theorem Consistent.put (h : db.Consistent) (ht : t.Consistent) :
    (db.put t).Consistent := by
  intro u hu
  rcases mem_put hu with rfl | hu
  · exact ht
  · exact h u hu

theorem Consistent.append (h : db.Consistent) (ht : t.Consistent) :
    (⟨db.tables ++ [t]⟩ : Database).Consistent :=
  List.forall_mem_append.mpr ⟨h, List.forall_mem_singleton.mpr ht⟩

/-! Statements on tables by name -/

theorem ensureTable_eq_ok {made : Except Fault Table} (h : db.ensureTable name made = .ok changed) :
    ((db.table? name).isSome = true ∧ changed = db) ∨
      (db.table? name = none ∧ ∃ t, made = .ok t ∧ changed = ⟨db.tables ++ [t]⟩) := by
  rw [ensureTable] at h
  split at h
  next t ht =>
    cases h
    exact Or.inl ⟨by rw [ht]; rfl, rfl⟩
  next hnone =>
    split at h
    · cases h
    · obtain ⟨t, ht, rfl⟩ := map_eq_ok.mp h
      exact Or.inr ⟨hnone, t, ht, rfl⟩

theorem ensureIndex_eq_ok {i : Index} (h : db.ensureIndex name i = .ok changed) :
    changed = db ∨ ∃ t u, db.table? name = some t ∧ t.addIndex i = .ok u ∧ changed = db.put u := by
  rw [ensureIndex] at h
  cases ht : db.table? name with
  | none =>
      rw [table, ht] at h
      cases h
  | some t =>
      simp only [table, ht] at h
      split at h
      · cases h
      · split at h
        · cases h
          exact Or.inl rfl
        · obtain ⟨u, hu, rfl⟩ := map_eq_ok.mp h
          exact Or.inr ⟨t, u, rfl, hu, rfl⟩

theorem modify_eq_ok {α : Type} {name : String} {statement : Table → Except Fault (Table × α)}
    {result : α} (h : db.modify name statement = .ok (changed, result)) :
    ∃ t u, db.table? name = some t ∧ statement t = .ok (u, result) ∧ changed = db.put u := by
  rw [modify, table] at h
  cases ht : db.table? name with
  | none =>
      rw [ht] at h
      cases h
  | some t =>
      simp only [ht] at h
      split at h
      · cases h
      next u value hu =>
        cases h
        exact ⟨t, u, rfl, hu, rfl⟩

theorem need_eq_ok {wanted : List (String × String)}
    (h : ∀ entry ∈ wanted, ∃ t, db.table? entry.1 = some t ∧ t.has entry.2 = true) :
    db.need wanted = .ok () := by
  induction wanted with
  | nil => rfl
  | cons entry rest ih =>
      obtain ⟨⟨t, ht, hcolumn⟩, hrest⟩ := List.forall_mem_cons.mp h
      simp only [need, table, ht, hcolumn, if_true]
      exact ih hrest

theorem Consistent.ensureIndex (h : db.Consistent) {i : Index}
    (hensure : db.ensureIndex name i = .ok changed) : changed.Consistent := by
  rcases ensureIndex_eq_ok hensure with rfl | ⟨t, u, ht, hu, rfl⟩
  · exact h
  · exact h.put ((h t (mem_of_table? ht)).addIndex hu)

end Database

end Gazetteer
