import Mathlib
import Gazetteer.Proofs.Store.Consistent
/-!
Changes of rows: what they make of a consistent table, and when they break no constraint.
-/

namespace Gazetteer

namespace Table

variable {t u : Table} {r : Row}

def kept (t : Table) (changes : List (String × Cell)) : List (String × Cell) :=
  changes.map fun entry => (entry.1, entry.2.store (t.affinity entry.1))

def changedRow (column : String) (c : Cell) (changes : List (String × Cell)) (r : Row) : Row :=
  if (r.cell column).equals c then r.update changes else r

theorem hasCollision_middle {i : Index} {done rest : List Row} :
    hasCollision i (done ++ r :: rest) = false ↔
      (∀ other ∈ done ++ rest, i.collide r other = false) ∧
        hasCollision i (done ++ rest) = false := by
  have hmiddle : (done ++ r :: rest).Perm (r :: (done ++ rest)) := List.perm_middle
  have hcons : hasCollision i (r :: (done ++ rest)) = false ↔
      (∀ other ∈ done ++ rest, i.collide r other = false) ∧
        hasCollision i (done ++ rest) = false := by
    rw [hasCollision, Bool.or_eq_false_iff, List.any_eq_false]
    simp only [Bool.not_eq_true]
  rw [← hcons]
  exact ⟨hasCollision_perm hmiddle, hasCollision_perm hmiddle.symm⟩

variable {column : String} {c : Cell} {changes : List (String × Cell)}

/-- What becomes of the rows if no constraint is broken, none of which is then. -/
theorem changeRows_eq_ok {done rest rows : List Row}
    (h : t.changeRows column c changes done rest = .ok rows)
    (hunique : ∀ i ∈ t.indexes, i.unique = true → hasCollision i (done ++ rest) = false) :
    rows = done ++ rest.map (changedRow column c changes) ∧
      (∀ r ∈ rest, (r.cell column).equals c = true → t.missing? (r.update changes) = none) ∧
        ∀ i ∈ t.indexes, i.unique = true → hasCollision i rows = false := by
  induction rest generalizing done with
  | nil =>
      cases h
      rw [List.append_nil] at hunique
      exact ⟨(List.append_nil _).symm, fun r hr => absurd hr List.not_mem_nil, hunique⟩
  | cons r rest ih =>
      rw [changeRows] at h
      have hmap (changed : Row) : done ++ [changed] ++ rest = done ++ changed :: rest := by
        rw [List.append_assoc, List.singleton_append]
      split at h
      next hmatch =>
        simp only at h
        split at h
        · cases h
        · cases h
        next hmissing hcollision =>
          -- the changed row was compared with all others, those still to be changed included
          have hnext := ih h fun i hi hu => by
            rw [hmap, hasCollision_middle]
            exact ⟨collision?_eq_none_iff.mp hcollision i hi hu,
              (hasCollision_middle.mp (hunique i hi hu)).2⟩
          refine ⟨?_, List.forall_mem_cons.mpr ⟨fun _ => hmissing, hnext.2.1⟩, hnext.2.2⟩
          rw [hnext.1, List.map_cons, changedRow, if_pos hmatch, List.append_assoc,
            List.singleton_append]
      next hmatch =>
        have hnext := ih h fun i hi hu => by
          rw [hmap]
          exact hunique i hi hu
        refine ⟨?_, List.forall_mem_cons.mpr ⟨fun h => absurd h hmatch, hnext.2.1⟩, hnext.2.2⟩
        rw [hnext.1, List.map_cons, changedRow, if_neg hmatch, List.append_assoc,
          List.singleton_append]

/-- Changes outside the unique keys that leave no required column empty break no constraint. -/
theorem changeRows_of_apart {done rest : List Row}
    (hmissing : ∀ r ∈ rest, t.missing? (r.update changes) = none)
    (hapart : ∀ i ∈ t.indexes, i.unique = true → ∀ p ∈ i.parts, ∀ r : Row,
      (r.update changes).cell p.columnName = r.cell p.columnName)
    (hunique : ∀ i ∈ t.indexes, i.unique = true → hasCollision i (done ++ rest) = false) :
    ∃ rows, t.changeRows column c changes done rest = .ok rows := by
  induction rest generalizing done with
  | nil => exact ⟨_, rfl⟩
  | cons r rest ih =>
      obtain ⟨hmissingRow, hmissing⟩ := List.forall_mem_cons.mp hmissing
      have hmap (changed : Row) : done ++ [changed] ++ rest = done ++ changed :: rest := by
        rw [List.append_assoc, List.singleton_append]
      rw [changeRows]
      split
      next hmatch =>
        have hcollide : ∀ i ∈ t.indexes, i.unique = true → ∀ other ∈ done ++ rest,
            i.collide (r.update changes) other = false := by
          intro i hi hu other hother
          rw [Index.collide_congr (fun p hp => hapart i hi hu p hp r) fun _ _ => rfl]
          exact (hasCollision_middle.mp (hunique i hi hu)).1 other hother
        simp only [hmissingRow, collision?_eq_none_iff.mpr hcollide]
        refine ih hmissing fun i hi hu => ?_
        rw [hmap, hasCollision_middle]
        exact ⟨hcollide i hi hu, (hasCollision_middle.mp (hunique i hi hu)).2⟩
      next hmatch =>
        refine ih hmissing fun i hi hu => ?_
        rw [hmap]
        exact hunique i hi hu

def changed (t : Table) (column value : String) (changes : List (String × Cell)) : Table :=
  { t with rows := t.rows.map (changedRow column (t.wanted column value) (t.kept changes)) }

private theorem findEntry_kept {name : String} {c : Cell} {changes : List (String × Cell)}
    (hfind : findEntry name (Row.ofChanges (t.kept changes)) = some c) :
    ∃ change ∈ changes, Text.fold change.1 = name ∧ c = change.2.store (t.affinity change.1) := by
  obtain ⟨entry, hentry, rfl⟩ := Option.map_eq_some_iff.mp hfind
  have hname : entry.1 = name := by simpa using List.find?_some hentry
  obtain ⟨given, hgiven, rfl⟩ := List.mem_map.mp (List.mem_of_find?_eq_some hentry)
  obtain ⟨change, hchange, rfl⟩ := List.mem_map.mp hgiven
  exact ⟨change, hchange, hname, rfl⟩

private theorem Consistent.admits_update (h : t.Consistent) (hr : t.Admits r)
    (hnames : ∀ change ∈ changes, t.has change.1 = true)
    (hmissing : t.missing? (r.update (t.kept changes)) = none) :
    t.Admits (r.update (t.kept changes)) where
  names := by
    rw [Row.names_update, hr.names]
    intro change hchange
    obtain ⟨given, hgiven, rfl⟩ := List.mem_map.mp hchange
    exact hr.lists_iff.mpr (hnames given hgiven)
  required := hmissing
  texts c hc s hs := by
    rw [Row.cell_update] at hs
    cases hfind : findEntry (Text.fold c.name) (Row.ofChanges (t.kept changes)) with
    | none =>
        rw [hfind] at hs
        exact hr.texts c hc s hs
    | some cell =>
        rw [hfind, Option.getD_some] at hs
        obtain ⟨change, -, hname, hcell⟩ := findEntry_kept hfind
        rw [hcell, h.affinity_eq hc hname.symm] at hs
        exact Cell.store_of_store_eq_text hs

private theorem Consistent.of_changed (h : t.Consistent) {value : String}
    (hnames : ∀ change ∈ changes, t.has change.1 = true)
    (hmissing : ∀ r ∈ t.rows, (r.cell column).equals (t.wanted column value) = true →
      t.missing? (r.update (t.kept changes)) = none)
    (hunique : ∀ i ∈ t.indexes, i.unique = true →
      hasCollision i (t.changed column value changes).rows = false) :
    (t.changed column value changes).Consistent where
  columns := h.columns
  rowKey := h.rowKey
  parts := h.parts
  unique := hunique
  rows row hrow := by
    obtain ⟨r, hr, rfl⟩ := List.mem_map.mp hrow
    have hadmits : t.Admits (changedRow column (t.wanted column value) (t.kept changes) r) := by
      rw [changedRow]
      split
      next hmatch => exact h.admits_update (h.rows r hr) hnames (hmissing r hr hmatch)
      next => exact h.rows r hr
    exact ⟨hadmits.names, hadmits.required, hadmits.texts⟩

theorem Consistent.change_eq_ok (h : t.Consistent) {value : String} {n : Nat}
    (hchange : t.change column value changes = .ok (u, n)) :
    u = t.changed column value changes ∧ u.Consistent := by
  obtain ⟨⟨⟩, hneed, hchange⟩ := bind_eq_ok.mp hchange
  obtain ⟨rows, hrows, heq⟩ := bind_eq_ok.mp hchange
  cases heq
  have hnames := need_eq_ok_iff.mp hneed
  obtain ⟨heq, hmissing, hunique⟩ := changeRows_eq_ok hrows h.unique
  rw [List.nil_append] at heq
  subst heq
  refine ⟨rfl, h.of_changed (fun change hchange => ?_) hmissing hunique⟩
  exact hnames _ (List.mem_cons_of_mem _ (List.mem_map_of_mem hchange))

/-- A change of columns outside the unique keys to cells other than null succeeds. -/
theorem Consistent.change_of_apart (h : t.Consistent) {value : String}
    (hnames : ∀ name ∈ column :: changes.map Prod.fst, t.has name = true)
    (hcells : ∀ change ∈ changes, change.2.isNull = false)
    (hapart : ∀ i ∈ t.indexes, i.unique = true → ∀ p ∈ i.parts, ∀ change ∈ changes,
      Text.fold change.1 ≠ Text.fold p.columnName) :
    ∃ n, t.change column value changes = .ok (t.changed column value changes, n) := by
  have hmissing : ∀ r ∈ t.rows, t.missing? (r.update (t.kept changes)) = none := by
    intro r hr
    rw [missing?_eq_none_iff]
    intro c hc hrequired
    rw [Row.cell_update]
    cases hfind : findEntry (Text.fold c.name) (Row.ofChanges (t.kept changes)) with
    | none => exact missing?_eq_none_iff.mp (h.rows r hr).required c hc hrequired
    | some cell =>
        obtain ⟨change, hchange, -, rfl⟩ := findEntry_kept hfind
        rw [Option.getD_some, Cell.isNull_store]
        exact hcells change hchange
  have hkeys : ∀ i ∈ t.indexes, i.unique = true → ∀ p ∈ i.parts, ∀ r : Row,
      (r.update (t.kept changes)).cell p.columnName = r.cell p.columnName := by
    intro i hi hu p hp r
    rw [Row.cell_update]
    cases hfind : findEntry (Text.fold p.columnName) (Row.ofChanges (t.kept changes)) with
    | none => rfl
    | some cell =>
        obtain ⟨change, hchange, hname, -⟩ := findEntry_kept hfind
        exact absurd hname (hapart i hi hu p hp change hchange)
  obtain ⟨rows, hrows⟩ : ∃ rows,
      t.changeRows column (t.wanted column value) (t.kept changes) [] t.rows = .ok rows :=
    changeRows_of_apart hmissing hkeys h.unique
  obtain ⟨heq, -, -⟩ := changeRows_eq_ok hrows h.unique
  rw [List.nil_append] at heq
  subst heq
  refine ⟨(t.select column value).length, ?_⟩
  rw [change, need_eq_ok_iff.mpr hnames, ok_bind]
  change (t.changeRows column (t.wanted column value) (t.kept changes) [] t.rows >>= _) = _
  rw [hrows]
  rfl

end Table

end Gazetteer
