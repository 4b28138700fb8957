import Mathlib
import Gazetteer.Proofs.Store.Contents
import Gazetteer.Proofs.Store.Name
/-!
What a schema lets through, and the columns that the scalar fields of Aardvark resources have.
-/

namespace Gazetteer

namespace Schema

variable {s : Schema}

private theorem checkScalars_eq_ok {names : List String} :
    s.checkScalars names = .ok () ↔ ∀ name ∈ names, name ≠ "id" ∧ s.isScalar name = true := by
  induction names with
  | nil => simp [checkScalars]
  | cons name rest ih =>
      rw [checkScalars, List.forall_mem_cons, ← ih]
      by_cases hid : name = "id"
      · simp [hid]
      · cases hscalar : s.isScalar name <;> simp [hid]

private theorem checkRepeatables_eq_ok {names : List String} :
    s.checkRepeatables names = .ok () ↔
      ∀ name ∈ names, wellFormedName name = true ∧ s.isScalar name = false := by
  induction names with
  | nil => simp [checkRepeatables]
  | cons name rest ih =>
      rw [checkRepeatables, List.forall_mem_cons, ← ih]
      cases hformed : wellFormedName name
      · simp
      · cases hscalar : s.isScalar name <;> simp

structure Accepts (s : Schema) (r : Resource) : Prop where
  id : Text.allBlank r.id = false
  scalars : ∀ name ∈ r.scalars.keys, name ≠ "id" ∧ s.isScalar name = true
  repeatables : ∀ name ∈ r.repeatables.keys, wellFormedName name = true ∧ s.isScalar name = false

theorem check_eq_ok {r : Resource} : s.check r = .ok () ↔ s.Accepts r := by
  have hsplit : s.Accepts r ↔ Text.allBlank r.id = false ∧ s.checkScalars r.scalars.keys = .ok () ∧
      s.checkRepeatables r.repeatables.keys = .ok () := by
    rw [checkScalars_eq_ok, checkRepeatables_eq_ok]
    exact ⟨fun h => ⟨h.id, h.scalars, h.repeatables⟩, fun h => ⟨h.1, h.2.1, h.2.2⟩⟩
  rw [hsplit, check]
  cases Text.allBlank r.id
  · cases s.checkScalars r.scalars.keys <;> simp
  · simp

/-! Aardvark -/

def scalarNames : List String :=
  "id" :: scalarColumns .aardvark

theorem isScalar_aardvark (name : String) :
    isScalar .aardvark name = true ↔ name ∈ scalarNames := by
  have hfields : (aardvark.fields.reverse.all fun f =>
      f.isScalar == decide (f.name ∈ scalarNames)) = true := by
    decide
  have hnames : (scalarNames.all fun name => (field? .aardvark name).isSome) = true := by
    decide
  rw [isScalar]
  cases hfind : field? .aardvark name with
  | none =>
      refine ⟨fun h => absurd h Bool.false_ne_true, fun h => ?_⟩
      have := List.all_eq_true.mp hnames name h
      rw [hfind] at this
      exact absurd this Bool.false_ne_true
  | some f =>
      have hname : f.name = name := by simpa using List.find?_some hfind
      have := List.all_eq_true.mp hfields f (List.mem_of_find?_eq_some hfind)
      rw [beq_iff_eq, hname] at this
      simp only [this, decide_eq_true_eq]

theorem mem_columns_of_isScalar {name : String} (h : isScalar .aardvark name = true)
    (hid : name ≠ "id") : (name, Layout.plain .text) ∈ Part.resources.columns := by
  rcases List.mem_cons.mp ((isScalar_aardvark name).mp h) with h | h
  · exact absurd h hid
  · exact List.mem_cons_of_mem _ (List.mem_append_left _ (List.mem_map_of_mem h))

theorem unquote?_resourceColumns : ∀ column ∈ Layout.resourceColumns .aardvark,
    Name.unquote? column.1 = some column.1 := by
  decide +kernel

theorem eq_of_unquote?_scalar {column read : String} (h : column ∈ scalarColumns .aardvark)
    (hread : Name.unquote? column = some read) : read = column := by
  have hentry : (column, Layout.plain .text) ∈ Layout.resourceColumns .aardvark :=
    List.mem_cons_of_mem _ (List.mem_append_left _ (List.mem_map_of_mem h))
  rw [unquote?_resourceColumns _ hentry, Option.some.injEq] at hread
  exact hread.symm

end Schema

end Gazetteer
