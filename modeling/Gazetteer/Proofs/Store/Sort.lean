import Mathlib
import Gazetteer.Catalog.Hydrate
import Gazetteer.Proofs.Store.Cell
/-! The order of rows by some of their columns. -/

namespace Gazetteer

namespace Database

/-- Rows compared by some of their columns, the first one counting most. -/
def compareBy (columns : List String) (a b : Row) : Ordering :=
  match columns with
  | [] => .eq
  | column :: rest =>
      (Cell.compare .binary (a.cell column) (b.cell column)).then (compareBy rest a b)

private theorem compareBy_cons (column : String) (rest : List String) :
    compareBy (column :: rest) =
      compareLex (fun a b => Cell.compare .binary (a.cell column) (b.cell column))
        (compareBy rest) := rfl

instance (columns : List String) : Std.TransCmp (compareBy columns) := by
  induction columns with
  | nil => exact { eq_swap := rfl, isLE_trans := fun _ _ => rfl }
  | cons column rest ih =>
      have hcolumn : Std.TransCmp fun a b : Row =>
          Cell.compare .binary (a.cell column) (b.cell column) :=
        { eq_swap := (inferInstance : Std.OrientedCmp (Cell.compare .binary)).eq_swap
          isLE_trans := (inferInstance : Std.TransCmp (Cell.compare .binary)).isLE_trans }
      rw [compareBy_cons]
      infer_instance

theorem inOrder_eq (columns : List String) (a b : Row) :
    inOrder columns a b = (compareBy columns a b).isLE := by
  induction columns with
  | nil => rfl
  | cons column rest ih =>
      rw [inOrder] at ih
      rw [inOrder, List.foldr_cons, ih, compareBy]
      cases Cell.compare .binary (a.cell column) (b.cell column) <;> rfl

theorem inOrder_trans (columns : List String) (a b c : Row) (hab : inOrder columns a b = true)
    (hbc : inOrder columns b c = true) : inOrder columns a c = true := by
  rw [inOrder_eq] at *
  exact Std.TransCmp.isLE_trans hab hbc

theorem inOrder_total (columns : List String) (a b : Row) :
    (inOrder columns a b || inOrder columns b a) = true := by
  have hswap : compareBy columns b a = (compareBy columns a b).swap := Std.OrientedCmp.eq_swap
  rw [inOrder_eq, inOrder_eq, hswap]
  cases compareBy columns a b <;> rfl

theorem compareBy_of_cells_eq {columns : List String} {a b : Row}
    (h : ∀ column ∈ columns, a.cell column = b.cell column) : compareBy columns a b = .eq := by
  induction columns with
  | nil => rfl
  | cons column rest ih =>
      rw [compareBy, h column List.mem_cons_self, ih fun other hother =>
        h other (List.mem_cons_of_mem _ hother)]
      exact congrArg (·.then .eq) (Std.ReflCmp.compare_self : Cell.compare .binary _ _ = .eq)

end Database

end Gazetteer
