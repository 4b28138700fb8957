import Mathlib
import Gazetteer.Proofs.Interchange.Record
/-!
What a row says of a resource, cell by cell: of two cells for one field the later one counts.
-/

namespace Gazetteer

theorem pairwise_splitCell (cell : String) : (splitCell cell).Pairwise (· < ·) := by
  rw [splitCell, distinctTexts, Dict.keys, List.pairwise_map]
  exact Dict.ascending _

theorem mem_splitCell {cell value : String} :
    value ∈ splitCell cell ↔ value ≠ "" ∧
      ∃ piece ∈ Text.pieces (· == '|') cell.toList, Text.trim (String.ofList piece) = value := by
  rw [splitCell, mem_distinctTexts, List.mem_filter, List.mem_map, and_comm]
  simp

theorem splitCell_empty : splitCell "" = [] := by
  decide +kernel

namespace FieldCells

/-- Whether a resource takes what stands under a field: the name is well formed, and neither that
of the id nor that of the references. -/
def isTaken (field : String) : Bool :=
  wellFormedName field && !Text.sameLetters field "id" && field != referencesField

def scalar? (cell : String × String) : Option (String × String) :=
  let text := Text.trim cell.2
  if isTaken cell.1 && Schema.isScalar .aardvark cell.1 && !text.isEmpty then some (cell.1, text)
  else none

def values? (cell : String × String) : Option (String × List String) :=
  let values := splitCell (Text.trim cell.2)
  if isTaken cell.1 && !Schema.isScalar .aardvark cell.1 && !values.isEmpty then
    some (cell.1, values)
  else none

theorem fst_of_scalar? {cell : String × String} {entry : String × String}
    (h : scalar? cell = some entry) : entry.1 = cell.1 := by
  rw [scalar?, Option.ite_none_right_eq_some, Option.some_inj] at h
  exact h.2 ▸ rfl

theorem fst_of_values? {cell : String × String} {entry : String × List String}
    (h : values? cell = some entry) : entry.1 = cell.1 := by
  rw [values?, Option.ite_none_right_eq_some, Option.some_inj] at h
  exact h.2 ▸ rfl

def references? (config : Config) (cell : String × String) : Option (List Distribution) :=
  let text := Text.trim cell.2
  if cell.1 == referencesField && !text.isEmpty then
    (References.read config (.text text)).toOption
  else none

def described (cells : FieldCells) (id : String) : Resource :=
  { Resource.ofId id with
    scalars := .ofList (cells.filterMap scalar?)
    repeatables := .ofList (cells.filterMap values?) }

/-- The distributions of the last cell of references that can be read. -/
def references (config : Config) (cells : FieldCells) : List Distribution :=
  ((cells.filterMap (references? config)).getLast?).getD []

variable {config : Config} {cells : FieldCells}

private def putCell (r : Resource) (cell : String × String) : Resource :=
  { r with
    scalars := (scalar? cell).elim r.scalars fun entry => r.scalars.insert entry.1 entry.2
    repeatables :=
      (values? cell).elim r.repeatables fun entry => r.repeatables.insert entry.1 entry.2 }

private theorem sameLetters_referencesField : Text.sameLetters referencesField "id" = false := by
  decide

private theorem setFields_cons (r : Resource) (ds : List Distribution) (cell : String × String)
    (rest : FieldCells) :
    setFields .aardvark config r ds (cell :: rest) =
      setFields .aardvark config (putCell r cell) ((references? config cell).getD ds) rest := by
  obtain ⟨field, value⟩ := cell
  rw [setFields, putCell, scalar?, values?, references?, isTaken]
  by_cases hempty : (Text.trim value).isEmpty = true
  · have hnone : Text.trim value = "" := by simpa using hempty
    simp [hnone, splitCell_empty]
  rw [Bool.not_eq_true] at hempty
  cases hid : Text.sameLetters field "id" with
  | true =>
      have hother : (field == referencesField) = false := by
        refine beq_false_of_ne fun heq => ?_
        rw [heq, sameLetters_referencesField] at hid
        exact Bool.false_ne_true hid
      simp [hempty, hother]
  | false =>
      cases hreferences : field == referencesField with
      | true =>
          rw [beq_iff_eq] at hreferences
          cases References.read config (.text (Text.trim value)) <;>
            simp [hempty, hreferences, Except.toOption]
      | false =>
          have hne : field ≠ referencesField := by simpa using hreferences
          rw [setField]
          cases wellFormedName field with
          | false => simp [hempty]
          | true =>
              cases Schema.isScalar .aardvark field with
              | true => simp [hempty, hne, Resource.setScalar]
              | false =>
                  cases splitCell (Text.trim value) <;> simp [hempty, hne, Resource.setValues]

private theorem setFields_eq (r : Resource) (ds : List Distribution) (cells : FieldCells) :
    setFields .aardvark config r ds cells =
      ({ r with
        scalars := (cells.filterMap scalar?).foldl (fun d entry => d.insert entry.1 entry.2)
          r.scalars
        repeatables := (cells.filterMap values?).foldl (fun d entry => d.insert entry.1 entry.2)
          r.repeatables },
        ((cells.filterMap (references? config)).getLast?).getD ds) := by
  induction cells generalizing r ds with
  | nil => rfl
  | cons cell rest ih =>
      rw [setFields_cons, ih, putCell]
      simp only [List.filterMap_cons]
      cases scalar? cell <;> cases values? cell <;> cases references? config cell <;>
        simp [List.getLast?_cons]

/-- The resource of a row is the one that it describes, with the distributions of its references. -/
theorem resource?_eq (config : Config) (cells : FieldCells) :
    cells.resource? .aardvark config =
      (cells.cell? "id").map fun id => (cells.described id, cells.references config) := by
  rw [resource?]
  refine congrArg (fun make => (cells.cell? "id").map make) (funext fun id => ?_)
  rw [setFields_eq]
  rfl

example : resource? .aardvark default [("ID", " a"), ("dct_title_s", "T"),
    ("dct_subject_sm", "y| x|y"), ("dct_title_s", "U "), ("dct_subject_sm", "|")] =
      some ({ Resource.ofId "a" with
        scalars := .ofList [("dct_title_s", "U")]
        repeatables := .ofList [("dct_subject_sm", ["x", "y"])] }, []) := by
  decide +kernel

end FieldCells

end Gazetteer
