import Mathlib
import Gazetteer.Proofs.Query.Bucket
import Gazetteer.Proofs.Query.Meaning
import Gazetteer.Proofs.Text.Lowercase
/-!
The order that a request asks for, told of the values of resources alone: that of its sort wishes,
then that of titles, then that of ids.
-/

namespace Gazetteer

/-! Keys in a direction -/

namespace Direction

/-- The order of keys in a direction.  A missing key comes last in either. -/
def order {α : Type} (d : Direction) (cmp : α → α → Ordering) : Option α → Option α → Ordering
  | none, none => .eq
  | none, some _ => .gt
  | some _, none => .lt
  | some a, some b =>
      match d with
      | .ascending => cmp a b
      | .descending => cmp b a

/-- The value that counts among several: the least one or the greatest one. -/
def best? {α : Type} [Min α] [Max α] (d : Direction) (values : List α) : Option α :=
  match d with
  | .ascending => values.min?
  | .descending => values.max?

theorem best?_toList {α : Type} [Min α] [Max α] (d : Direction) (value : Option α) :
    d.best? value.toList = value := by
  cases d <;> cases value <;> rfl

variable {α β : Type} {cmp : α → α → Ordering}

theorem order_map (d : Direction) (f : β → α) (a b : Option β) :
    d.order cmp (a.map f) (b.map f) = d.order (fun x y => cmp (f x) (f y)) a b := by
  cases a <;> cases b <;> rfl

private theorem transCmp_directed (cmp : α → α → Ordering) [Std.TransCmp cmp] (d : Direction) :
    Std.TransCmp fun a b => d.order cmp (some a) (some b) := by
  cases d with
  | ascending => exact (inferInstance : Std.TransCmp cmp)
  | descending =>
      change Std.TransCmp fun a b => cmp b a
      exact Std.TransCmp.opposite

instance [Std.TransCmp cmp] (d : Direction) : Std.TransCmp (d.order cmp) where
  eq_swap := by
    have hdirected := transCmp_directed cmp d
    intro a b
    cases a with
    | none => cases b <;> rfl
    | some a =>
        cases b with
        | none => rfl
        | some b => exact hdirected.eq_swap
  isLE_trans := by
    have hdirected := transCmp_directed cmp d
    intro a b c hab hbc
    cases c with
    | none => cases a <;> rfl
    | some c =>
        cases b with
        | none => exact absurd hbc Bool.false_ne_true
        | some b =>
            cases a with
            | none => exact absurd hab Bool.false_ne_true
            | some a => exact hdirected.isLE_trans hab hbc

end Direction

/-! Keys of resources -/

namespace Text

/-- What is compared of a text: its letters without their case, up to a NUL. -/
def comparedPart (s : String) : String :=
  fold (.ofList (upToNul s.toList))

/-- Texts compared without regard to the case of A to Z.  Where the compared parts are equal, the
shorter text comes first. -/
def compareLetters (a b : String) : Ordering :=
  (compare (comparedPart a) (comparedPart b)).then (compare a.utf8ByteSize b.utf8ByteSize)

private theorem compareLetters_eq : compareLetters =
    compareLex (fun a b => compare (comparedPart a) (comparedPart b))
      (fun a b => compare a.utf8ByteSize b.utf8ByteSize) := rfl

instance : Std.TransCmp compareLetters := by
  have hparts := transCmp_on comparedPart compare
  have hlengths := transCmp_on String.utf8ByteSize compare
  rw [compareLetters_eq]
  infer_instance

private theorem utf8Size_toLower (c : Char) : c.toLower.utf8Size = c.utf8Size := by
  by_cases h : c.val ≥ 'A'.val ∧ c.val ≤ 'Z'.val
  · have hle : c.toNat ≤ 90 := h.2
    have hlower : c.toLower.toNat ≤ 127 := by
      rw [toNat_toLower_of_capital h]
      omega
    have hcapital : c.toNat ≤ 127 := by omega
    rw [Char.utf8Size_eq_one_iff.mpr hlower, Char.utf8Size_eq_one_iff.mpr hcapital]
  · rw [show c.toLower = c from dif_neg h]

theorem utf8ByteSize_fold (s : String) : (fold s).utf8ByteSize = s.utf8ByteSize := by
  rw [fold, String.utf8ByteSize_ofList, ← String.utf8Len_toList]
  induction s.toList with
  | nil => rfl
  | cons c cs ih =>
      rw [List.map_cons, String.utf8Len_cons, String.utf8Len_cons, ih, utf8Size_toLower]

private theorem comparedPart_of_nulFree {s : String} (h : ∀ c ∈ s.toList, c.toNat ≠ 0) :
    comparedPart s = fold s := by
  rw [comparedPart, upToNul_eq_self h, String.ofList_toList]

/-- Without NULs, texts stand as their lowercase forms do. -/
theorem compareLetters_of_nulFree {a b : String} (ha : ∀ c ∈ a.toList, c.toNat ≠ 0)
    (hb : ∀ c ∈ b.toList, c.toNat ≠ 0) : compareLetters a b = compare (fold a) (fold b) := by
  rw [compareLetters, comparedPart_of_nulFree ha, comparedPart_of_nulFree hb]
  cases hcompare : compare (fold a) (fold b) with
  | lt => rfl
  | gt => rfl
  | eq =>
      have hsize := congrArg String.utf8ByteSize (Std.LawfulEqCmp.eq_of_compare hcompare)
      rw [utf8ByteSize_fold, utf8ByteSize_fold] at hsize
      rw [hsize, Ordering.eq_then, Std.compare_self]

/-- The exact value of the number that a text stands for, in units of the smallest double. -/
def exactNumber? (s : String) : Option Int :=
  (Cell.text s).number?.map Number.scaled

end Text

namespace Resource

def texts (r : Resource) (field : String) : List String :=
  if Schema.isScalar .aardvark field then (r.value? field).toList else r.values field

/-- How much of a box and the envelope of a resource is common to both, as an exact value in units
of the smallest double.  It counts as −1 where an envelope, a finite box or a number is missing. -/
def overlap (r : Resource) (box : Envelope) : Int :=
  let shared : Option Float :=
    if Number.isFinite box.minX && Number.isFinite box.minY && Number.isFinite box.maxX &&
        Number.isFinite box.maxY then
      r.geometry.map fun e => Box.overlap e box
    else none
  ((shared.filter fun x => !x.isNaN).map Number.scaled).getD (-(2 ^ 1074))

end Resource

/-! Orders of resources -/

namespace SortSpec

/-- The order of a sort wish.  Relevance ranks by the overlap with the box of the request, whatever
the direction. -/
def order (w : SortSpec) (box : Option Envelope) (a b : Resource) : Ordering :=
  if w.field = relevance then
    match box with
    | some box => compare (b.overlap box) (a.overlap box)
    | none => .eq
  else if Schema.isNumeric .aardvark w.field then
    let key (r : Resource) : Option Int :=
      w.direction.best? ((r.texts w.field).filterMap Text.exactNumber?)
    w.direction.order compare (key a) (key b)
  else
    let key (r : Resource) : Option String := w.direction.best? (r.texts w.field)
    w.direction.order Text.compareLetters (key a) (key b)

instance (w : SortSpec) (box : Option Envelope) : Std.TransCmp (w.order box) := by
  unfold order
  split
  · cases box with
    | none => exact { eq_swap := rfl, isLE_trans := fun _ _ => rfl }
    | some box =>
        have hoverlap := transCmp_on (fun r : Resource => r.overlap box) compare
        exact Std.TransCmp.opposite
  · split
    · exact transCmp_on _ (w.direction.order compare)
    · exact transCmp_on _ (w.direction.order Text.compareLetters)

end SortSpec

def lexicographic {α : Type} : List (α → α → Ordering) → α → α → Ordering
  | [] => fun _ _ => .eq
  | cmp :: rest => compareLex cmp (lexicographic rest)

theorem transCmp_lexicographic {α : Type} {orders : List (α → α → Ordering)}
    (h : ∀ cmp ∈ orders, Std.TransCmp cmp) : Std.TransCmp (lexicographic orders) := by
  induction orders with
  | nil => exact { eq_swap := rfl, isLE_trans := fun _ _ => rfl }
  | cons cmp rest ih =>
      have hcmp := h cmp List.mem_cons_self
      have hrest := ih fun other hother => h other (List.mem_cons_of_mem _ hother)
      exact (inferInstance : Std.TransCmp (compareLex cmp (lexicographic rest)))

namespace Resource

def titleOrder (a b : Resource) : Ordering :=
  Direction.ascending.order Text.compareLetters a.title? b.title?

def idOrder (a b : Resource) : Ordering :=
  compare a.id b.id

end Resource

namespace Request

/-- The sort wishes of a request, which asks for relevance if it does not say. -/
def wishes (q : Request) : List SortSpec :=
  if q.sorts.isEmpty then [⟨relevance, .descending⟩] else q.sorts

def orders (q : Request) : List (Resource → Resource → Ordering) :=
  q.wishes.map (fun w => w.order q.box) ++ [Resource.titleOrder, Resource.idOrder]

def order (q : Request) : Resource → Resource → Ordering :=
  lexicographic q.orders

/-- Whether one resource stands before another in the answer to a request. -/
def Ranks (q : Request) (a b : Resource) : Prop :=
  q.order a b = .lt

instance (q : Request) : Std.TransCmp q.order := by
  apply transCmp_lexicographic
  refine List.forall_mem_append.mpr ⟨List.forall_mem_map.mpr fun w _ => inferInstance, ?_⟩
  refine List.forall_mem_cons.mpr ⟨?_, List.forall_mem_singleton.mpr ?_⟩
  · exact transCmp_on Resource.title? (Direction.ascending.order Text.compareLetters)
  · exact transCmp_on Resource.id compare

end Request

end Gazetteer
