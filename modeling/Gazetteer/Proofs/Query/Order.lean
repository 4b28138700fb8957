import Mathlib
import Gazetteer.Proofs.Query.Ranking
import Gazetteer.Proofs.Query.Search
/-!
The order of search results.  The keys of a request put the rows of a ledger in the order that the
request asks for of the resources read from them.
-/

namespace Gazetteer

/-! Cells as keys -/

namespace Cell

theorem compare_texts (a b : String) :
    compare .binary (text a) (text b) = Ord.compare a b := by
  cases hcompare : Ord.compare a b with
  | lt => exact compare_text.mpr (compare_lt_iff_lt.mp hcompare)
  | eq => exact compare_text_eq.mpr (Std.LawfulEqCmp.eq_of_compare hcompare)
  | gt =>
      have hswap : compare .binary (text a) (text b) = (compare .binary (text b) (text a)).swap :=
        Std.OrientedCmp.eq_swap
      rw [hswap, compare_text.mpr (compare_gt_iff_gt.mp hcompare)]
      rfl

theorem compare_letters (a b : String) :
    compare .noCase (text a) (text b) = Text.compareLetters a b := by
  have hunits (s : String) : noCaseUnits s = (Text.comparedPart s).toList.map Char.toNat := by
    simp [noCaseUnits, Text.comparedPart, Text.fold, Text.upToNul, Function.comp_def]
  have hparts := compare_texts (Text.comparedPart a) (Text.comparedPart b)
  simp only [compare, rank, Rank.compare, compareLex, compareOn, Std.compare_self,
    Ordering.eq_then, Ordering.then_eq, ← hunits] at hparts ⊢
  rw [hparts, Text.compareLetters]

/-- A cell picked from many by comparing each with the one picked so far. -/
private theorem foldl_pick {α κ : Type} (f : α → Cell) (g : α → κ) (before : Cell → Cell → Bool)
    (op : κ → κ → κ) (hpick : ∀ b c, g (if before (f c) (f b) then c else b) = op (g b) (g c))
    (values : List α) (start : α) :
    ∃ last, (values.map f).foldl (fun best c =>
        match best with
        | none => some c
        | some b => if before c b then some c else some b) (some (f start)) = some (f last) ∧
      g last = (values.map g).foldl op (g start) := by
  induction values generalizing start with
  | nil => exact ⟨start, rfl, rfl⟩
  | cons value rest ih =>
      obtain ⟨last, hlast, hkey⟩ := ih (if before (f value) (f start) then value else start)
      refine ⟨last, ?_, ?_⟩
      · rw [← hlast, List.map_cons, List.foldl_cons]
        simp only
        split <;> rfl
      · rw [hkey, hpick]
        rfl

def chosen? (d : Direction) (cells : List Cell) : Option Cell :=
  match d with
  | .ascending => minimum? cells
  | .descending => maximum? cells

/-- Cells that stand as keys do are chosen as these are. -/
theorem chosen?_map {α κ : Type} [LinearOrder κ] (f : α → Cell) (g : α → κ)
    (hlt : ∀ x y, compare .binary (f x) (f y) = .lt ↔ g x < g y) (d : Direction)
    (values : List α) :
    ∃ best : Option α, chosen? d (values.map f) = best.map f ∧
      best.map g = d.best? (values.map g) := by
  cases values with
  | nil => exact ⟨none, by cases d <;> rfl, by cases d <;> rfl⟩
  | cons value rest =>
      cases d with
      | ascending =>
          have hpick (b c : α) :
              g (if compare .binary (f c) (f b) == .lt then c else b) = min (g b) (g c) := by
            simp only [beq_iff_eq, hlt]
            split
            next h => exact (min_eq_right h.le).symm
            next h => exact (min_eq_left (not_lt.mp h)).symm
          obtain ⟨last, hlast, hkey⟩ :=
            foldl_pick f g (fun c b => compare .binary c b == .lt) min hpick rest value
          exact ⟨some last, hlast, congrArg some hkey⟩
      | descending =>
          have hpick (b c : α) :
              g (if compare .binary (f b) (f c) == .lt then c else b) = max (g b) (g c) := by
            simp only [beq_iff_eq, hlt]
            split
            next h => exact (max_eq_right h.le).symm
            next h => exact (max_eq_left (not_lt.mp h)).symm
          obtain ⟨last, hlast, hkey⟩ :=
            foldl_pick f g (fun c b => compare .binary b c == .lt) max hpick rest value
          exact ⟨some last, hlast, congrArg some hkey⟩

end Cell

namespace SortKey

theorem compareValues_map {α : Type} (f : α → Cell) (hf : ∀ x, (f x).isNull = false)
    (numeric : Bool) (d : Direction) (a b : Option α) :
    compareValues numeric d ((a.map f).getD .null) ((b.map f).getD .null) =
      d.order (fun x y => Cell.compare (if numeric then .binary else .noCase) (f x) (f y)) a b := by
  have hnull : Cell.isNull .null = true := rfl
  cases a with
  | none => cases b <;> simp [compareValues, Direction.order, hf, hnull]
  | some x =>
      cases b with
      | none => simp [compareValues, Direction.order, hf, hnull]
      | some y =>
          simp only [compareValues, Option.map_some, Option.getD_some, hf]
          rfl

theorem compareValues_texts (d : Direction) (a b : Option String) :
    compareValues false d ((a.map Cell.text).getD .null) ((b.map Cell.text).getD .null) =
      d.order Text.compareLetters a b := by
  rw [compareValues_map Cell.text (fun _ => rfl)]
  simp only [Bool.false_eq_true, if_false, Cell.compare_letters]

theorem compareValues_reals (d : Direction) (a b : Option Float) :
    compareValues true d ((a.map Cell.real).getD .null) ((b.map Cell.real).getD .null) =
      d.order Ord.compare (a.map Number.scaled) (b.map Number.scaled) := by
  rw [compareValues_map Cell.real (fun _ => rfl), Direction.order_map]
  simp only [if_true, Cell.compare_real]

end SortKey

/-! The keys of a row -/

namespace SortSpec

def fieldKey (w : SortSpec) : SortKey :=
  if Schema.isScalar .aardvark w.field then
    .scalar w.field (Schema.isNumeric .aardvark w.field) w.direction
  else .best w.field (Schema.isNumeric .aardvark w.field) w.direction

end SortSpec

/-- How a text is made a key: what is kept of it, the cell of that, and the place of the cell. -/
structure Keyed {α κ : Type} [LinearOrder κ] (numeric : Bool) (read : String → Option α)
    (cell : α → Cell) (place : α → κ) : Prop where
  keyCell : ∀ v, SortKey.keyCell numeric (.text v) = ((read v).map cell).getD .null
  isNull : ∀ x, (cell x).isNull = false
  compare : ∀ x y, Cell.compare .binary (cell x) (cell y) = .lt ↔ place x < place y

theorem Keyed.cells {α κ : Type} [LinearOrder κ] {numeric : Bool} {read : String → Option α}
    {cell : α → Cell} {place : α → κ} (h : Keyed numeric read cell place) (values : List String) :
    ((values.map Cell.text).map (SortKey.keyCell numeric)).filter (fun c => !c.isNull) =
      (values.filterMap read).map cell := by
  induction values with
  | nil => rfl
  | cons v rest ih =>
      rw [List.map_cons, List.map_cons, List.filter_cons, h.keyCell, ih, List.filterMap_cons]
      cases hread : read v with
      | none => rfl
      | some x => simp [h.isNull]

theorem keyed_texts : Keyed false some Cell.text id where
  keyCell _ := rfl
  isNull _ := rfl
  compare _ _ := Cell.compare_text

theorem keyed_numbers : Keyed true (fun v => (Cell.text v).number?) Cell.real Number.scaled where
  keyCell v := by
    rw [SortKey.keyCell, if_pos rfl]
    cases hnumber : (Cell.text v).number? with
    | none => rfl
    | some x => exact Cell.ofFloat?_of_isFinite (Cell.isFinite_of_number?_text hnumber)
  isNull _ := rfl
  compare _ _ := by rw [Cell.compare_real, Int.compare_eq_lt]

/-! Overlaps -/

namespace Envelope

/-- The overlap of an envelope, if there is one, with a box of cells. -/
theorem overlapOfEdges_box (found : Option Envelope) (box : Envelope) :
    overlapOfEdges
        (found.map Box.minX, found.map Box.minY, found.map Box.maxX, found.map Box.maxY)
        (Cell.edges (.real box.minX, .real box.minY, .real box.maxX, .real box.maxY)) =
      if Number.isFinite box.minX && Number.isFinite box.minY && Number.isFinite box.maxX &&
          Number.isFinite box.maxY then
        found.map fun e => Box.overlap e box
      else none := by
  have hnumber (x : Float) :
      (Cell.real x).number? = if Number.isFinite x then some x else none := rfl
  cases found with
  | none => simp [overlapOfEdges]
  | some e =>
      simp only [Cell.edges, hnumber]
      cases Number.isFinite box.minX <;> cases Number.isFinite box.minY <;>
        cases Number.isFinite box.maxX <;> cases Number.isFinite box.maxY <;> rfl

end Envelope

/-- What is no number, or missing, counts as −1. -/
theorem Cell.rank_ofFloat? (found : Option Float) :
    (if (Cell.ofFloat? found).isNull then .int (-1) else Cell.ofFloat? found).rank .binary =
      ⟨1, ((found.filter fun x => !x.isNaN).map Number.scaled).getD (-(2 ^ 1074)), [], 0⟩ := by
  have hnone : (Cell.int (-1)).rank .binary = ⟨1, -(2 ^ 1074), [], 0⟩ := by
    rw [rank, neg_one_mul]
  cases found with
  | none => exact hnone
  | some x =>
      cases hx : x.isNaN with
      | true =>
          rw [Cell.ofFloat?_of_isNaN hx, Option.filter_some, hx]
          exact hnone
      | false =>
          rw [Cell.ofFloat?_of_number hx, Option.filter_some, hx]
          rfl

namespace Resource

variable {r : Resource}

theorem isFinite_of_envelope? {e : Envelope} (he : r.envelope? = some e) : e.IsFinite := by
  obtain ⟨parsed, hparsed, rfl⟩ := Option.map_eq_some_iff.mp he
  obtain ⟨text, -, htext⟩ := Option.bind_eq_some_iff.mp hparsed
  exact (Envelope.isFinite_of_parse? htext).stored

theorem edges_scalarRow (hr : Schema.Accepts .aardvark r) :
    Cell.edges (r.scalarRow.cell "geom_minx", r.scalarRow.cell "geom_miny",
        r.scalarRow.cell "geom_maxx", r.scalarRow.cell "geom_maxy") =
      (r.envelope?.map Box.minX, r.envelope?.map Box.minY, r.envelope?.map Box.maxX,
        r.envelope?.map Box.maxY) := by
  rw [scalarRow_geometry hr (show "geom_minx" ∈ Layout.geometryColumns by decide),
    scalarRow_geometry hr (show "geom_miny" ∈ Layout.geometryColumns by decide),
    scalarRow_geometry hr (show "geom_maxx" ∈ Layout.geometryColumns by decide),
    scalarRow_geometry hr (show "geom_maxy" ∈ Layout.geometryColumns by decide)]
  cases he : r.envelope? with
  | none => rfl
  | some e =>
      have hfinite := isFinite_of_envelope? he
      have hnumber {x : Float} (hx : Number.isFinite x = true) : (Cell.real x).number? = some x :=
        if_pos hx
      change ((Cell.real e.minX).number?, (Cell.real e.minY).number?, (Cell.real e.maxX).number?,
        (Cell.real e.maxY).number?) = _
      rw [hnumber hfinite.minX, hnumber hfinite.minY, hnumber hfinite.maxX, hnumber hfinite.maxY]
      rfl

end Resource

namespace Ledger

variable {L : Ledger} {r a b : Resource}

/-- The key of a resource is that of its best value. -/
theorem value_fieldKey (h : L.Sound) (hr : r ∈ L.resources) {w : SortSpec} {α κ : Type}
    [LinearOrder κ] {read : String → Option α} {cell : α → Cell} {place : α → κ}
    (hkeyed : Keyed (Schema.isNumeric .aardvark w.field) read cell place) :
    ∃ best : Option α, w.fieldKey.value L.database r.scalarRow = (best.map cell).getD .null ∧
      best.map place = w.direction.best?
        (((L.record r).texts w.field).filterMap fun v => (read v).map place) := by
  rw [SortSpec.fieldKey, Resource.texts]
  split
  next hscalar =>
    refine ⟨(r.value? w.field).bind read, ?_, ?_⟩
    · change SortKey.keyCell _ (r.scalarRow.cell w.field) = _
      rw [Resource.scalarRow_value (h.accepted r hr) hscalar]
      cases r.value? w.field with
      | none => cases Schema.isNumeric .aardvark w.field <;> rfl
      | some v => exact hkeyed.keyCell v
    · have hvalue : (L.record r).value? w.field = r.value? w.field := rfl
      rw [hvalue]
      cases r.value? w.field with
      | none => exact (w.direction.best?_toList none).symm
      | some v =>
          rw [← w.direction.best?_toList (Option.map place _)]
          cases hread : read v <;> simp [hread]
  next =>
    -- of several values the one chosen is compared, as a cell and as a key
    let values := (L.record r).values w.field
    have hcells : ((Test.fieldCells L.database w.field r.scalarRow).map
        (SortKey.keyCell (Schema.isNumeric .aardvark w.field))).filter (fun c => !c.isNull) =
          (values.filterMap read).map cell := by
      rw [fieldCells_database h hr, hkeyed.cells]
    obtain ⟨best, hchosen, hbest⟩ :=
      Cell.chosen?_map cell place hkeyed.compare w.direction (values.filterMap read)
    refine ⟨best, ?_, ?_⟩
    · have hvalue : (SortKey.best w.field (Schema.isNumeric .aardvark w.field)
          w.direction).value L.database r.scalarRow =
            (Cell.chosen? w.direction ((values.filterMap read).map cell)).getD .null := by
        rw [← hcells]
        cases w.direction <;> rfl
      rw [hvalue, hchosen]
    · rw [hbest, List.map_filterMap]

theorem compare_fieldKey (h : L.Sound) (ha : a ∈ L.resources) (hb : b ∈ L.resources)
    {w : SortSpec} (hw : w.field ≠ relevance) (box : Option Envelope) :
    w.fieldKey.compare L.database a.scalarRow b.scalarRow =
      w.order box (L.record a) (L.record b) := by
  have hcompare : w.fieldKey.compare L.database a.scalarRow b.scalarRow =
      SortKey.compareValues (Schema.isNumeric .aardvark w.field) w.direction
        (w.fieldKey.value L.database a.scalarRow) (w.fieldKey.value L.database b.scalarRow) := by
    rw [SortSpec.fieldKey]
    split <;> rfl
  unfold SortSpec.order
  rw [hcompare, if_neg hw]
  cases hnumeric : Schema.isNumeric .aardvark w.field with
  | true =>
      obtain ⟨x, hx, hxKey⟩ := value_fieldKey h ha (hnumeric.symm ▸ keyed_numbers)
      obtain ⟨y, hy, hyKey⟩ := value_fieldKey h hb (hnumeric.symm ▸ keyed_numbers)
      rw [hx, hy, SortKey.compareValues_reals, hxKey, hyKey]
      rfl
  | false =>
      obtain ⟨x, hx, hxKey⟩ := value_fieldKey h ha (hnumeric.symm ▸ keyed_texts)
      obtain ⟨y, hy, hyKey⟩ := value_fieldKey h hb (hnumeric.symm ▸ keyed_texts)
      simp only [Option.map_id, id_eq, Option.map_some, List.filterMap_some] at hxKey hyKey
      rw [hx, hy, SortKey.compareValues_texts, hxKey, hyKey]
      rfl

theorem rank_overlap (h : L.Sound) (hr : r ∈ L.resources) (box : Envelope) :
    ((SortKey.overlap box).value L.database r.scalarRow).rank .binary =
      ⟨1, (L.record r).overlap box, [], 0⟩ := by
  have hedges := Resource.edges_scalarRow (h.accepted r hr)
  change Cell.rank .binary (if (Cell.overlap _ _).isNull then .int (-1) else Cell.overlap _ _) = _
  rw [Cell.overlap, hedges, Envelope.overlapOfEdges_box, Cell.rank_ofFloat?]
  rfl

theorem compare_overlap (h : L.Sound) (ha : a ∈ L.resources) (hb : b ∈ L.resources)
    (box : Envelope) : (SortKey.overlap box).compare L.database a.scalarRow b.scalarRow =
      compare ((L.record b).overlap box) ((L.record a).overlap box) := by
  change Rank.compare _ _ = _
  rw [rank_overlap h ha, rank_overlap h hb]
  simp [Rank.compare, compareLex, compareOn]

end Ledger

/-! The keys of a request -/

/-- A wish for relevance, or for the order of a declared field. -/
def SortSpec.IsKnown (w : SortSpec) : Prop :=
  w.field = relevance ∨ (Schema.field? .aardvark w.field).isSome

structure Request.WellNamed (q : Request) : Prop where
  sorts : ∀ w ∈ q.sorts, w.IsKnown
  filters : ∀ field condition, q.filters.get? field = some condition → checkName field = .ok ()
  facets : Database.checkNames (q.facets.map FacetSpec.field) = .ok ()

namespace Request

private theorem checkName_of_field? {name : String} {f : Field}
    (hf : Schema.field? .aardvark name = some f) : checkName name = .ok () := by
  have hall : (Schema.aardvark.fields.reverse.all fun f => wellFormedName f.name) = true := by
    decide
  have hname : f.name = name := by simpa using List.find?_some hf
  have hformed := List.all_eq_true.mp hall f (List.mem_of_find?_eq_some hf)
  rw [hname] at hformed
  exact if_pos hformed

theorem sortKey_of_isKnown {w : SortSpec} (hw : w.IsKnown) (box : Option Envelope) :
    sortKey .aardvark box w =
      .ok (if w.field = relevance then box.map .overlap else some w.fieldKey) := by
  rw [sortKey]
  by_cases hrelevance : w.field = relevance
  · simp [hrelevance]
  · obtain ⟨f, hf⟩ := Option.isSome_iff_exists.mp (hw.resolve_left hrelevance)
    simp only [beq_false_of_ne hrelevance, Bool.false_eq_true, if_false, checkName_of_field? hf, hf,
      hrelevance, SortSpec.fieldKey, Schema.isScalar, Schema.isNumeric]
    split <;> rfl

end Request

namespace Ledger

variable {L : Ledger} {a b : Resource}

/-- The key of a wish, if it has one, compares rows as the wish does resources. -/
theorem compare_sortKey (h : L.Sound) (ha : a ∈ L.resources) (hb : b ∈ L.resources) (w : SortSpec)
    (box : Option Envelope) :
    SortKeys.compare L.database a.scalarRow b.scalarRow
        (if w.field = relevance then box.map SortKey.overlap else some w.fieldKey).toList =
      w.order box (L.record a) (L.record b) := by
  have hsingle (k : SortKey) : SortKeys.compare L.database a.scalarRow b.scalarRow [k] =
      k.compare L.database a.scalarRow b.scalarRow := Ordering.then_eq
  split
  next hrelevance =>
    unfold SortSpec.order
    rw [if_pos hrelevance]
    cases box with
    | none => rfl
    | some box => exact (hsingle _).trans (compare_overlap h ha hb box)
  next hrelevance => exact (hsingle _).trans (compare_fieldKey h ha hb hrelevance box)

theorem compare_append (db : Database) (a b : Row) (first second : SortKeys) :
    SortKeys.compare db a b (first ++ second) =
      (SortKeys.compare db a b first).then (SortKeys.compare db a b second) := by
  induction first with
  | nil => rfl
  | cons k rest ih => rw [List.cons_append, SortKeys.compare, ih, SortKeys.compare,
      Ordering.then_assoc]

theorem compare_closing (h : L.Sound) (ha : a ∈ L.resources) (hb : b ∈ L.resources) :
    SortKeys.compare L.database a.scalarRow b.scalarRow SortKeys.closing =
      lexicographic [Resource.titleOrder, Resource.idOrder] (L.record a) (L.record b) := by
  have hcell {r : Resource} (hr : r ∈ L.resources) :
      r.scalarRow.cell titleField = ((L.record r).title?.map Cell.text).getD .null :=
    Resource.scalarRow_scalar (h.accepted r hr)
      (show Schema.isScalar .aardvark titleField = true by decide) (by decide)
  have htitle : (SortKey.scalar titleField false .ascending).compare L.database a.scalarRow
      b.scalarRow = Resource.titleOrder (L.record a) (L.record b) := by
    change SortKey.compareValues false .ascending (a.scalarRow.cell titleField)
      (b.scalarRow.cell titleField) = _
    rw [hcell ha, hcell hb, SortKey.compareValues_texts]
    rfl
  have hid : SortKey.id.compare L.database a.scalarRow b.scalarRow =
      Resource.idOrder (L.record a) (L.record b) := by
    change Cell.compare .binary (a.scalarRow.cell "id") (b.scalarRow.cell "id") = _
    rw [Resource.scalarRow_id, Resource.scalarRow_id, Cell.compare_texts]
    rfl
  simp only [SortKeys.closing, SortKeys.compare, htitle, hid]
  rfl

theorem exists_sortKeysOf (h : L.Sound) (box : Option Envelope) {wishes : List SortSpec}
    (hwishes : ∀ w ∈ wishes, w.IsKnown) :
    ∃ keys, Request.sortKeysOf .aardvark box wishes = .ok keys ∧
      ∀ a ∈ L.resources, ∀ b ∈ L.resources,
        SortKeys.compare L.database a.scalarRow b.scalarRow keys =
          lexicographic (wishes.map (fun w => w.order box) ++
            [Resource.titleOrder, Resource.idOrder]) (L.record a) (L.record b) := by
  induction wishes with
  | nil => exact ⟨_, rfl, fun a ha b hb => compare_closing h ha hb⟩
  | cons w rest ih =>
      obtain ⟨keys, hkeys, hcompare⟩ := ih fun other hother =>
        hwishes other (List.mem_cons_of_mem _ hother)
      rw [Request.sortKeysOf, Request.sortKey_of_isKnown (hwishes w List.mem_cons_self), hkeys]
      refine ⟨_, rfl, fun a ha b hb => ?_⟩
      rw [compare_append, compare_sortKey h ha hb, hcompare a ha b hb]
      rfl

theorem exists_sortKeys (h : L.Sound) {q : Request} (hq : q.WellNamed) :
    ∃ keys, q.sortKeys .aardvark = .ok keys ∧ ∀ a ∈ L.resources, ∀ b ∈ L.resources,
      SortKeys.compare L.database a.scalarRow b.scalarRow keys =
        q.order (L.record a) (L.record b) := by
  have hwishes : ∀ w ∈ q.wishes, w.IsKnown := by
    rw [Request.wishes]
    split
    · exact List.forall_mem_singleton.mpr (Or.inl rfl)
    · exact hq.sorts
  exact exists_sortKeysOf h q.box hwishes

theorem map_sorted (q : Request) {keys : SortKeys} {found : List Resource}
    (hkeys : ∀ a ∈ found, ∀ b ∈ found, SortKeys.compare L.database a.scalarRow b.scalarRow keys =
      q.order (L.record a) (L.record b)) :
    (L.sorted keys found).map L.record =
      (found.map L.record).mergeSort fun a b => q.order a b != .gt :=
  List.map_mergeSort fun a ha b hb => congrArg (· != .gt) (hkeys a ha b hb)

end Ledger

namespace Request

theorem id_eq_of_order_eq {q : Request} {a b : Resource} (h : q.order a b = .eq) :
    a.id = b.id := by
  have hlast (orders : List (Resource → Resource → Ordering))
      (hall : lexicographic (orders ++ [Resource.titleOrder, Resource.idOrder]) a b = .eq) :
      Resource.idOrder a b = .eq := by
    induction orders with
    | nil => exact (Ordering.then_eq_eq.mp (Ordering.then_eq_eq.mp hall).2).1
    | cons cmp rest ih => exact ih (Ordering.then_eq_eq.mp hall).2
  exact Std.LawfulEqCmp.eq_of_compare (hlast _ h)

theorem pairwise_ranks (q : Request) {found : List Resource}
    (hnodup : (found.map Resource.id).Nodup) :
    (found.mergeSort fun a b => q.order a b != .gt).Pairwise q.Ranks := by
  have hsorted := List.pairwise_mergeSort (ne_gt_trans q.order) (ne_gt_total q.order) found
  have hperm := List.mergeSort_perm found fun a b => q.order a b != .gt
  have hdistinct := List.pairwise_map.mp ((hperm.map Resource.id).nodup_iff.mpr hnodup)
  refine (hsorted.and hdistinct).imp fun {a b} ⟨hle, hne⟩ => ?_
  cases hcompare : q.order a b with
  | lt => exact hcompare
  | eq => exact absurd (id_eq_of_order_eq hcompare) hne
  | gt => exact absurd hcompare (bne_iff_ne.mp hle)

/-- Only one list of given members is in the order of a request. -/
theorem eq_of_ranks {q : Request} {first second : List Resource}
    (hmem : ∀ r, r ∈ first ↔ r ∈ second) (hfirst : first.Pairwise q.Ranks)
    (hsecond : second.Pairwise q.Ranks) : first = second :=
  eq_of_pairwise_asymm Std.OrientedCmp.not_lt_of_lt hmem hfirst hsecond

end Request

namespace Catalog

variable {c : Catalog} {L : Ledger} {q : Request}

theorem mem_results_iff (hc : c.database = some L.database) (h : L.Sound) {withGlobal : Bool}
    {p : Predicate} (hp : q.predicate .aardvark none withGlobal = .ok p) {r : Resource} :
    r ∈ (L.matching q p).map L.record ↔ c.get r.id = .ok r ∧
      ∃ content, L.database.StoresSearchText r.id content ∧ q.Matches r content := by
  have hread {a : Resource} (ha : a ∈ L.matching q p) : c.get a.id = .ok (L.record a) :=
    (get_eq_ok hc h).mpr ⟨a, (L.matching_sublist q p).subset ha, rfl, rfl⟩
  constructor
  · intro hr
    obtain ⟨a, ha, rfl⟩ := List.mem_map.mp hr
    obtain ⟨other, content, hother, hcontent, hmatch⟩ :=
      (mem_ids_iff hc h hp).mp (List.mem_map_of_mem ha)
    rw [hread ha] at hother
    cases hother
    exact ⟨hread ha, content, hcontent, hmatch⟩
  · rintro ⟨hget, content, hcontent, hmatch⟩
    obtain ⟨a, ha, hid⟩ :=
      List.mem_map.mp ((mem_ids_iff hc h hp).mpr ⟨r, content, hget, hcontent, hmatch⟩)
    have hsame := hread ha
    rw [hid, hget] at hsame
    cases hsame
    exact List.mem_map_of_mem ha

end Catalog

/-- A first page that is large enough lists the matching resources in the order that the request
asks for, which allows of one list only. -/
theorem Session.Reachable.search_ranks {s : Session} (h : s.Reachable) {q : Request}
    (hq : q.WellNamed) :
    ∃ db found, s.catalog.database = some db ∧ s.catalog.facetedSearch q = .ok found ∧
      ∀ size, found.total ≤ size → ∃ page : Response,
        s.catalog.facetedSearch { q with page := some ⟨size, 0⟩ } = .ok page ∧
          (∀ r, r ∈ page.results ↔ s.catalog.get r.id = .ok r ∧
            ∃ content, db.StoresSearchText r.id content ∧ q.Matches r content) ∧
          page.results.Pairwise q.Ranks ∧
          ∀ other : List Resource, (∀ r, r ∈ other ↔ r ∈ page.results) →
            other.Pairwise q.Ranks → other = page.results := by
  obtain ⟨L, hL, hc⟩ := h.ledger
  obtain ⟨keys, hkeys, hcompare⟩ := Ledger.exists_sortKeys hL hq
  obtain ⟨p, hp⟩ : ∃ p, q.predicate .aardvark none (L.hits q).isNone = .ok p :=
    Request.exists_predicate_iff.mpr fun field condition hget _ => hq.filters field condition hget
  have hanswer (page : Option Page) :
      s.catalog.facetedSearch { q with page } =
        .ok (L.response s.catalog.config { q with page } keys p) := by
    rw [Catalog.facetedSearch_database hc]
    exact (Ledger.facetedSearch_eq_ok hL).mpr ⟨hq.facets, keys, p, hkeys, hp, rfl⟩
  refine ⟨L.database, _, hc, hanswer q.page, fun size hsize => ⟨_, hanswer _, ?_⟩⟩
  have hmatching := L.matching_sublist q p
  have hlength : (L.sorted keys (L.matching q p)).length ≤ size :=
    (List.mergeSort_perm _ _).length_eq.trans_le hsize
  have hresults : ((Page.mk size 0).window (L.sorted keys (L.matching q p))).map L.record =
      ((L.matching q p).map L.record).mergeSort fun a b => q.order a b != .gt := by
    rw [Page.window_of_length_le hlength]
    exact Ledger.map_sorted q fun a ha b hb =>
      hcompare a (hmatching.subset ha) b (hmatching.subset hb)
  have hpairwise : (((L.matching q p).map L.record).mergeSort
      fun a b => q.order a b != .gt).Pairwise q.Ranks := by
    apply Request.pairwise_ranks
    rw [List.map_map]
    exact Ledger.nodup_ids hL hmatching
  rw [← hresults] at hpairwise
  refine ⟨fun r => ?_, hpairwise, fun other hmem hother =>
    Request.eq_of_ranks hmem hother hpairwise⟩
  rw [← Catalog.mem_results_iff hc hL hp]
  change r ∈ ((Page.mk size 0).window (L.sorted keys (L.matching q p))).map L.record ↔ _
  rw [hresults, List.mem_mergeSort]

theorem Session.search_ranks_afterUpsert :
    let s := afterUpsert (.ofId "a") []
    let q := (Request.everything.withSort titleField .descending).withFilter "id" (.anyOf ["a"])
    q.WellNamed ∧
      ∃ db found, s.catalog.database = some db ∧ s.catalog.facetedSearch q = .ok found ∧
        ∀ size, found.total ≤ size → ∃ page : Response,
          s.catalog.facetedSearch { q with page := some ⟨size, 0⟩ } = .ok page ∧
            (∀ r, r ∈ page.results ↔ s.catalog.get r.id = .ok r ∧
              ∃ content, db.StoresSearchText r.id content ∧ q.Matches r content) ∧
            page.results.Pairwise q.Ranks ∧
            ∀ other : List Resource, (∀ r, r ∈ other ↔ r ∈ page.results) →
              other.Pairwise q.Ranks → other = page.results := by
  intro s q
  have h : s.Reachable := reachable_afterUpsert (by decide) []
  have hq : q.WellNamed := by
    refine ⟨?_, ?_, rfl⟩
    · exact List.forall_mem_singleton.mpr (Or.inr (by decide))
    · intro field condition hget
      have hentry : (field, condition) ∈ q.filters.entries := Dict.mem_entries_iff.mpr hget
      cases List.mem_singleton.mp hentry
      decide
  exact ⟨hq, h.search_ranks hq⟩

end Gazetteer
