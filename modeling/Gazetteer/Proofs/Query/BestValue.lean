import Mathlib
import Gazetteer.Proofs.Query.Page
/-!
Sorting by a text field that has many values.  The value that counts is the best one by code
points, while resources are compared without regard to letter case.  Where the two orders agree on
what is best in a resource, nothing that stands before it has a worse best value.
-/

namespace Gazetteer

/-! Best values -/

namespace Direction

variable {cmp : String → String → Ordering} {d : Direction} {values : List String}
  {u v w : String}

/-- Whether a value stands before another in a direction, or ties with it. -/
def Leads (d : Direction) (cmp : String → String → Ordering) (v w : String) : Prop :=
  match d with
  | .ascending => cmp v w ≠ .gt
  | .descending => cmp w v ≠ .gt

def IsBest (d : Direction) (cmp : String → String → Ordering) (values : List String)
    (v : String) : Prop :=
  v ∈ values ∧ ∀ w ∈ values, d.Leads cmp v w

theorem leads_iff_order : d.Leads cmp v w ↔ d.order cmp (some v) (some w) ≠ .gt := by
  cases d <;> rfl

theorem Leads.trans [Std.TransCmp cmp] (huv : d.Leads cmp u v) (hvw : d.Leads cmp v w) :
    d.Leads cmp u w := by
  cases d with
  | ascending =>
      exact Ordering.ne_gt_iff_isLE.mpr (Std.TransCmp.isLE_trans
        (Ordering.ne_gt_iff_isLE.mp huv) (Ordering.ne_gt_iff_isLE.mp hvw))
  | descending =>
      exact Ordering.ne_gt_iff_isLE.mpr (Std.TransCmp.isLE_trans
        (Ordering.ne_gt_iff_isLE.mp hvw) (Ordering.ne_gt_iff_isLE.mp huv))

/-- The value that counts is the best one by code points. -/
theorem best?_eq_some_iff : d.best? values = some v ↔ d.IsBest compare values v := by
  cases d with
  | ascending =>
      rw [best?, List.min?_eq_some_iff, IsBest]
      simp only [Leads, compare_le_iff_le]
  | descending =>
      rw [best?, List.max?_eq_some_iff, IsBest]
      simp only [Leads, compare_le_iff_le]

theorem exists_isBest (h : values ≠ []) : ∃ v, d.IsBest compare values v := by
  have hsome : ∃ v, d.best? values = some v := by
    cases d with
    | ascending => exact Option.isSome_iff_exists.mp (List.isSome_min?_of_ne_nil h)
    | descending => exact Option.isSome_iff_exists.mp (List.isSome_max?_of_ne_nil h)
  obtain ⟨v, hv⟩ := hsome
  exact ⟨v, best?_eq_some_iff.mp hv⟩

end Direction

/-- Among texts without capitals and NULs the best one by code points is the best one without regard
to letter case. -/
theorem Direction.IsBest.compareLetters {values : List String} {d : Direction} {v : String}
    (h : d.IsBest compare values v)
    (hlower : ∀ w ∈ values, Text.fold w = w ∧ ∀ c ∈ w.toList, c.toNat ≠ 0) :
    d.IsBest Text.compareLetters values v := by
  have hcompare {u w : String} (hu : u ∈ values) (hw : w ∈ values) :
      Text.compareLetters u w = compare u w := by
    rw [Text.compareLetters_of_nulFree (hlower u hu).2 (hlower w hw).2, (hlower u hu).1,
      (hlower w hw).1]
  refine ⟨h.1, fun w hw => ?_⟩
  have hleads := h.2 w hw
  cases d with
  | ascending => rwa [Leads, hcompare h.1 hw]
  | descending => rwa [Leads, hcompare hw h.1]

/-! The first sort wish -/

namespace Request

variable {q : Request} {w : SortSpec} {f : Field} {a b : Resource}

theorem order_ne_gt_of_ranks {rest : List SortSpec} (hsorts : q.sorts = w :: rest)
    (h : q.Ranks a b) : w.order q.box a b ≠ .gt := by
  have hwishes : q.wishes = w :: rest := by
    rw [wishes, hsorts]
    rfl
  rw [Ranks, order, orders, hwishes] at h
  have hfirst : (w.order q.box a b).then (lexicographic _ a b) = .lt := h
  intro hgt
  rw [hgt] at hfirst
  cases hfirst

/-- By a field of many texts the best values by code points count, and they are compared without
regard to letter case. -/
theorem leads_of_ranks {rest : List SortSpec} (hsorts : q.sorts = w :: rest)
    (hfield : Schema.field? .aardvark w.field = some f) (hmany : f.isScalar = false)
    (htext : f.numeric = false) (h : q.Ranks a b) {x y : String}
    (hx : w.direction.IsBest compare (a.values w.field) x)
    (hy : w.direction.IsBest compare (b.values w.field) y) :
    w.direction.Leads Text.compareLetters x y := by
  have hrelevance : w.field ≠ relevance := by
    intro heq
    have hnone : Schema.field? .aardvark relevance = none := by decide
    rw [heq, hnone] at hfield
    cases hfield
  have hnumeric : Schema.isNumeric .aardvark w.field = false := by
    rw [Schema.isNumeric, hfield]
    exact htext
  have hscalar : Schema.isScalar .aardvark w.field = false := by
    rw [Schema.isScalar, hfield]
    exact hmany
  have htexts (r : Resource) : r.texts w.field = r.values w.field := by
    rw [Resource.texts, hscalar]
    rfl
  have horder := order_ne_gt_of_ranks hsorts h
  unfold SortSpec.order at horder
  rw [if_neg hrelevance, hnumeric] at horder
  simp only [Bool.false_eq_true, if_false, htexts, Direction.best?_eq_some_iff.mpr hx,
    Direction.best?_eq_some_iff.mpr hy] at horder
  exact Direction.leads_iff_order.mpr horder

end Request

/-- Of two listed resources the first one has the best value by code points that leads without
regard to letter case.  It has the best value without regard to letter case if what is best by code
points in the second one is so without regard to letter case. -/
theorem Session.Reachable.search_bestValue {s : Session} (h : s.Reachable) {q : Request}
    {found : Response} (hfound : s.catalog.facetedSearch q = .ok found) {w : SortSpec}
    {rest : List SortSpec} (hsorts : q.sorts = w :: rest) {f : Field}
    (hfield : Schema.field? .aardvark w.field = some f) (hmany : f.isScalar = false)
    (htext : f.numeric = false) :
    ∃ listing answer, s.catalog.Listing q listing ∧ s.catalog.Pages q listing answer ∧
      listing.Pairwise fun a b =>
        (∀ x y, w.direction.IsBest compare (a.values w.field) x →
          w.direction.IsBest compare (b.values w.field) y →
            w.direction.Leads Text.compareLetters x y) ∧
        ((∀ y, w.direction.IsBest compare (b.values w.field) y →
            w.direction.IsBest Text.compareLetters (b.values w.field) y) →
          ∀ x y, w.direction.IsBest Text.compareLetters (a.values w.field) x →
            w.direction.IsBest Text.compareLetters (b.values w.field) y →
              w.direction.Leads Text.compareLetters x y) := by
  obtain ⟨L, hL, hc⟩ := h.ledger
  rw [Catalog.facetedSearch_database hc] at hfound
  obtain ⟨hnames, keys, p, hkeys, hp, -⟩ := (Ledger.facetedSearch_eq_ok hL).mp hfound
  obtain ⟨listing, answer, hlisting, hpages⟩ := Catalog.exists_pages hc hL hnames hkeys hp
  refine ⟨listing, answer, hlisting, hpages, hlisting.ranks.imp fun {a b} hab => ?_⟩
  have hleads (x y : String) (hx : w.direction.IsBest compare (a.values w.field) x)
      (hy : w.direction.IsBest compare (b.values w.field) y) :=
    Request.leads_of_ranks hsorts hfield hmany htext hab hx hy
  refine ⟨hleads, fun hagree x y hx hy => ?_⟩
  obtain ⟨u, hu⟩ := Direction.exists_isBest (d := w.direction) (List.ne_nil_of_mem hx.1)
  obtain ⟨v, hv⟩ := Direction.exists_isBest (d := w.direction) (List.ne_nil_of_mem hy.1)
  have hxu := hx.2 u hu.1
  have huv := hleads u v hu hv
  have hvy := (hagree v hv).2 y hy.1
  exact (hxu.trans huv).trans hvy

namespace Session

/-- Two resources with keywords.  The best keyword of the first one is by code points a capital
letter, and by letters alone another one. -/
def capital : Resource :=
  (Resource.ofId "a").setValues "dcat_keyword_sm" ["b", "Z"]

def plain : Resource :=
  (Resource.ofId "b").setValues "dcat_keyword_sm" ["c"]

def bothLedger : Ledger :=
  (Ledger.empty.put capital []).put plain []

def afterBoth : Session :=
  (afterUpsert capital []).settle ((afterUpsert capital []).catalog.holding bothLedger)

def byKeyword : Request :=
  (Request.everything.withSort "dcat_keyword_sm" .ascending).withPage 10 0

private theorem check_capital : Schema.check .aardvark capital = .ok () := by
  decide +kernel

private theorem check_plain : Schema.check .aardvark plain = .ok () := by
  decide +kernel

theorem sound_bothLedger : bothLedger.Sound :=
  (Ledger.sound_empty.put (Schema.check_eq_ok.mp check_capital) []).put
    (Schema.check_eq_ok.mp check_plain) []

theorem reachable_afterBoth : afterBoth.Reachable :=
  .step (reachable_afterUpsert check_capital [])
    (step_upsert (L := Ledger.empty.put capital []) rfl check_plain [])

private theorem exists_listing_byKeyword :
    ∃ listing answer, afterBoth.catalog.Listing byKeyword listing ∧
      afterBoth.catalog.Pages byKeyword listing answer ∧
        ∀ r ∈ bothLedger.resources, bothLedger.record r ∈ listing := by
  have hc : afterBoth.catalog.database = some bothLedger.database := rfl
  have hnone : bothLedger.hits byKeyword = none := if_neg (by decide)
  have hp : byKeyword.predicate .aardvark none (bothLedger.hits byKeyword).isNone = .ok [] := by
    rw [hnone]
    decide
  obtain ⟨keys, hkeys⟩ : ∃ keys, byKeyword.sortKeys .aardvark = .ok keys := ⟨_, rfl⟩
  obtain ⟨listing, answer, hlisting, hpages⟩ :=
    Catalog.exists_pages hc sound_bothLedger rfl hkeys hp
  refine ⟨listing, answer, hlisting, hpages, fun r hr => (hlisting.mem _).mpr ⟨?_, ?_⟩⟩
  · exact (Catalog.get_eq_ok hc sound_bothLedger).mpr ⟨r, hr, rfl, rfl⟩
  · have hstored := (Catalog.storesSearchText_iff sound_bothLedger hr).mpr rfl
    exact ⟨_, _, hc, hstored, ⟨nofun, nofun⟩, nofun⟩

theorem search_bestValue_afterBoth :
    afterBoth.Reachable ∧ (∃ found, afterBoth.catalog.facetedSearch byKeyword = .ok found) ∧
      ∃ listing answer, afterBoth.catalog.Listing byKeyword listing ∧
        afterBoth.catalog.Pages byKeyword listing answer ∧
        listing.Pairwise fun a b =>
          (∀ x y, Direction.ascending.IsBest compare (a.values "dcat_keyword_sm") x →
            Direction.ascending.IsBest compare (b.values "dcat_keyword_sm") y →
              Direction.ascending.Leads Text.compareLetters x y) ∧
          ((∀ y, Direction.ascending.IsBest compare (b.values "dcat_keyword_sm") y →
              Direction.ascending.IsBest Text.compareLetters (b.values "dcat_keyword_sm") y) →
            ∀ x y, Direction.ascending.IsBest Text.compareLetters (a.values "dcat_keyword_sm") x →
              Direction.ascending.IsBest Text.compareLetters (b.values "dcat_keyword_sm") y →
                Direction.ascending.Leads Text.compareLetters x y) := by
  obtain ⟨listing, answer, -, hpages, -⟩ := exists_listing_byKeyword
  have hfound : afterBoth.catalog.facetedSearch byKeyword = .ok (answer ⟨10, 0⟩) :=
    hpages.faceted ⟨10, 0⟩
  exact ⟨reachable_afterBoth, ⟨_, hfound⟩,
    reachable_afterBoth.search_bestValue hfound rfl rfl rfl rfl⟩

private theorem values_capital :
    (bothLedger.record capital).values "dcat_keyword_sm" = ["b", "Z"] := by
  rw [Ledger.values_record]
  decide

private theorem values_plain : (bothLedger.record plain).values "dcat_keyword_sm" = ["c"] := by
  rw [Ledger.values_record]
  decide

private theorem isBest_plain {cmp : String → String → Ordering} (hcmp : cmp "c" "c" ≠ .gt) :
    Direction.ascending.IsBest cmp ["c"] "c" :=
  ⟨List.mem_cons_self, List.forall_mem_singleton.mpr hcmp⟩

/-- The resource with the capital letter cannot come first, since `c` comes before `Z`. -/
private theorem not_ranks_capital :
    ¬byKeyword.Ranks (bothLedger.record capital) (bothLedger.record plain) := by
  intro hranks
  have hcapital : Direction.ascending.IsBest compare
      ((bothLedger.record capital).values "dcat_keyword_sm") "Z" := by
    rw [values_capital]
    exact Direction.best?_eq_some_iff.mp (by decide +kernel)
  have hplain : Direction.ascending.IsBest compare
      ((bothLedger.record plain).values "dcat_keyword_sm") "c" := by
    rw [values_plain]
    exact isBest_plain (by decide +kernel)
  have hleads : Direction.ascending.Leads Text.compareLetters "Z" "c" :=
    Request.leads_of_ranks (w := ⟨"dcat_keyword_sm", .ascending⟩) rfl rfl rfl rfl hranks hcapital
      hplain
  exact hleads (by decide +kernel)

/-- The resource with the capital letter comes last, though it has the keyword that is the least one
without regard to letter case. -/
theorem search_bestValue_misplaces :
    afterBoth.Reachable ∧
      ∃ listing answer, afterBoth.catalog.Listing byKeyword listing ∧
        afterBoth.catalog.Pages byKeyword listing answer ∧
        ¬listing.Pairwise fun a b => ∀ x y,
          Direction.ascending.IsBest Text.compareLetters (a.values "dcat_keyword_sm") x →
            Direction.ascending.IsBest Text.compareLetters (b.values "dcat_keyword_sm") y →
              Direction.ascending.Leads Text.compareLetters x y := by
  obtain ⟨listing, answer, hlisting, hpages, hlisted⟩ := exists_listing_byKeyword
  refine ⟨reachable_afterBoth, listing, answer, hlisting, hpages, fun hclaim => ?_⟩
  have hleast : Direction.ascending.IsBest Text.compareLetters ["b", "Z"] "b" := by
    refine ⟨List.mem_cons_self, List.forall_mem_cons.mpr ⟨?_, List.forall_mem_singleton.mpr ?_⟩⟩
    · exact (by decide +kernel : Text.compareLetters "b" "b" ≠ .gt)
    · exact (by decide +kernel : Text.compareLetters "b" "Z" ≠ .gt)
  have hdistinct : bothLedger.record plain ≠ bothLedger.record capital := fun heq =>
    absurd (congrArg Resource.id heq) (by decide)
  -- The two resources stand in neither order: the claim forbids one, and the ranks the other.
  let Adverse (a b : Resource) := ¬(a = bothLedger.record plain ∧ b = bothLedger.record capital)
  have hadverse : listing.Pairwise Adverse := by
    refine hclaim.imp ?_
    rintro _ _ hleads ⟨rfl, rfl⟩
    rw [values_capital, values_plain] at hleads
    exact hleads "c" "b" (isBest_plain (by decide +kernel)) hleast (by decide +kernel)
  have hflip : listing.Pairwise (flip Adverse) := by
    refine hlisting.ranks.imp ?_
    rintro _ _ hranks ⟨rfl, rfl⟩
    exact not_ranks_capital hranks
  exact hadverse.forall_of_forall_of_flip (fun r _ hr => hdistinct (hr.1.symm.trans hr.2)) hflip
    (hlisted plain (by decide +kernel)) (hlisted capital (by decide +kernel)) ⟨rfl, rfl⟩

end Session

end Gazetteer
