import Mathlib
import Gazetteer.Proofs.Query.Order
/-!
Pages: what a request lists does not depend on its page, and each page shows a stretch of that
list.  A start of 2 ^ 63 or more skips nothing.
-/

namespace Gazetteer

/-! Windows -/

namespace Page

variable {α : Type} {items : List α} {p : Page}

theorem window_eq (hstart : p.start < unlimited)
    (hsize : p.size < unlimited ∨ items.length ≤ p.size) :
    p.window items = (items.drop p.start).take p.size := by
  rw [window, skipped, if_pos hstart, limited]
  split
  · rfl
  next hlarge =>
    have hall : (items.drop p.start).length ≤ p.size := by
      have hitems := hsize.resolve_left hlarge
      rw [List.length_drop]
      omega
    exact (List.take_of_length_le hall).symm

theorem window_of_unlimited_le (hstart : unlimited ≤ p.start) :
    p.window items = (Page.mk p.size 0).window items := by
  have hfirst : skipped 0 items = items := by
    rw [skipped]
    split <;> rfl
  rw [window, window, hfirst, skipped, if_neg (Nat.not_lt.mpr hstart)]

end Page

/-! Requests that are answered -/

namespace Request

private theorem isKnown_of_sortKey {box : Option Envelope} {w : SortSpec} {key : Option SortKey}
    (h : sortKey .aardvark box w = .ok key) : w.IsKnown := by
  rw [sortKey] at h
  split at h
  next hrelevance => exact Or.inl (beq_iff_eq.mp hrelevance)
  · split at h
    · cases h
    · split at h
      · cases h
      next f hf => exact Or.inr (Option.isSome_iff_exists.mpr ⟨f, hf⟩)

private theorem isKnown_of_sortKeysOf {box : Option Envelope} {wishes : List SortSpec}
    {keys : SortKeys} (h : sortKeysOf .aardvark box wishes = .ok keys) :
    ∀ w ∈ wishes, w.IsKnown := by
  induction wishes generalizing keys with
  | nil => exact fun w hw => absurd hw List.not_mem_nil
  | cons wish rest ih =>
      rw [sortKeysOf] at h
      split at h
      · cases h
      next key hkey =>
        obtain ⟨more, hrest, -⟩ := map_eq_ok.mp h
        exact List.forall_mem_cons.mpr ⟨isKnown_of_sortKey hkey, ih hrest⟩

theorem wellNamed_of_ok {q : Request} {keys : SortKeys} {p : Predicate} {withGlobal : Bool}
    (hnames : Database.checkNames (q.facets.map FacetSpec.field) = .ok ())
    (hkeys : q.sortKeys .aardvark = .ok keys)
    (hp : q.predicate .aardvark none withGlobal = .ok p) : q.WellNamed where
  sorts := by
    have hwishes := isKnown_of_sortKeysOf hkeys
    intro w hw
    apply hwishes
    split
    next hempty =>
      rw [List.isEmpty_iff.mp hempty] at hw
      exact absurd hw List.not_mem_nil
    · exact hw
  filters field condition hget :=
    exists_predicate_iff.mp ⟨p, hp⟩ field condition hget nofun
  facets := hnames

end Request

/-- What is found for a request stands in its order. -/
theorem Ledger.map_sorted_matching {L : Ledger} (h : L.Sound) {q : Request} {keys : SortKeys}
    {p : Predicate} {withGlobal : Bool}
    (hnames : Database.checkNames (q.facets.map FacetSpec.field) = .ok ())
    (hkeys : q.sortKeys .aardvark = .ok keys)
    (hp : q.predicate .aardvark none withGlobal = .ok p) :
    (L.sorted keys (L.matching q p)).map L.record =
      ((L.matching q p).map L.record).mergeSort fun a b => q.order a b != .gt := by
  obtain ⟨known, hknown, hcompare⟩ :=
    exists_sortKeys h (Request.wellNamed_of_ok hnames hkeys hp)
  rw [hkeys] at hknown
  cases hknown
  have hmatching := L.matching_sublist q p
  exact map_sorted q fun a ha b hb => hcompare a (hmatching.subset ha) b (hmatching.subset hb)

namespace Catalog

/-- All that a request lists: the resources that match it as they are read, in its order. -/
structure Listing (c : Catalog) (q : Request) (listing : List Resource) : Prop where
  mem : ∀ r, r ∈ listing ↔ c.get r.id = .ok r ∧
    ∃ db content, c.database = some db ∧ db.StoresSearchText r.id content ∧ q.Matches r content
  ranks : listing.Pairwise q.Ranks
  ids : (listing.map Resource.id).Nodup

/-- The answers to a request for each page, which show a listing part by part. -/
structure Pages (c : Catalog) (q : Request) (listing : List Resource) (answer : Page → Response) :
    Prop where
  faceted : ∀ page, c.facetedSearch { q with page := some page } = .ok (answer page)
  plain : ∀ page, c.search { q with page := some page } =
    .ok { answer page with facets := .empty }
  total : ∀ page, (answer page).total = listing.length
  results : ∀ page, page.start < unlimited →
    page.size < unlimited ∨ listing.length ≤ page.size →
      (answer page).results = (listing.drop page.start).take page.size
  /-- A start that is no number of the store shows the first page. -/
  unskipped : ∀ page, unlimited ≤ page.start →
    (answer page).results = (answer ⟨page.size, 0⟩).results

namespace Pages

variable {c : Catalog} {q : Request} {listing : List Resource} {answer : Page → Response}

theorem results_of_length_le (h : c.Pages q listing answer) {page : Page}
    (hstart : page.start < unlimited) (hbeyond : listing.length ≤ page.start) :
    (answer page).results = [] := by
  by_cases hsize : page.size < unlimited
  · rw [h.results page hstart (Or.inl hsize), List.drop_of_length_le hbeyond, List.take_nil]
  · have hlarge : listing.length ≤ page.size := by omega
    rw [h.results page hstart (Or.inr hlarge), List.drop_of_length_le hbeyond, List.take_nil]

theorem results_of_le (h : c.Pages q listing answer) {size : Nat} (hsize : listing.length ≤ size) :
    (answer ⟨size, 0⟩).results = listing := by
  have hstart : (0 : Nat) < unlimited := by decide
  rw [h.results ⟨size, 0⟩ hstart (Or.inr hsize), List.drop_zero, List.take_of_length_le hsize]

theorem results_append (h : c.Pages q listing answer) {start first second : Nat}
    (hstart : start + first < unlimited) (hsize : first + second < unlimited) :
    (answer ⟨first, start⟩).results ++ (answer ⟨second, start + first⟩).results =
      (answer ⟨first + second, start⟩).results := by
  have hbefore : start < unlimited := by omega
  have hfirst : first < unlimited := by omega
  have hsecond : second < unlimited := by omega
  rw [h.results ⟨first, start⟩ hbefore (Or.inl hfirst),
    h.results ⟨second, start + first⟩ hstart (Or.inl hsecond),
    h.results ⟨first + second, start⟩ hbefore (Or.inl hsize), List.take_add, List.drop_drop]

end Pages

variable {c : Catalog} {L : Ledger} {q : Request}

section

variable (hc : c.database = some L.database) (h : L.Sound) {keys : SortKeys} {p : Predicate}
  (hnames : Database.checkNames (q.facets.map FacetSpec.field) = .ok ())
  (hkeys : q.sortKeys .aardvark = .ok keys)
  (hp : q.predicate .aardvark none (L.hits q).isNone = .ok p)

include hc h hnames hkeys hp

private theorem listing_sorted : c.Listing q ((L.sorted keys (L.matching q p)).map L.record) := by
  have hperm : (L.sorted keys (L.matching q p)).Perm (L.matching q p) := List.mergeSort_perm _ _
  have hids : (((L.matching q p).map L.record).map Resource.id).Nodup := by
    rw [List.map_map]
    exact Ledger.nodup_ids h (L.matching_sublist q p)
  constructor
  · intro r
    rw [(hperm.map L.record).mem_iff, mem_results_iff hc h hp]
    refine and_congr_right fun _ => ?_
    simp [hc]
  · rw [Ledger.map_sorted_matching h hnames hkeys hp]
    exact Request.pairwise_ranks q hids
  · exact ((hperm.map L.record).map Resource.id).nodup_iff.mpr hids

private theorem pages_response : c.Pages q ((L.sorted keys (L.matching q p)).map L.record)
    fun page => L.response c.config { q with page := some page } keys p := by
  have hlength : ((L.sorted keys (L.matching q p)).map L.record).length =
      (L.matching q p).length :=
    (List.length_map _).trans (List.mergeSort_perm _ _).length_eq
  have hresults (page : Page) :
      (L.response c.config { q with page := some page } keys p).results =
        page.window ((L.sorted keys (L.matching q p)).map L.record) :=
    (page.window_map L.record _).symm
  constructor
  · intro page
    rw [facetedSearch_database hc, Ledger.facetedSearch_eq_ok h]
    exact ⟨hnames, keys, p, hkeys, hp, rfl⟩
  · intro page
    have hplain : c.search { q with page := some page } =
        c.facetedSearch { q with page := some page, facets := [] } := rfl
    rw [hplain, facetedSearch_database hc, Ledger.facetedSearch_eq_ok h]
    exact ⟨rfl, keys, p, hkeys, hp, rfl⟩
  · exact fun page => hlength.symm
  · intro page hstart hsize
    rw [hresults, Page.window_eq hstart hsize]
  · intro page hstart
    rw [hresults, hresults, Page.window_of_unlimited_le hstart]

theorem exists_pages : ∃ listing answer, c.Listing q listing ∧ c.Pages q listing answer :=
  ⟨_, _, listing_sorted hc h hnames hkeys hp, pages_response hc h hnames hkeys hp⟩

end

end Catalog

/-- Every page of an answer is a stretch of one listing, and the total is its length. -/
theorem Session.Reachable.search_pages {s : Session} (h : s.Reachable) (q : Request) :
    (∃ e, ∀ page, s.catalog.facetedSearch { q with page := some page } = .error e) ∨
      ∃ listing answer, s.catalog.Listing q listing ∧ s.catalog.Pages q listing answer ∧
        (∀ page, page.start < unlimited → listing.length ≤ page.start →
          (answer page).results = []) ∧
        ∀ start first second, start + first < unlimited → first + second < unlimited →
          (answer ⟨first, start⟩).results ++ (answer ⟨second, start + first⟩).results =
            (answer ⟨first + second, start⟩).results := by
  obtain ⟨L, hL, hc⟩ := h.ledger
  have hanswer (page : Page) : s.catalog.facetedSearch { q with page := some page } = (do
      Database.checkNames (q.facets.map FacetSpec.field)
      let keys ← q.sortKeys .aardvark
      let p ← q.predicate .aardvark none (L.hits q).isNone
      return L.response s.catalog.config { q with page := some page } keys p) := by
    rw [Catalog.facetedSearch_database hc, Ledger.facetedSearch_database hL]
    rfl
  cases hnames : Database.checkNames (q.facets.map FacetSpec.field) with
  | error e => exact Or.inl ⟨e, fun page => by rw [hanswer, hnames]; rfl⟩
  | ok =>
      cases hkeys : q.sortKeys .aardvark with
      | error e => exact Or.inl ⟨e, fun page => by rw [hanswer, hnames, hkeys]; rfl⟩
      | ok keys =>
          cases hp : q.predicate .aardvark none (L.hits q).isNone with
          | error e => exact Or.inl ⟨e, fun page => by rw [hanswer, hnames, hkeys, hp]; rfl⟩
          | ok p =>
              obtain ⟨listing, answer, hlisting, hpages⟩ :=
                Catalog.exists_pages hc hL hnames hkeys hp
              refine Or.inr ⟨listing, answer, hlisting, hpages, fun page hstart hbeyond => ?_,
                fun start first second hstart hsize => ?_⟩
              · exact hpages.results_of_length_le hstart hbeyond
              · exact hpages.results_append hstart hsize

theorem Session.search_pages_afterUpsert :
    let s := afterUpsert (.ofId "a") []
    let q := Request.everything
    s.Reachable ∧ ∃ listing answer, s.catalog.Listing q listing ∧ s.catalog.Pages q listing answer ∧
      (∀ page, page.start < unlimited → listing.length ≤ page.start →
        (answer page).results = []) ∧
      ∀ start first second, start + first < unlimited → first + second < unlimited →
        (answer ⟨first, start⟩).results ++ (answer ⟨second, start + first⟩).results =
          (answer ⟨first + second, start⟩).results := by
  intro s q
  have h : s.Reachable := reachable_afterUpsert (by decide) []
  refine ⟨h, (h.search_pages q).resolve_left ?_⟩
  rintro ⟨e, he⟩
  have hlisted : (s.catalog.facetedSearch (q.withPage 1 0)).toOption.isSome := by decide +kernel
  have herror : s.catalog.facetedSearch (q.withPage 1 0) = .error e := he ⟨1, 0⟩
  rw [herror] at hlisted
  exact absurd hlisted Bool.false_ne_true

/-- A start far beyond the total shows the first page all the same. -/
theorem Session.search_startsOver :
    let s := afterUpsert (.ofId "a") []
    let q := Request.everything
    s.Reachable ∧ ∃ listing found, s.catalog.Listing q listing ∧
      s.catalog.facetedSearch (q.withPage 1 (2 ^ 63)) = .ok found ∧
        found.total = listing.length ∧ found.total ≤ 2 ^ 63 ∧
          found.results ≠ (listing.drop (2 ^ 63)).take 1 := by
  intro s q
  have h : s.Reachable := reachable_afterUpsert (by decide) []
  obtain ⟨L, hL, hc⟩ := h.ledger
  have hkeys : q.sortKeys .aardvark = .ok SortKeys.closing := by decide
  have hp : q.predicate .aardvark none (L.hits q).isNone = .ok [] := by
    have hnone : L.hits q = none := if_neg (by decide)
    rw [hnone]
    decide
  obtain ⟨listing, answer, hlisting, hpages⟩ := Catalog.exists_pages hc hL rfl hkeys hp
  have hfound : s.catalog.facetedSearch (q.withPage 1 (2 ^ 63)) = .ok (answer ⟨1, 2 ^ 63⟩) :=
    hpages.faceted ⟨1, 2 ^ 63⟩
  have hshown : (s.catalog.facetedSearch (q.withPage 1 (2 ^ 63))).map
      (fun r => (r.total, r.results.length)) = .ok (1, 1) := by
    decide +kernel
  rw [hfound] at hshown
  obtain ⟨htotal, hlength⟩ := Prod.mk.inj (Except.ok.inj hshown)
  have hlisted : listing.length = 1 := (hpages.total _).symm.trans htotal
  refine ⟨h, listing, _, hlisting, hfound, hpages.total _, ?_, fun hempty => ?_⟩
  · rw [htotal]
    exact Nat.one_le_two_pow
  · have hbeyond : listing.length ≤ 2 ^ 63 := by
      rw [hlisted]
      exact Nat.one_le_two_pow
    rw [hempty, List.drop_of_length_le hbeyond] at hlength
    exact absurd hlength (by decide)

end Gazetteer
