import Mathlib
import Gazetteer.Proofs.Catalog.Export
import Gazetteer.Proofs.Catalog.Flush
import Gazetteer.Proofs.Catalog.Slice
import Gazetteer.Proofs.Query.Facet
import Gazetteer.Proofs.Query.Page
/-!
Reads: what a catalog answers is told by what it holds under each id.  The order of the writes that
led there, which is that of the rows, shows nowhere.
-/

namespace Gazetteer

open Layout

namespace Ledger

variable {L M : Ledger} (hL : L.Sound) (hM : M.Sound) (h : L.slice = M.slice)

theorem record_eq_slice (L : Ledger) (r : Resource) : L.record r =
    { id := r.id
      scalars := r.scalars
      repeatables := r.repeatables.filterMap Resource.kept?
      distributions := (L.slice r.id).placements.map Placement.distribution
      geometry := r.envelope?
      thumbnail := (L.slice r.id).thumbnail } := rfl

theorem resource?_eq_slice (L : Ledger) (id : String) :
    L.resource? id = (L.slice id).resource.map L.record := rfl

theorem Sound.mem_resources (h : L.Sound) {r : Resource} :
    r ∈ L.resources ↔ (L.slice r.id).resource = some r :=
  ⟨fun hr => h.find? hr, List.mem_of_find?_eq_some⟩

theorem isNone_hits (L : Ledger) (q : Request) : (L.hits q).isNone = !q.isGlobal := by
  rw [hits]
  cases q.isGlobal <;> rfl

include h

theorem record_congr : L.record = M.record := by
  funext r
  rw [record_eq_slice, record_eq_slice, h]

theorem resource?_congr : L.resource? = M.resource? := by
  funext id
  rw [resource?_eq_slice, resource?_eq_slice, h, record_congr h]

theorem has_congr (id : String) : L.has id = M.has id := by
  rw [← resource?_isSome, ← resource?_isSome, resource?_congr h]

include hL hM

theorem mem_resources_congr (r : Resource) : r ∈ L.resources ↔ r ∈ M.resources := by
  rw [hL.mem_resources, hM.mem_resources, h]

theorem exported_congr : L.exported = M.exported := by
  rw [exported, exported, ids_eq hM hL (has_congr h), resource?_congr h]

theorem length_resources_congr : L.resources.length = M.resources.length := by
  rw [← length_exported, ← length_exported, exported_congr hL hM h]

/-! Searches -/

section

variable {q : Request} {p : Predicate} {omitted : Option String} {withGlobal : Bool}
  (hp : q.predicate .aardvark omitted withGlobal = .ok p)

include hp

theorem mem_matching_congr (r : Resource) : r ∈ L.matching q p ↔ r ∈ M.matching q p := by
  rw [mem_matching hL hp, mem_matching hM hp, mem_resources_congr hL hM h, record_congr h]

theorem matching_perm : (L.matching q p).Perm (M.matching q p) :=
  (List.perm_ext_iff_of_nodup (nodup_ids hL (L.matching_sublist q p)).of_map
    (nodup_ids hM (M.matching_sublist q p)).of_map).mpr (mem_matching_congr hL hM h hp)

theorem buckets_congr (config : Config) (spec : FacetSpec) :
    L.database.buckets .aardvark config spec (L.hits q) p =
      M.database.buckets .aardvark config spec (M.hits q) p := by
  have hformed := (Request.predicate_eq_ok hp).1
  obtain ⟨all, hall, -, hbefore, hmem⟩ := buckets_database hL hformed config spec q
  obtain ⟨others, hothers, -, hbefore', hmem'⟩ := buckets_database hM hformed config spec q
  have hsame : ∀ b, b ∈ all ↔ b ∈ others := by
    intro b
    rw [hmem, hmem']
    simp only [mem_matching_congr hL hM h hp, record_congr h]
  rw [hall, hothers, eq_of_pairwise_asymm Database.precedes_asymm hsame hbefore hbefore']

end

theorem facet_congr (config : Config) (q : Request) (spec : FacetSpec) :
    L.database.facet .aardvark config q (L.hits q) spec =
      M.database.facet .aardvark config q (M.hits q) spec := by
  rw [Database.facet, Database.facet, isNone_hits, isNone_hits]
  cases hp : q.predicate .aardvark (some spec.field) (!q.isGlobal) with
  | error e => rfl
  | ok p => simp only [buckets_congr hL hM h hp]

theorem response_congr {q : Request} {keys : SortKeys} {p : Predicate} {withGlobal : Bool}
    (hnames : Database.checkNames (q.facets.map FacetSpec.field) = .ok ())
    (hkeys : q.sortKeys .aardvark = .ok keys)
    (hp : q.predicate .aardvark none withGlobal = .ok p) (config : Config) :
    L.response config q keys p = M.response config q keys p := by
  have hranks {N : Ledger} (hN : N.Sound) :
      (((N.matching q p).map N.record).mergeSort fun a b => q.order a b != .gt).Pairwise
        q.Ranks := by
    apply Request.pairwise_ranks
    rw [List.map_map]
    exact nodup_ids hN (N.matching_sublist q p)
  have hresults : (L.sorted keys (L.matching q p)).map L.record =
      (M.sorted keys (M.matching q p)).map M.record := by
    rw [map_sorted_matching hL hnames hkeys hp, map_sorted_matching hM hnames hkeys hp]
    refine Request.eq_of_ranks (fun r => ?_) (hranks hL) (hranks hM)
    rw [List.mem_mergeSort, List.mem_mergeSort, record_congr h]
    exact ((matching_perm hL hM h hp).map M.record).mem_iff
  have hfacets : L.database.facets .aardvark config q (L.hits q) =
      M.database.facets .aardvark config q (M.hits q) :=
    congrArg Dict.ofList (List.map_congr_left fun spec _ =>
      congrArg (spec.field, ·) (facet_congr hL hM h config q spec))
  rw [response, response, ← Page.window_map, ← Page.window_map, hresults, hfacets,
    (matching_perm hL hM h hp).length_eq]

theorem facetedSearch_congr (config : Config) (q : Request) :
    L.database.facetedSearch .aardvark config q = M.database.facetedSearch .aardvark config q := by
  rw [facetedSearch_database hL, facetedSearch_database hM, isNone_hits, isNone_hits]
  -- A failure cuts off the answers, which `rfl` would compare all the same.
  cases hnames : Database.checkNames (q.facets.map FacetSpec.field) with
  | error e => simp only [error_bind]
  | ok =>
      cases hkeys : q.sortKeys .aardvark with
      | error e => simp only [error_bind, ok_bind]
      | ok keys =>
          cases hp : q.predicate .aardvark none (!q.isGlobal) with
          | error e => simp only [error_bind, ok_bind]
          | ok p => simp only [ok_bind, response_congr hL hM h hnames hkeys hp config]

theorem distinctValues_congr (config : Config) (spec : FacetSpec) :
    L.database.distinctValues .aardvark config spec =
      M.database.distinctValues .aardvark config spec := by
  have hall (N : Ledger) : N.hits .everything = none := if_neg (by decide)
  have hp : Request.everything.predicate .aardvark none true = .ok [] := by decide
  have hbuckets := buckets_congr hL hM h hp config spec
  rw [hall, hall] at hbuckets
  rw [Database.distinctValues, Database.distinctValues, hbuckets]

end Ledger

namespace Catalog

variable {c d : Catalog} {L M : Ledger} {q : Call}

/-- Catalogs with one configuration that hold the same under each id give the same answers. -/
theorem answer_of_slices (hconfig : c.config = d.config) (hL : L.Sound) (hM : M.Sound)
    (hc : c.database = some L.database) (hd : d.database = some M.database)
    (h : L.slice = M.slice) (hq : q.isWrite = false) :
    (c.call q).map Prod.snd = (d.call q).map Prod.snd := by
  have hanswer {α : Type} (f : α → Answer) {x y : Except Error α} (hxy : x = y) :
      (x.map (c, f ·)).map Prod.snd = (y.map (d, f ·)).map Prod.snd := by
    subst hxy
    cases x <;> rfl
  cases q with
  | get id =>
      refine hanswer .resource ?_
      rw [get_database hc hL, get_database hd hM, Ledger.resource?_congr h]
  | getMany ids =>
      refine hanswer .resources ?_
      simp only [getMany, read, hc, hd, Ledger.hydrate_database hL, Ledger.hydrate_database hM,
        Ledger.resource?_congr h]
  | search request =>
      refine hanswer .response ?_
      have hsearch := Ledger.facetedSearch_congr hL hM h d.config request.withoutFacets
      simp only [search, read, hc, hd, hconfig]
      exact hsearch
  | facetedSearch request =>
      refine hanswer .response ?_
      rw [facetedSearch_database hc, facetedSearch_database hd, hconfig,
        Ledger.facetedSearch_congr hL hM h]
  | distinctValues field limit =>
      refine hanswer .buckets ?_
      simp only [distinctValues, read, hc, hd, hconfig]
      exact Ledger.distinctValues_congr hL hM h d.config ⟨field, limit⟩
  | count =>
      refine hanswer .number ?_
      simp only [count, read, hc, hd, Ledger.count_database,
        Ledger.length_resources_congr hL hM h]
  | exportRecords =>
      refine hanswer .records ?_
      rw [exportRecords_database hc hL, exportRecords_database hd hM,
        Ledger.exported_congr hL hM h, hconfig]
  | staticMap id =>
      refine hanswer .url ?_
      have hmap := congrArg Slice.staticMap (congrFun h id)
      simp only [staticMap?, read, hc, hd, Ledger.staticMap?_database hL,
        Ledger.staticMap?_database hM]
      exact congrArg (fun url => engineResult (.ok url)) hmap
  | edit e => cases hq
  | importBulk records => cases hq
  | importTabular rows aliases => cases hq

end Catalog

end Gazetteer
