import Mathlib
import Gazetteer.Proofs.Catalog.Reachable
import Gazetteer.Proofs.Query.Selection
/-!
Searches: the total is the number of the resources that match a request, and a page that is large
enough lists all of them.
-/

namespace Gazetteer

open Layout

/-! Sort keys -/

namespace Request

private theorem known_sortKey {box : Option Envelope} {wish : SortSpec} {key : Option SortKey}
    (h : sortKey .aardvark box wish = .ok key) : ∀ k ∈ key, ∀ entry ∈ k.needs, Known entry := by
  intro k hk
  rw [sortKey] at h
  split at h
  · cases h
    obtain ⟨b, -, rfl⟩ := Option.map_eq_some_iff.mp hk
    exact List.forall_mem_map.mpr fun column hcolumn => known_geometry hcolumn
  · split at h
    · cases h
    · split at h
      · cases h
      next f hf =>
        split at h
        next hscalar =>
          cases h
          cases hk
          have hfield : Schema.isScalar .aardvark wish.field = true := by
            rw [Schema.isScalar, hf]
            exact hscalar
          exact List.forall_mem_singleton.mpr (known_scalar hfield)
        · cases h
          cases hk
          exact known_attributeNeeds

private theorem known_closing : ∀ entry ∈ SortKeys.closing.needs, Known entry := by
  have htitle : Known (Layout.resources, titleField) := known_scalar (by decide)
  simp only [SortKeys.needs, SortKeys.closing, List.flatMap_cons, List.flatMap_nil, SortKey.needs,
    List.singleton_append, List.append_nil, List.forall_mem_cons, List.not_mem_nil, false_imp_iff,
    implies_true, and_true]
  exact ⟨htitle, known_id⟩

private theorem known_sortKeysOf {box : Option Envelope} {wishes : List SortSpec} {keys : SortKeys}
    (h : sortKeysOf .aardvark box wishes = .ok keys) : ∀ entry ∈ keys.needs, Known entry := by
  induction wishes generalizing keys with
  | nil =>
      cases h
      exact known_closing
  | cons wish rest ih =>
      rw [sortKeysOf] at h
      split at h
      · cases h
      next key hkey =>
        obtain ⟨more, hrest, rfl⟩ := map_eq_ok.mp h
        rw [SortKeys.needs, List.flatMap_append]
        refine List.forall_mem_append.mpr ⟨fun entry hentry => ?_, ih hrest⟩
        obtain ⟨k, hk, hentry⟩ := List.mem_flatMap.mp hentry
        exact known_sortKey hkey k (Option.mem_toList.mp hk) entry hentry

theorem known_sortKeys {q : Request} {keys : SortKeys} (h : q.sortKeys .aardvark = .ok keys) :
    ∀ entry ∈ keys.needs, Known entry :=
  known_sortKeysOf h

end Request

/-! Pages -/

theorem limited_map {α β : Type} (limit : Nat) (f : α → β) (items : List α) :
    limited limit (items.map f) = (limited limit items).map f := by
  rw [limited, limited]
  split
  · exact List.map_take.symm
  · rfl

theorem limited_of_length_le {α : Type} {limit : Nat} {items : List α} (h : items.length ≤ limit) :
    limited limit items = items := by
  rw [limited]
  split
  · exact List.take_of_length_le h
  · rfl

namespace Page

theorem window_map {α β : Type} (p : Page) (f : α → β) (items : List α) :
    p.window (items.map f) = (p.window items).map f := by
  simp only [window, skipped]
  split
  · rw [← List.map_drop, limited_map]
  · rw [limited_map]

theorem window_sublist {α : Type} (p : Page) (items : List α) : (p.window items).Sublist items := by
  simp only [window, limited, skipped]
  split <;> split
  · exact (List.take_sublist _ _).trans (List.drop_sublist _ _)
  · exact List.take_sublist _ _
  · exact List.drop_sublist _ _
  · exact List.Sublist.refl _

theorem window_of_length_le {α : Type} {size : Nat} {items : List α} (h : items.length ≤ size) :
    (Page.mk size 0).window items = items := by
  simp only [window, limited, skipped]
  split <;> split <;> simp [List.take_of_length_le h]

end Page

namespace Ledger

variable {L : Ledger} {q : Request}

def sorted (L : Ledger) (keys : SortKeys) (found : List Resource) : List Resource :=
  found.mergeSort fun a b => SortKeys.compare L.database a.scalarRow b.scalarRow keys != .gt

theorem known_selectionNeeds {p : Predicate} (hp : p.WellFormed) (hits : HitSet) :
    ∀ entry ∈ Database.selectionNeeds hits p, Known entry := by
  rw [Database.selectionNeeds]
  refine List.forall_mem_append.mpr ⟨fun entry hentry => ?_, Predicate.known_needs hp⟩
  split at hentry
  · exact List.mem_singleton.mp hentry ▸ known_id
  · exact absurd hentry List.not_mem_nil

theorem pageIds_database (h : L.Sound) {p : Predicate} (hp : p.WellFormed) {keys : SortKeys}
    (hkeys : ∀ entry ∈ keys.needs, Known entry) (page : Page) :
    L.database.pageIds (L.hits q) p keys page =
      .ok ((page.window (L.sorted keys (L.matching q p))).map Resource.id) := by
  have hneed : L.database.need ((Layout.resources, "id") ::
      (Database.selectionNeeds (L.hits q) p ++ keys.needs)) = .ok () :=
    L.need_known (List.forall_mem_cons.mpr
      ⟨known_id, List.forall_mem_append.mpr ⟨known_selectionNeeds hp (L.hits q), hkeys⟩⟩)
  have hsort : keys.sort L.database ((L.matching q p).map Resource.scalarRow) =
      (L.sorted keys (L.matching q p)).map Resource.scalarRow :=
    (List.map_mergeSort (f := Resource.scalarRow) fun a _ b _ => rfl).symm
  rw [Database.pageIds, hneed, selected_database h, hsort, Page.window_map]
  exact mapM_map_eq_ok (fun r => by rw [Resource.scalarRow_id]; rfl) _

def response (L : Ledger) (config : Config) (q : Request) (keys : SortKeys) (p : Predicate) :
    Response where
  results := ((q.page.getD ⟨config.defaultPageSize, 0⟩).window
    (L.sorted keys (L.matching q p))).map L.record
  facets := L.database.facets .aardvark config q (L.hits q)
  total := (L.matching q p).length

private theorem hydrate_resources (h : L.Sound) {items : List Resource}
    (hmem : ∀ r ∈ items, r ∈ L.resources) (hnodup : (items.map Resource.id).Nodup) :
    L.database.hydrate (items.map Resource.id) = .ok (items.map L.record) := by
  have hread : ∀ r ∈ items, (L.resource? ∘ Resource.id) r = (some ∘ L.record) r :=
    fun r hr => resource?_of_mem h (hmem r hr)
  rw [hydrate_database h, eraseDups_of_nodup hnodup, List.filterMap_map,
    List.filterMap_congr hread, List.filterMap_eq_map]

theorem nodup_ids (h : L.Sound) {items : List Resource} (hitems : items.Sublist L.resources) :
    (items.map Resource.id).Nodup :=
  h.resources.sublist (hitems.map _)

private theorem hydrate_page (h : L.Sound) (keys : SortKeys) (p : Predicate) (page : Page) :
    L.database.hydrate ((page.window (L.sorted keys (L.matching q p))).map Resource.id) =
      .ok ((page.window (L.sorted keys (L.matching q p))).map L.record) := by
  have hperm : (L.sorted keys (L.matching q p)).Perm (L.matching q p) := List.mergeSort_perm _ _
  have hwindow := page.window_sublist (L.sorted keys (L.matching q p))
  refine hydrate_resources h (fun r hr => ?_) ?_
  · exact (L.matching_sublist q p).subset (hperm.mem_iff.mp (hwindow.subset hr))
  · have hnodup := nodup_ids h (L.matching_sublist q p)
    exact ((hperm.map Resource.id).nodup_iff.mpr hnodup).sublist (hwindow.map _)

/-- What a request asks of a ledger depends on its page in nothing but the window. -/
theorem facetedSearch_database (h : L.Sound) (config : Config) (q : Request) :
    L.database.facetedSearch .aardvark config q = (do
      Database.checkNames (q.facets.map FacetSpec.field)
      let keys ← q.sortKeys .aardvark
      let p ← q.predicate .aardvark none (L.hits q).isNone
      return L.response config q keys p) := by
  rw [Database.facetedSearch, hitSet_database, engineResult]
  cases hnames : Database.checkNames (q.facets.map FacetSpec.field) with
  | error e => rfl
  | ok =>
      cases hkeys : q.sortKeys .aardvark with
      | error e => rfl
      | ok keys =>
          cases hp : q.predicate .aardvark none (L.hits q).isNone with
          | error e =>
              simp only [ok_bind, hp]
              rfl
          | ok p =>
              have hpage := pageIds_database (q := q) h (Request.predicate_eq_ok hp).1
                (Request.known_sortKeys hkeys) (q.page.getD ⟨config.defaultPageSize, 0⟩)
              have hhydrate := hydrate_page (q := q) h keys p
                (q.page.getD ⟨config.defaultPageSize, 0⟩)
              simp only [ok_bind, hp, hpage, hhydrate, engineResult, selected_database h,
                List.length_map, response]

/-- A request is answered just if its names, sort wishes and conditions are in order. -/
theorem facetedSearch_eq_ok (h : L.Sound) {config : Config} {found : Response} :
    L.database.facetedSearch .aardvark config q = .ok found ↔
      Database.checkNames (q.facets.map FacetSpec.field) = .ok () ∧
        ∃ keys p, q.sortKeys .aardvark = .ok keys ∧
          q.predicate .aardvark none (L.hits q).isNone = .ok p ∧
            found = L.response config q keys p := by
  rw [facetedSearch_database h]
  cases hnames : Database.checkNames (q.facets.map FacetSpec.field) with
  | error e => simp
  | ok =>
      cases hkeys : q.sortKeys .aardvark with
      | error e => simp
      | ok keys =>
          cases hp : q.predicate .aardvark none (L.hits q).isNone with
          | error e => simp
          | ok p =>
              simp only [ok_bind]
              constructor
              · intro hok
                cases hok
                exact ⟨trivial, keys, p, rfl, rfl, rfl⟩
              · rintro ⟨-, _, _, hkeys, hp, rfl⟩
                cases hkeys
                cases hp
                rfl

end Ledger

/-! Searching a reachable session -/

def Database.StoresSearchText (db : Database) (id content : String) : Prop :=
  ∃ row ∈ db.rows searchTexts, row.cell "id" = .text id ∧ row.cell "content" = .text content

namespace Catalog

variable {c : Catalog} {L : Ledger}

theorem facetedSearch_database (hc : c.database = some L.database) (q : Request) :
    c.facetedSearch q = L.database.facetedSearch .aardvark c.config q := by
  simp only [facetedSearch, read, hc]
  rfl

theorem storesSearchText_iff (h : L.Sound) {r : Resource} (hr : r ∈ L.resources)
    {content : String} : L.database.StoresSearchText r.id content ↔
      content = Schema.searchContent .aardvark r := by
  rw [Database.StoresSearchText, Ledger.rows_searchTexts]
  constructor
  · rintro ⟨row, hrow, hid, hcontent⟩
    obtain ⟨other, hother, rfl⟩ := List.mem_map.mp hrow
    rw [Resource.searchRow_id, Cell.text.injEq] at hid
    obtain rfl := List.inj_on_of_nodup_map h.resources hother hr hid
    rw [Resource.searchRow_content, Cell.text.injEq] at hcontent
    exact hcontent.symm
  · rintro rfl
    exact ⟨r.searchRow, List.mem_map_of_mem hr, Resource.searchRow_id, Resource.searchRow_content⟩

theorem get_eq_ok (hc : c.database = some L.database) (h : L.Sound) {id : String}
    {found : Resource} :
    c.get id = .ok found ↔ ∃ r ∈ L.resources, r.id = id ∧ L.record r = found := by
  rw [get_database hc h]
  constructor
  · intro hget
    cases hread : L.resource? id with
    | none =>
        rw [hread] at hget
        cases hget
    | some other =>
        rw [hread] at hget
        cases hget
        obtain ⟨r, hr, rfl⟩ := Option.map_eq_some_iff.mp hread
        exact ⟨r, List.mem_of_find?_eq_some hr, by simpa using List.find?_some hr, rfl⟩
  · rintro ⟨r, hr, rfl, rfl⟩
    rw [Ledger.resource?_of_mem h hr]

theorem mem_ids_iff (hc : c.database = some L.database) (h : L.Sound) {q : Request}
    {withGlobal : Bool} {p : Predicate} (hp : q.predicate .aardvark none withGlobal = .ok p)
    {id : String} : id ∈ (L.matching q p).map Resource.id ↔
      ∃ r content, c.get id = .ok r ∧ L.database.StoresSearchText id content ∧
        q.Matches r content := by
  have hmatches {r : Resource} {content : String} : q.Matches r content ↔
      q.MatchesGlobally r content ∧ q.MeetsFilters none r :=
    ⟨fun hq => ⟨hq.globally, fun field condition hget _ => hq.filters field condition hget⟩,
      fun hq => ⟨hq.1, fun field condition hget => hq.2 field condition hget nofun⟩⟩
  simp only [List.mem_map, Ledger.mem_matching h hp, get_eq_ok hc h, hmatches]
  constructor
  · rintro ⟨r, ⟨hr, hmatch⟩, rfl⟩
    exact ⟨L.record r, Schema.searchContent .aardvark r, ⟨r, hr, rfl, rfl⟩,
      (storesSearchText_iff h hr).mpr rfl, hmatch⟩
  · rintro ⟨_, content, ⟨r, hr, rfl, rfl⟩, hcontent, hmatch⟩
    rw [(storesSearchText_iff h hr).mp hcontent] at hmatch
    exact ⟨r, ⟨hr, hmatch⟩, rfl⟩

end Catalog

/-- A search selects the resources that match its request: as many as the total says, and all of
them stand on a first page that is large enough. -/
theorem Session.Reachable.search_selects {s : Session} (h : s.Reachable) {q : Request}
    {found : Response} (hfound : s.catalog.facetedSearch q = .ok found) :
    ∃ db, s.catalog.database = some db ∧ ∃ ids : List String, ids.Nodup ∧
      (∀ id, id ∈ ids ↔ ∃ r content, s.catalog.get id = .ok r ∧
        db.StoresSearchText id content ∧ q.Matches r content) ∧
      found.total = ids.length ∧
      ∀ size, found.total ≤ size → ∃ page : Response,
        s.catalog.facetedSearch { q with page := some ⟨size, 0⟩ } = .ok page ∧
          page.total = found.total ∧ (page.results.map Resource.id).Perm ids := by
  obtain ⟨L, hL, hc⟩ := h.ledger
  rw [Catalog.facetedSearch_database hc] at hfound
  obtain ⟨hnames, keys, p, hkeys, hp, rfl⟩ := (Ledger.facetedSearch_eq_ok hL).mp hfound
  refine ⟨L.database, hc, (L.matching q p).map Resource.id,
    Ledger.nodup_ids hL (L.matching_sublist q p), fun id => Catalog.mem_ids_iff hc hL hp,
    (List.length_map _).symm, fun size hsize => ?_⟩
  refine ⟨L.response s.catalog.config { q with page := some ⟨size, 0⟩ } keys p, ?_, rfl, ?_⟩
  · rw [Catalog.facetedSearch_database hc]
    exact (Ledger.facetedSearch_eq_ok hL).mpr ⟨hnames, keys, p, hkeys, hp, rfl⟩
  · have hperm : (L.sorted keys (L.matching q p)).Perm (L.matching q p) := List.mergeSort_perm _ _
    have hall : (Page.mk size 0).window (L.sorted keys (L.matching q p)) =
        L.sorted keys (L.matching q p) :=
      Page.window_of_length_le (hperm.length_eq.trans_le hsize)
    change ((((Page.mk size 0).window (L.sorted keys (L.matching q p))).map L.record).map
      Resource.id).Perm _
    rw [hall, List.map_map]
    exact hperm.map Resource.id

theorem Session.search_selects_afterUpsert :
    let s := afterUpsert (.ofId "a") []
    let q := Request.everything.withFilter "id" (.anyOf ["a"])
    ∃ found, s.catalog.facetedSearch q = .ok found ∧
      ∃ db, s.catalog.database = some db ∧ ∃ ids : List String, ids.Nodup ∧
        (∀ id, id ∈ ids ↔ ∃ r content, s.catalog.get id = .ok r ∧
          db.StoresSearchText id content ∧ q.Matches r content) ∧
        found.total = ids.length ∧
        ∀ size, found.total ≤ size → ∃ page : Response,
          s.catalog.facetedSearch { q with page := some ⟨size, 0⟩ } = .ok page ∧
            page.total = found.total ∧ (page.results.map Resource.id).Perm ids := by
  intro s q
  have h : s.Reachable := reachable_afterUpsert (by decide) []
  obtain ⟨L, hL, hc⟩ := h.ledger
  have hkeys : q.sortKeys .aardvark = .ok SortKeys.closing := by decide
  have hp : q.predicate .aardvark none (L.hits q).isNone = .ok [[.scalarIn "id" ["a"]]] := by
    have hnone : L.hits q = none := if_neg (by decide)
    rw [hnone]
    decide
  have hfound := Catalog.facetedSearch_database hc q
  rw [(Ledger.facetedSearch_eq_ok hL).mpr ⟨rfl, _, _, hkeys, hp, rfl⟩] at hfound
  exact ⟨_, hfound, h.search_selects hfound⟩

end Gazetteer
