import Mathlib
import Gazetteer.Proofs.Query.Bucket
import Gazetteer.Proofs.Query.Search
/-!
Facets: a bucket counts the resources that a search finds if its value is asked for in the place of
what the request asks of the field.
-/

namespace Gazetteer

open Layout

namespace Ledger

variable {L : Ledger} {q : Request} {p : Predicate} {field : String}

/-! The values that the selected resources have -/

private def scalarEntries (field : String) (items : List Resource) : List (String × String) :=
  items.flatMap fun r => ((r.value? field).toList.filter (· != "")).map fun v => (v, r.id)

private theorem scalar_occurrences (h : L.Sound)
    (hfield : Schema.isScalar .aardvark field = true) (q : Request) (p : Predicate) :
    L.database.scalarOccurrences field (L.hits q) p =
      (scalarEntries field (L.matching q p)).map Database.occurrence := by
  have haccepted : ∀ r ∈ L.matching q p, Schema.Accepts .aardvark r :=
    fun r hr => h.accepted r ((L.matching_sublist q p).subset hr)
  rw [Database.scalarOccurrences, selected_database h, affinity_scalar L hfield]
  generalize L.matching q p = items at haccepted
  induction items with
  | nil => rfl
  | cons r rest ih =>
      obtain ⟨hr, hrest⟩ := List.forall_mem_cons.mp haccepted
      have hempty (v : String) : (Cell.text v).equals ((Cell.text "").against .text) = (v == "") :=
        Cell.equals_text v ""
      have hcons : scalarEntries field (r :: rest) =
          (((r.value? field).toList.filter (· != "")).map fun v => (v, r.id)) ++
            scalarEntries field rest := List.flatMap_cons
      rw [List.map_cons, List.map_cons, List.filter_cons, ih hrest, hcons, List.map_append,
        Resource.scalarRow_value hr hfield, Resource.scalarRow_id]
      cases r.value? field with
      | none => rfl
      | some v =>
          simp only [Option.map_some, Option.getD_some, hempty]
          cases hv : v == "" <;> simp [hv, bne, Cell.isNull, Database.occurrence]

private def repeatableEntries (L : Ledger) (field : String) (items : List Resource) :
    List (String × String) :=
  ((L.resources.flatMap Resource.attributes).filter fun entry => entry.2.1 == field).flatMap
    fun entry => (items.filter fun r => r.id == entry.1).map fun _ => (entry.2.2, entry.1)

private theorem repeatable_occurrences (h : L.Sound) (field : String) (q : Request)
    (p : Predicate) :
    L.database.repeatableOccurrences field (L.hits q) p =
      (L.repeatableEntries field (L.matching q p)).map Database.occurrence := by
  have hfield : L.database.affinity attributes "field" = .text :=
    affinity_attribute L (d := requiredText) (.tail _ (.head _))
  have hid : L.database.affinity attributes "id" = .text :=
    affinity_attribute L Part.id_attributes
  have hresource : L.database.affinity Layout.resources "id" = .text :=
    affinity_scalar L (by decide)
  have hjoins (a b : String) : Cell.joins .text .text (.text a) (.text b) = (a == b) :=
    Cell.equals_text a b
  rw [Database.repeatableOccurrences, rows_attributes, selected_database h, repeatableEntries]
  generalize L.resources.flatMap Resource.attributes = stored
  simp only [hfield, hid, hresource, List.filter_map, List.flatMap_map, List.map_flatMap,
    List.map_map, Function.comp_def, attributeRow_id, attributeRow_field, attributeRow_value,
    Resource.scalarRow_id, Test.isOneOf_text, hjoins, List.contains_cons, List.contains_nil,
    Bool.or_false]
  rfl

/-- The values of a field, each with the ids of the selected resources that have it. -/
theorem occurrences_database (h : L.Sound) (field : String) (q : Request) (p : Predicate) :
    ∃ entries : List (String × String),
      (if Schema.isScalar .aardvark field then
          L.database.scalarOccurrences field (L.hits q) p
        else L.database.repeatableOccurrences field (L.hits q) p) =
          entries.map Database.occurrence ∧
      ∀ v id, (v, id) ∈ entries ↔
        v ≠ "" ∧ ∃ r ∈ L.matching q p, (L.record r).Has field v ∧ r.id = id := by
  cases hfield : Schema.isScalar .aardvark field with
  | true =>
      refine ⟨_, scalar_occurrences h hfield q p, fun v id => ?_⟩
      simp only [scalarEntries, List.mem_flatMap, List.mem_map, List.mem_filter,
        Option.mem_toList, bne_iff_ne, Prod.mk.injEq, Resource.Has, hfield, if_true]
      constructor
      · rintro ⟨r, hr, _, ⟨hvalue, hne⟩, rfl, rfl⟩
        exact ⟨hne, r, hr, hvalue, rfl⟩
      · rintro ⟨hne, r, hr, hvalue, rfl⟩
        exact ⟨r, hr, v, ⟨hvalue, hne⟩, rfl, rfl⟩
  | false =>
      refine ⟨_, repeatable_occurrences h field q p, fun v id => ?_⟩
      simp only [repeatableEntries, List.mem_flatMap, List.mem_map, List.mem_filter, beq_iff_eq,
        Prod.mk.injEq, Resource.Has, hfield, Bool.false_eq_true, if_false, values_record]
      have hstored (r : Resource) : (r.id, field, v) ∈ r.attributes ↔
          v ≠ "" ∧ v ∈ Database.keptValues (r.values field) := by
        rw [Resource.mem_attributes, Database.keptValues, List.mem_eraseDups, List.mem_filter,
          Bool.not_eq_true']
        constructor
        · rintro ⟨-, hvalue, hblank⟩
          refine ⟨?_, hvalue, hblank⟩
          rintro rfl
          cases hblank
        · rintro ⟨-, hvalue, hblank⟩
          exact ⟨rfl, hvalue, hblank⟩
      constructor
      · rintro ⟨⟨_, _, _⟩, ⟨⟨owner, howner, hentry⟩, rfl⟩, r, ⟨hr, hid⟩, rfl, rfl⟩
        obtain rfl := Resource.id_of_mem_attributes hentry
        -- the row is joined by its id, which no other resource has
        obtain rfl : r = owner := List.inj_on_of_nodup_map h.resources
          ((L.matching_sublist q p).subset hr) howner hid
        obtain ⟨hne, hvalue⟩ := (hstored r).mp hentry
        exact ⟨hne, r, hr, hvalue, rfl⟩
      · rintro ⟨hne, r, hr, hvalue, rfl⟩
        have howner := (L.matching_sublist q p).subset hr
        exact ⟨(r.id, field, v), ⟨⟨r, howner, (hstored r).mpr ⟨hne, hvalue⟩⟩, rfl⟩, r, ⟨hr, rfl⟩,
          rfl, rfl⟩

end Ledger

/-! Buckets -/

/-- The buckets of values that are texts: each value once, with the number of the different ids that
it occurs with. -/
theorem Database.buckets_of_occurrences {db : Database} {schema : Schema} {spec : FacetSpec}
    {hitSet : HitSet} {p : Predicate} (config : Config)
    (hneed : db.need (facetNeeds schema spec.field ++ selectionNeeds hitSet p) = .ok ())
    {entries : List (String × String)}
    (hentries : (if schema.isScalar spec.field then db.scalarOccurrences spec.field hitSet p
      else db.repeatableOccurrences spec.field hitSet p) = entries.map occurrence) :
    ∃ all : List Bucket,
      db.buckets schema config spec hitSet p = .ok (limited (facetLimit config spec) all) ∧
        (all.map Bucket.value).Nodup ∧ all.Pairwise (Bucket.Precedes config spec.field) ∧
        ∀ v n, ⟨v, n⟩ ∈ all ↔ 0 < n ∧ ∃ ids : List String, ids.Nodup ∧ ids.length = n ∧
          ∀ id, id ∈ ids ↔ (v, id) ∈ entries := by
  obtain ⟨counted, htally, hnodup, hevery, hcount⟩ := tally_occurrences entries
  obtain ⟨all, hsort, hperm, hbefore⟩ := sort_buckets config spec.field hnodup
  refine ⟨all, ?_, (hperm.map Bucket.value).nodup_iff.mpr hnodup, hbefore, fun v n => ?_⟩
  · rw [buckets, hneed]
    simp only [hentries, htally, hsort, limited_map]
    let read (entry : Cell × Nat) : Except Fault Bucket :=
      (entry.1.toString? spec.field).map fun value => ⟨value, entry.2⟩
    have hread (b : Bucket) : read b.entry = .ok (id b) := rfl
    exact (mapM_map_eq_ok hread _).trans (congrArg _ (List.map_id _))
  · rw [hperm.mem_iff]
    constructor
    · intro hb
      obtain ⟨⟨id, hid⟩, ids, hids, hmem, hlength⟩ := hcount _ hb
      refine ⟨?_, ids, hids, hlength.symm, hmem⟩
      exact (List.length_pos_of_mem ((hmem id).mpr hid)).trans_eq hlength.symm
    · rintro ⟨hn, ids, hids, rfl, hmem⟩
      obtain ⟨id, hid⟩ := List.exists_mem_of_length_pos hn
      obtain ⟨b, hb, rfl⟩ := List.mem_map.mp (hevery v id ((hmem id).mp hid))
      obtain ⟨-, others, hothers, hother, hlength⟩ := hcount b hb
      have hsame : others.Perm ids := (List.perm_ext_iff_of_nodup hothers hids).mpr fun id => by
        rw [hother, hmem]
      rw [← hsame.length_eq, ← hlength]
      exact hb

/-- Values that are none but with ids need no mention of it where an id is. -/
theorem exists_ids_iff {P : Prop} {Q : String → Prop} {n : Nat} :
    (0 < n ∧ ∃ ids : List String, ids.Nodup ∧ ids.length = n ∧ ∀ id, id ∈ ids ↔ P ∧ Q id) ↔
      P ∧ 0 < n ∧ ∃ ids : List String, ids.Nodup ∧ ids.length = n ∧ ∀ id, id ∈ ids ↔ Q id := by
  constructor
  · rintro ⟨hn, ids, hids, rfl, hmem⟩
    obtain ⟨id, hid⟩ := List.exists_mem_of_length_pos hn
    have hp := ((hmem id).mp hid).1
    exact ⟨hp, hn, ids, hids, rfl, fun id => (hmem id).trans (and_iff_right hp)⟩
  · rintro ⟨hp, hn, ids, hids, rfl, hmem⟩
    exact ⟨hn, ids, hids, rfl, fun id => (hmem id).trans (and_iff_right hp).symm⟩

namespace Ledger

variable {L : Ledger} {q : Request} {p : Predicate} {field : String}

private theorem known_facetNeeds (field : String) :
    ∀ entry ∈ Database.facetNeeds .aardvark field, Known entry := by
  rw [Database.facetNeeds]
  split
  next hfield =>
    exact List.forall_mem_cons.mpr ⟨known_scalar hfield, List.forall_mem_singleton.mpr known_id⟩
  next => exact known_attributeNeeds

/-- The buckets of a field: each value that is not empty, with the number of the selected resources
that have it. -/
theorem buckets_database (h : L.Sound) (hp : p.WellFormed) (config : Config) (spec : FacetSpec)
    (q : Request) :
    ∃ all : List Bucket,
      L.database.buckets .aardvark config spec (L.hits q) p =
          .ok (limited (Database.facetLimit config spec) all) ∧
        (all.map Bucket.value).Nodup ∧ all.Pairwise (Bucket.Precedes config spec.field) ∧
        ∀ v n, ⟨v, n⟩ ∈ all ↔ v ≠ "" ∧ 0 < n ∧ ∃ ids : List String, ids.Nodup ∧ ids.length = n ∧
          ∀ id, id ∈ ids ↔ ∃ r ∈ L.matching q p, (L.record r).Has spec.field v ∧ r.id = id := by
  obtain ⟨entries, hoccurrences, hentries⟩ := occurrences_database h spec.field q p
  have hneed : L.database.need (Database.facetNeeds .aardvark spec.field ++
      Database.selectionNeeds (L.hits q) p) = .ok () :=
    L.need_known (List.forall_mem_append.mpr
      ⟨known_facetNeeds spec.field, known_selectionNeeds hp (L.hits q)⟩)
  obtain ⟨all, hbuckets, hnodup, hbefore, hmem⟩ :=
    Database.buckets_of_occurrences config hneed hoccurrences
  refine ⟨all, hbuckets, hnodup, hbefore, fun v n => ?_⟩
  simp only [hmem, hentries]
  exact exists_ids_iff

/-! Asking for the value of a bucket -/

private theorem mem_matching_anyOf (h : L.Sound) {v : String} {withGlobal : Bool}
    {clicked : Predicate} (hp : q.predicate .aardvark (some field) withGlobal = .ok p)
    (hclicked : (q.withFilter field (.anyOf [v])).predicate .aardvark none withGlobal =
      .ok clicked) {r : Resource} :
    r ∈ L.matching (q.withFilter field (.anyOf [v])) clicked ↔
      r ∈ L.matching q p ∧ (L.record r).Has field v := by
  rw [mem_matching h hclicked, mem_matching h hp, and_assoc, and_assoc]
  refine and_congr_right fun _ => and_congr ⟨fun hq => ⟨hq.text, hq.box⟩,
    fun hq => ⟨hq.text, hq.box⟩⟩ ?_
  rw [← Condition.met_anyOf]
  simp only [Request.MeetsFilters, Request.withFilter, Dict.get?_insert]
  constructor
  · intro hmet
    refine ⟨fun other condition hget hne => ?_, hmet field _ (if_pos rfl) (Option.some_ne_none _).symm⟩
    exact hmet other condition ((if_neg fun heq => hne (congrArg some heq.symm)).trans hget)
      (Option.some_ne_none _).symm
  · rintro ⟨hothers, hown⟩ other condition hget -
    split at hget
    next heq =>
      cases hget
      exact heq ▸ hown
    next hne => exact hothers other condition hget fun heq => hne (Option.some_inj.mp heq).symm

end Ledger

/-! The facets of a request -/

private theorem facets_get? {db : Database} {config : Config} {q : Request} {hitSet : HitSet}
    {spec : FacetSpec} (hspec : spec ∈ q.facets)
    (honce : ∀ other ∈ q.facets, other.field = spec.field → other = spec) :
    (db.facets .aardvark config q hitSet).get? spec.field =
      some (db.facet .aardvark config q hitSet spec) := by
  let make (spec : FacetSpec) : String × List Bucket :=
    (spec.field, db.facet .aardvark config q hitSet spec)
  rw [Database.facets, Dict.get?_ofList]
  cases hlast : ((q.facets.map make).filter (·.1 == spec.field)).getLast? with
  | none =>
      rw [List.getLast?_eq_none_iff, List.filter_eq_nil_iff] at hlast
      exact absurd BEq.rfl (hlast (make spec) (List.mem_map_of_mem hspec))
  | some entry =>
      obtain ⟨hentry, hfield⟩ := List.mem_filter.mp (List.mem_of_getLast? hlast)
      obtain ⟨other, hother, rfl⟩ := List.mem_map.mp hentry
      obtain rfl := honce other hother (beq_iff_eq.mp hfield)
      rfl

private theorem checkName_of_checkNames {names : List String}
    (h : Database.checkNames names = .ok ()) : ∀ name ∈ names, checkName name = .ok () := by
  induction names with
  | nil => exact fun name hname => absurd hname List.not_mem_nil
  | cons first rest ih =>
      rw [Database.checkNames] at h
      split at h
      · cases h
      next hfirst => exact List.forall_mem_cons.mpr ⟨hfirst, ih h⟩

/-- A request with one field asked for a value fails only if the request does or the name of the
field is malformed. -/
private theorem exists_predicate_anyOf {q : Request} {p : Predicate} {field v : String}
    {withGlobal : Bool} (hp : q.predicate .aardvark none withGlobal = .ok p)
    (hname : checkName field = .ok ()) :
    (∃ kept, q.predicate .aardvark (some field) withGlobal = .ok kept) ∧
      ∃ clicked, (q.withFilter field (.anyOf [v])).predicate .aardvark none withGlobal =
        .ok clicked := by
  have hnames := Request.exists_predicate_iff.mp ⟨p, hp⟩
  constructor
  · exact Request.exists_predicate_iff.mpr fun other condition hget _ =>
      hnames other condition hget nofun
  · refine Request.exists_predicate_iff.mpr fun other condition hget _ => ?_
    rw [Request.withFilter, Dict.get?_insert] at hget
    split at hget
    next heq => exact heq ▸ hname
    next => exact hnames other condition hget nofun

namespace Ledger

/-- What asking for a value of a field finds: the resources that have it among those that meet what
is asked besides of the field. -/
private theorem facetedSearch_anyOf {L : Ledger} (h : L.Sound) {config : Config} {q : Request}
    {found : Response} (hfound : L.database.facetedSearch .aardvark config q = .ok found)
    {field : String} (hname : checkName field = .ok ()) {p : Predicate}
    (hp : q.predicate .aardvark (some field) (L.hits q).isNone = .ok p) (v : String) :
    ∃ clicked, L.database.facetedSearch .aardvark config (q.withFilter field (.anyOf [v])) =
        .ok clicked ∧
      ∃ ids : List String, ids.Nodup ∧ ids.length = clicked.total ∧
        ∀ id, id ∈ ids ↔ ∃ r ∈ L.matching q p, (L.record r).Has field v ∧ r.id = id := by
  obtain ⟨hnames, keys, all, hkeys, hall, -⟩ := (facetedSearch_eq_ok h).mp hfound
  obtain ⟨-, clicked, hclicked⟩ := exists_predicate_anyOf (v := v) hall hname
  refine ⟨L.response config (q.withFilter field (.anyOf [v])) keys clicked,
    (facetedSearch_eq_ok h).mpr ⟨hnames, keys, clicked, hkeys, hclicked, rfl⟩,
    (L.matching (q.withFilter field (.anyOf [v])) clicked).map Resource.id,
    nodup_ids h (L.matching_sublist _ clicked), List.length_map _, fun id => ?_⟩
  simp only [List.mem_map, mem_matching_anyOf h hp hclicked, and_assoc]

private theorem total_congr {L : Ledger} (h : L.Sound) {config : Config} {q other : Request}
    {found answer : Response} (hfound : L.database.facetedSearch .aardvark config q = .ok found)
    (hanswer : L.database.facetedSearch .aardvark config other = .ok answer)
    (hquery : q.query = other.query) (hbox : q.box = other.box)
    (hfilters : q.filters = other.filters) :
    found.total = answer.total := by
  obtain ⟨-, -, p, -, hp, rfl⟩ := (facetedSearch_eq_ok h).mp hfound
  obtain ⟨-, -, kept, -, hkept, rfl⟩ := (facetedSearch_eq_ok h).mp hanswer
  have hclause : q.globalClause = other.globalClause := by
    simp only [Request.globalClause, Request.terms, Request.textQuery?, hquery, hbox]
  have hglobal : q.isGlobal = other.isGlobal := by
    simp only [Request.isGlobal, Request.textQuery?, hquery, hbox]
  simp only [Request.predicate, hits, passing, hclause, hglobal, hfilters] at hp hkept
  obtain rfl : p = kept := Except.ok.inj (hp.symm.trans hkept)
  simp only [response, matching, passing, hclause]

end Ledger

/-- All buckets of a facet in their order: each value of its field once, with the number of the
resources that asking for it finds. -/
structure Catalog.Counts (c : Catalog) (q : Request) (field : String) (all : List Bucket) :
    Prop where
  nodup : (all.map Bucket.value).Nodup
  mem_iff : ∀ v n, ⟨v, n⟩ ∈ all ↔ v ≠ "" ∧ 0 < n ∧ ∃ clicked,
    c.facetedSearch (q.withFilter field (.anyOf [v])) = .ok clicked ∧ clicked.total = n
  ordered : all.Pairwise (Bucket.Precedes c.config field)

private theorem Catalog.Counts.eq {c : Catalog} {q other : Request} {field : String}
    {all others : List Bucket} (h : c.Counts q field all) (hother : c.Counts other field others)
    (hmem : ∀ b, b ∈ all ↔ b ∈ others) : all = others :=
  eq_of_pairwise_asymm Database.precedes_asymm hmem h.ordered hother.ordered

private theorem exists_buckets {c : Catalog} {L : Ledger} (hL : L.Sound)
    (hc : c.database = some L.database) {q : Request} {found : Response}
    (hfound : c.facetedSearch q = .ok found) {spec : FacetSpec} (hspec : spec ∈ q.facets)
    (honce : ∀ other ∈ q.facets, other.field = spec.field → other = spec) :
    (∀ v, ∃ clicked, c.facetedSearch (q.withFilter spec.field (.anyOf [v])) = .ok clicked) ∧
      ∃ all : List Bucket, c.Counts q spec.field all ∧
        found.facets.get? spec.field =
          some (limited (Database.facetLimit c.config spec) all) := by
  simp only [Catalog.facetedSearch_database hc] at hfound
  obtain ⟨hnames, keys, p, hkeys, hp, rfl⟩ := (Ledger.facetedSearch_eq_ok hL).mp hfound
  have hname : checkName spec.field = .ok () :=
    checkName_of_checkNames hnames spec.field (List.mem_map_of_mem hspec)
  obtain ⟨⟨kept, hkept⟩, -⟩ := exists_predicate_anyOf (v := "") hp hname
  obtain ⟨all, hbuckets, hnodup, hbefore, hmem⟩ := Ledger.buckets_database hL
    (Request.predicate_eq_ok hkept).1 c.config spec q
  have hfacet : L.database.facet .aardvark c.config q (L.hits q) spec =
      limited (Database.facetLimit c.config spec) all := by
    simp only [Database.facet, hkept, hbuckets]
  have hsearch (v : String) := Ledger.facetedSearch_anyOf hL hfound hname hkept v
  refine ⟨fun v => ?_, all, ⟨hnodup, fun v n => ?_, hbefore⟩, ?_⟩
  · rw [Catalog.facetedSearch_database hc]
    exact (hsearch v).imp fun _ hclicked => hclicked.1
  · rw [hmem, Catalog.facetedSearch_database hc]
    refine and_congr_right fun _ => and_congr_right fun _ => ?_
    obtain ⟨clicked, hclicked, ids, hids, htotal, hid⟩ := hsearch v
    rw [hclicked]
    simp only [Except.ok.injEq, exists_eq_left']
    constructor
    · rintro ⟨others, hothers, rfl, hother⟩
      have hsame : others.Perm ids := (List.perm_ext_iff_of_nodup hothers hids).mpr fun id => by
        rw [hother, hid]
      rw [← htotal, hsame.length_eq]
    · rintro rfl
      exact ⟨ids, hids, htotal, hid⟩
  · rw [← hfacet]
    exact facets_get? hspec honce

/-- Requests that ask the same but of one field ask the same once that field is asked for a
value. -/
private theorem filters_withFilter {q other : Request} {field : String} (condition : Condition)
    (h : ∀ name, name ≠ field → other.filters.get? name = q.filters.get? name) :
    (other.withFilter field condition).filters = (q.withFilter field condition).filters := by
  refine Dict.ext_get? fun name => ?_
  simp only [Request.withFilter, Dict.get?_insert]
  split
  next => rfl
  next hne => exact h name hne

/-- A facet shows the first of its buckets, whatever is asked of its own field, and in whichever
order and on whichever page the results come. -/
theorem Session.Reachable.facets_count {s : Session} (h : s.Reachable) {q : Request}
    {found : Response} (hfound : s.catalog.facetedSearch q = .ok found) {spec : FacetSpec}
    (hspec : spec ∈ q.facets)
    (honce : ∀ other ∈ q.facets, other.field = spec.field → other = spec) :
    (∃ all, s.catalog.Counts q spec.field all ∧
      found.facets.get? spec.field =
        some (limited (Database.facetLimit s.catalog.config spec) all)) ∧
      ∀ other answer, other.query = q.query → other.box = q.box →
        (∀ name, name ≠ spec.field → other.filters.get? name = q.filters.get? name) →
        spec ∈ other.facets → (∀ o ∈ other.facets, o.field = spec.field → o = spec) →
        s.catalog.facetedSearch other = .ok answer →
          answer.facets.get? spec.field = found.facets.get? spec.field := by
  obtain ⟨L, hL, hc⟩ := h.ledger
  obtain ⟨hclick, all, hall, hshown⟩ := exists_buckets hL hc hfound hspec honce
  refine ⟨⟨all, hall, hshown⟩, fun other answer hquery hbox hfilters hspec' honce' hanswer => ?_⟩
  obtain ⟨hclick', all', hall', hshown'⟩ := exists_buckets hL hc hanswer hspec' honce'
  have hsame : ∀ b, b ∈ all' ↔ b ∈ all := by
    rintro ⟨v, n⟩
    obtain ⟨clicked, hclicked⟩ := hclick v
    obtain ⟨clicked', hclicked'⟩ := hclick' v
    rw [hall.mem_iff, hall'.mem_iff, hclicked, hclicked']
    rw [Catalog.facetedSearch_database hc] at hclicked hclicked'
    have htotal : clicked'.total = clicked.total :=
      Ledger.total_congr hL hclicked' hclicked hquery hbox (filters_withFilter _ hfilters)
    simp only [Except.ok.injEq, exists_eq_left', htotal]
  rw [hshown, hshown', hall'.eq hall hsame]

theorem Session.facets_count_afterUpsert :
    let s := afterUpsert (.ofId "a") []
    let q := Request.everything.withFacet "id" none
    ∃ found, s.catalog.facetedSearch q = .ok found ∧
      (∃ all, s.catalog.Counts q "id" all ∧ found.facets.get? "id" = some (limited 10 all)) ∧
      ∀ other answer, other.query = q.query → other.box = q.box →
        (∀ name, name ≠ "id" → other.filters.get? name = q.filters.get? name) →
        ⟨"id", none⟩ ∈ other.facets → (∀ o ∈ other.facets, o.field = "id" → o = ⟨"id", none⟩) →
        s.catalog.facetedSearch other = .ok answer →
          answer.facets.get? "id" = found.facets.get? "id" := by
  intro s q
  have h : s.Reachable := reachable_afterUpsert (by decide) []
  obtain ⟨L, hL, hc⟩ := h.ledger
  have hnames : Database.checkNames (q.facets.map FacetSpec.field) = .ok () := by decide
  have hkeys : q.sortKeys .aardvark = .ok SortKeys.closing := by decide
  have hp : q.predicate .aardvark none (L.hits q).isNone = .ok [] := by
    have hnone : L.hits q = none := if_neg (by decide)
    rw [hnone]
    decide
  have hfound := Catalog.facetedSearch_database hc q
  rw [(Ledger.facetedSearch_eq_ok hL).mpr ⟨hnames, _, _, hkeys, hp, rfl⟩] at hfound
  have hspec : ⟨"id", none⟩ ∈ q.facets := by decide
  exact ⟨_, hfound, h.facets_count hfound hspec (by decide)⟩

end Gazetteer
