import Mathlib
import Gazetteer.Proofs.Query.Facet
/-!
The values of a field over the whole catalog: each value once, with the number of the resources that
have it, and as many of them as a facet of the field would show.
-/

namespace Gazetteer

/-! Cut lists -/

theorem limited_eq_self_iff {α : Type} {limit : Nat} {items : List α} :
    limited limit items = items ↔ items.length ≤ limit ∨ unlimited ≤ limit := by
  rw [limited]
  split
  next hlimit => rw [List.take_eq_self_iff, or_iff_left (Nat.not_le.mpr hlimit)]
  next hlimit => exact iff_of_true rfl (Or.inr (Nat.not_lt.mp hlimit))

/-! The values of a field -/

/-- All buckets of a field in their order: each of its values that is not empty once, with the
number of the resources that have it. -/
structure Catalog.Tallies (c : Catalog) (field : String) (all : List Bucket) : Prop where
  nodup : (all.map Bucket.value).Nodup
  mem_iff : ∀ v n, ⟨v, n⟩ ∈ all ↔ v ≠ "" ∧ 0 < n ∧ ∃ ids : List String, ids.Nodup ∧
    ids.length = n ∧ ∀ id, id ∈ ids ↔ ∃ r, c.get id = .ok r ∧ r.Has field v
  ordered : all.Pairwise (Bucket.Precedes c.config field)

theorem Catalog.Tallies.eq {c : Catalog} {field : String} {all others : List Bucket}
    (h : c.Tallies field all) (hother : c.Tallies field others) : all = others := by
  refine eq_of_pairwise_asymm Database.precedes_asymm ?_ h.ordered hother.ordered
  rintro ⟨v, n⟩
  rw [h.mem_iff, hother.mem_iff]

theorem Ledger.matching_everything (L : Ledger) : L.matching .everything [] = L.resources := by
  have hpassing : L.passing .everything = L.resources := List.filter_eq_self.mpr fun _ _ => rfl
  rw [matching, hpassing]
  exact List.filter_eq_self.mpr fun _ _ => rfl

namespace Catalog

variable {c : Catalog} {L : Ledger} {field : String}

/-- The values of a field with a limit of its own or that of a facet. -/
theorem exists_tallies (hc : c.database = some L.database) (h : L.Sound)
    (hname : wellFormedName field = true) (limit : Option Nat) :
    ∃ all, c.Tallies field all ∧ c.distinctValues field limit =
      .ok (limited (Database.facetLimit c.config ⟨field, limit⟩) all) := by
  have hhits : L.hits .everything = none := if_neg (by decide)
  obtain ⟨all, hbuckets, hnodup, hordered, hmem⟩ :=
    Ledger.buckets_database (p := []) h (List.forall_mem_nil _) c.config ⟨field, limit⟩ .everything
  have hcheck : checkName field = .ok () := if_pos hname
  refine ⟨all, ⟨hnodup, fun v n => ?_, hordered⟩, ?_⟩
  · have hhas (id : String) : (∃ r, c.get id = .ok r ∧ r.Has field v) ↔
        ∃ r ∈ L.matching .everything [], (L.record r).Has field v ∧ r.id = id := by
      simp only [get_eq_ok hc h, L.matching_everything]
      constructor
      · rintro ⟨_, ⟨r, hr, hid, rfl⟩, hvalue⟩
        exact ⟨r, hr, hvalue, hid⟩
      · rintro ⟨r, hr, hvalue, hid⟩
        exact ⟨L.record r, ⟨r, hr, hid, rfl⟩, hvalue⟩
    rw [hmem]
    simp only [hhas]
  · rw [hhits] at hbuckets
    simp only [distinctValues, read, hc, schema, Database.distinctValues, hcheck, hbuckets,
      engineResult]

end Catalog

/-- The values of a field come in full just if there are no more of them than a facet of the field
shows; otherwise the first ones come. -/
theorem Session.Reachable.distinctValues_tally {s : Session} (h : s.Reachable) {field : String}
    (hname : wellFormedName field = true) :
    ∃ all, s.catalog.Tallies field all ∧
      (∀ limit, s.catalog.distinctValues field limit =
        .ok (limited (Database.facetLimit s.catalog.config ⟨field, limit⟩) all)) ∧
      (s.catalog.distinctValues field none = .ok all ↔
        all.length ≤ Database.facetLimit s.catalog.config ⟨field, none⟩ ∨
          unlimited ≤ Database.facetLimit s.catalog.config ⟨field, none⟩) := by
  obtain ⟨L, hL, hc⟩ := h.ledger
  obtain ⟨all, hall, hdefault⟩ := Catalog.exists_tallies hc hL hname none
  refine ⟨all, hall, fun limit => ?_, ?_⟩
  · obtain ⟨others, hothers, hlimited⟩ := Catalog.exists_tallies hc hL hname limit
    rw [hlimited, hothers.eq hall]
  · rw [hdefault, Except.ok.injEq, limited_eq_self_iff]

namespace Session

/-- One keyword more than a facet shows. -/
def keywords : List String :=
  ["a", "b", "c", "d", "e", "f", "g", "h", "i", "j", "k"]

def afterKeywords : Session :=
  afterUpsert ((Resource.ofId "a").setValues "dcat_keyword_sm" keywords) []

private theorem check_keywords :
    Schema.check .aardvark ((Resource.ofId "a").setValues "dcat_keyword_sm" keywords) = .ok () := by
  decide +kernel

theorem distinctValues_tally_afterKeywords :
    ∃ all, afterKeywords.catalog.Tallies "dcat_keyword_sm" all ∧
      (∀ limit, afterKeywords.catalog.distinctValues "dcat_keyword_sm" limit =
        .ok (limited (Database.facetLimit afterKeywords.catalog.config
          ⟨"dcat_keyword_sm", limit⟩) all)) ∧
      (afterKeywords.catalog.distinctValues "dcat_keyword_sm" none = .ok all ↔
        all.length ≤ Database.facetLimit afterKeywords.catalog.config ⟨"dcat_keyword_sm", none⟩ ∨
          unlimited ≤
            Database.facetLimit afterKeywords.catalog.config ⟨"dcat_keyword_sm", none⟩) :=
  (reachable_afterUpsert check_keywords []).distinctValues_tally (by decide)

/-- One of eleven stored keywords is not among the values that come without a limit. -/
theorem distinctValues_leavesOut :
    afterKeywords.Reachable ∧ ∃ found,
      afterKeywords.catalog.distinctValues "dcat_keyword_sm" none = .ok found ∧
        ∃ r v, afterKeywords.catalog.get "a" = .ok r ∧ r.Has "dcat_keyword_sm" v ∧ v ≠ "" ∧
          v ∉ found.map Bucket.value := by
  let r : Resource := (Resource.ofId "a").setValues "dcat_keyword_sm" keywords
  let L : Ledger := Ledger.empty.put r []
  have hL : L.Sound := Ledger.sound_empty.put (Schema.check_eq_ok.mp check_keywords) []
  have hc : afterKeywords.catalog.database = some L.database := rfl
  have hname : wellFormedName "dcat_keyword_sm" = true := by decide
  obtain ⟨all, -, hfound⟩ := Catalog.exists_tallies hc hL hname none
  have hlimit :
      Database.facetLimit afterKeywords.catalog.config ⟨"dcat_keyword_sm", none⟩ = 10 := by
    decide
  have hshort : (limited 10 all).length < keywords.length := by
    have hten : 10 < unlimited := by decide
    rw [limited, if_pos hten]
    exact Nat.lt_succ_of_le (List.length_take_le 10 all)
  -- There are fewer buckets than keywords, so that one keyword has none.
  obtain ⟨v, hv, hnone⟩ : ∃ v ∈ keywords, v ∉ (limited 10 all).map Bucket.value := by
    by_contra hevery
    push Not at hevery
    have hnodup : keywords.Nodup := by decide
    have hle := (hnodup.subperm hevery).length_le
    rw [List.length_map] at hle
    exact absurd hshort (Nat.not_lt.mpr hle)
  rw [hlimit] at hfound
  refine ⟨reachable_afterUpsert check_keywords [], _, hfound, L.record r, v, ?_, ?_, ?_, hnone⟩
  · exact (Catalog.get_eq_ok hc hL).mpr ⟨r, List.mem_singleton_self r, rfl, rfl⟩
  · have hvalues : (L.record r).values "dcat_keyword_sm" = keywords := by
      rw [Ledger.values_record]
      decide
    have hfield : Schema.isScalar .aardvark "dcat_keyword_sm" = false := by decide
    rw [Resource.Has, hfield, hvalues]
    exact hv
  · rintro rfl
    exact absurd hv (by decide)

end Session

end Gazetteer
