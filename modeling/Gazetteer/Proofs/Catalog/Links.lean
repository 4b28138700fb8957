import Mathlib
import Gazetteer.Proofs.Catalog.Export
import Gazetteer.Proofs.Interchange.Grouping
/-!
The links of exported records.  Under a resource's references stand the links of those of its
distributions whose relation keeps its address: if two relations share one, links are lost.
-/

namespace Gazetteer

open References

namespace Catalog

/-- What the export of a catalog says of the distributions of its resources. -/
structure ExportsLinks (c : Catalog) (stored : List Resource) : Prop where
  own : ∀ r, r ∈ stored ↔ c.get r.id = .ok r
  records : c.exportRecords = .ok (stored.map (Record.ofResource c.config))
  links : ∀ r ∈ stored, r.distributions ≠ [] → ∃ text j found,
    (Record.ofResource c.config r).field? referencesField = some (.text text) ∧
      Json.ofText? text = some j ∧ recordLinks j = .ok found ∧
      Grouped c.config r.distributions found

variable {c : Catalog} {L : Ledger}

theorem references_exported (config : Config) {r : Resource} (h : r.distributions ≠ []) :
    (Record.ofResource config r).field? referencesField =
      some (.text (References.record config r.distributions).compact) := by
  rw [Record.field?_ofResource, if_pos rfl, References.text?, List.isEmpty_eq_false_iff.mpr h]
  rfl

theorem exportsLinks_database (hc : c.database = some L.database) (h : L.Sound) :
    c.ExportsLinks L.exported where
  own r := by
    rw [Ledger.mem_exported, get_database hc h]
    cases L.resource? r.id <;> simp
  records := exportRecords_database hc h
  links r _ hne := by
    obtain ⟨found, hfound, hgrouped⟩ := grouped_record c.config r.distributions
    exact ⟨_, _, found, references_exported c.config hne,
      Json.ofText?_compact (textual_record c.config r.distributions), hfound, hgrouped⟩

end Catalog

namespace Session

/-- Whatever the relations, a references record has the links of the distributions whose relation
is the last one with its address, and an export writes such a record for each resource. -/
theorem Reachable.exports_links {s : Session} (h : s.Reachable) (config : Config)
    (ds : List Distribution) :
    (∃ found, recordLinks (References.record config ds) = .ok found ∧ Grouped config ds found) ∧
      ∃ stored, s.catalog.ExportsLinks stored := by
  obtain ⟨L, hL, hc⟩ := h.ledger
  exact ⟨grouped_record config ds, L.exported, Catalog.exportsLinks_database hc hL⟩

/-- A relation by its key, and one that is the address of that key. -/
def sharing : List Distribution :=
  [⟨"url", "u", none⟩, ⟨"http://schema.org/url", "v", none⟩]

theorem exports_links_sharing :
    (afterUpsert (.ofId "a") sharing).Reachable ∧
      (∃ found, recordLinks (References.record .urlOnly sharing) = .ok found ∧
        Grouped .urlOnly sharing found) ∧
      ∃ stored, (afterUpsert (.ofId "a") sharing).catalog.ExportsLinks stored := by
  have h : (afterUpsert (.ofId "a") sharing).Reachable :=
    reachable_afterUpsert (by decide) sharing
  exact ⟨h, Reachable.exports_links h .urlOnly sharing⟩

/-- Of two relations with one address the first loses its link. -/
theorem record_losesLink :
    recordLinks (References.record .urlOnly sharing) = .ok [⟨"v", none⟩] ∧
      sharing.map Distribution.link = [⟨"u", none⟩, ⟨"v", none⟩] ∧
      ¬[⟨"v", none⟩].Perm (sharing.map Distribution.link) := by
  refine ⟨by decide +kernel, rfl, fun h => ?_⟩
  exact absurd h.length_eq (by decide)

end Session

end Gazetteer
