import Mathlib
import Gazetteer.Proofs.Ledger.Basic
/-! What holds of every ledger that writes lead to. -/

namespace Gazetteer

namespace Placement

/-- Of two distributions of one resource the later one stands behind the other and differs from
it. -/
def Apart (p q : Placement) : Prop :=
  q.id = p.id → p.position < q.position ∧ clashes q.id q.distribution p = false

private theorem lt_next? {id : String} {placements : List Placement} {position : Int}
    (h : next? id placements = some position) :
    ∀ p ∈ placements, p.id = id → p.position < position := by
  intro p hp hid
  have hmem : p.position ∈ (placements.filter fun p => p.id == id).map Placement.position :=
    List.mem_map_of_mem (List.mem_filter.mpr ⟨hp, beq_iff_eq.mpr hid⟩)
  rw [next?] at h
  cases hmax : ((placements.filter fun p => p.id == id).map Placement.position).max? with
  | none =>
      rw [List.max?_eq_none_iff.mp hmax] at hmem
      exact absurd hmem List.not_mem_nil
  | some last =>
      simp only [hmax, Option.filter_eq_some_iff] at h
      obtain rfl := Option.some_inj.mp h.1
      have hle := (List.max?_eq_some_iff.mp hmax).2 _ hmem
      omega

private theorem pairwise_place {id : String} (ds : List Distribution)
    {placements : List Placement} {position : Int} (h : placements.Pairwise Apart)
    (hnext : ∀ p ∈ placements, p.id = id → p.position < position) :
    (place id placements position ds).Pairwise Apart := by
  induction ds generalizing placements position with
  | nil => exact h
  | cons d rest ih =>
      rw [place]
      cases hany : placements.any (clashes id d) with
      | true =>
          exact ih h fun p hp hid => (hnext p hp hid).trans (lt_add_one position)
      | false =>
          rw [List.any_eq_false] at hany
          refine ih ?_ ?_
          · refine List.pairwise_append.mpr ⟨h, List.pairwise_singleton _ _, fun p hp q hq => ?_⟩
            obtain rfl := List.mem_singleton.mp hq
            intro hid
            exact ⟨hnext p hp hid.symm, Bool.not_eq_true _ ▸ hany p hp⟩
          · intro p hp hid
            rcases List.mem_append.mp hp with hp | hp
            · exact (hnext p hp hid).trans (lt_add_one position)
            · obtain rfl := List.mem_singleton.mp hp
              exact lt_add_one position

theorem pairwise_append? {id : String} {ds : List Distribution} {placements placed : List Placement}
    (h : placements.Pairwise Apart) (happend : append? id ds placements = some placed) :
    placed.Pairwise Apart := by
  rw [append?] at happend
  split at happend
  · exact Option.some_inj.mp happend ▸ h
  · obtain ⟨position, hnext, rfl⟩ := Option.map_eq_some_iff.mp happend
    exact pairwise_place ds h (lt_next? hnext)

end Placement

namespace Ledger

/-- Every resource may be written and stands once, as do the cached addresses of an id, and the
distributions of a resource stand apart. -/
structure Sound (L : Ledger) : Prop where
  accepted : ∀ r ∈ L.resources, Schema.Accepts .aardvark r
  resources : (L.resources.map Resource.id).Nodup
  placements : L.placements.Pairwise Placement.Apart
  thumbnails : (L.thumbnails.map Prod.fst).Nodup
  staticMaps : (L.staticMaps.map Prod.fst).Nodup

variable {L : Ledger}

theorem sound_empty : empty.Sound where
  accepted _ hr := absurd hr List.not_mem_nil
  resources := List.nodup_nil
  placements := List.Pairwise.nil
  thumbnails := List.nodup_nil
  staticMaps := List.nodup_nil

theorem Sound.find? (h : L.Sound) {r : Resource} (hr : r ∈ L.resources) :
    (L.resources.find? fun other => other.id == r.id) = some r := by
  have hmem : r ∈ L.resources.filter fun other => other.id == r.id :=
    List.mem_filter.mpr ⟨hr, BEq.rfl⟩
  rwa [filter_key h.resources, Option.mem_toList] at hmem

theorem Sound.nodup_attributes (h : L.Sound) : (L.resources.flatMap Resource.attributes).Nodup := by
  refine List.nodup_flatMap.mpr ⟨fun r _ => r.nodup_attributes, ?_⟩
  refine (List.pairwise_map.mp h.resources).imp fun {r other} hne entry hr hother => ?_
  exact hne ((Resource.id_of_mem_attributes hr).symm.trans (Resource.id_of_mem_attributes hother))

theorem Sound.cleared (h : L.Sound) (id : String) (extent : Replacement) :
    (L.cleared id extent).Sound where
  accepted r hr := h.accepted r (List.mem_filter.mp hr).1
  resources := h.resources.sublist (List.filter_sublist.map _)
  placements := by
    cases extent with
    | full => exact h.placements.sublist List.filter_sublist
    | metadata => exact h.placements
  thumbnails := h.thumbnails
  staticMaps := h.staticMaps

theorem Sound.replace? (h : L.Sound) {r : Resource} (hr : Schema.Accepts .aardvark r)
    {ds : List Distribution} {extent : Replacement} {replaced : Ledger}
    (hreplace : L.replace? r ds extent = some replaced) : replaced.Sound := by
  obtain ⟨placed, hplaced, rfl⟩ := Option.map_eq_some_iff.mp hreplace
  have hrest := h.cleared r.id extent
  refine ⟨fun other hother => ?_, ?_, Placement.pairwise_append? hrest.placements hplaced,
    hrest.thumbnails, hrest.staticMaps⟩
  · rcases List.mem_append.mp hother with hother | hother
    · exact hrest.accepted other hother
    · exact List.mem_singleton.mp hother ▸ hr
  · rw [List.map_append, List.map_singleton]
    refine List.Nodup.append hrest.resources (List.nodup_singleton _) ?_
    intro id hid hself
    obtain ⟨other, hother, rfl⟩ := List.mem_map.mp hid
    have hne := (List.mem_filter.mp hother).2
    rw [List.mem_singleton.mp hself] at hne
    simp at hne

theorem Sound.put (h : L.Sound) {r : Resource} (hr : Schema.Accepts .aardvark r)
    (ds : List Distribution) : (L.put r ds).Sound :=
  h.replace? hr (L.replace?_full r ds)

theorem Sound.extend? (h : L.Sound) {id : String} {ds : List Distribution} {extended : Ledger}
    (hextend : L.extend? id ds = some extended) : extended.Sound := by
  obtain ⟨placed, hplaced, rfl⟩ := Option.map_eq_some_iff.mp hextend
  exact ⟨h.accepted, h.resources, Placement.pairwise_append? h.placements hplaced, h.thumbnails,
    h.staticMaps⟩

theorem Sound.remove (h : L.Sound) (id : String) : (L.remove id).Sound :=
  have hrest := h.cleared id .full
  ⟨hrest.accepted, hrest.resources, hrest.placements,
    h.thumbnails.sublist (List.filter_sublist.map _),
    h.staticMaps.sublist (List.filter_sublist.map _)⟩

private theorem nodup_cached {entries : List (String × String)}
    (h : (entries.map Prod.fst).Nodup) (id url : String) :
    ((cached id url entries).map Prod.fst).Nodup := by
  rw [cached]
  split
  next =>
    have hkeys : (entries.map fun entry => if entry.1 == id then (id, url) else entry).map Prod.fst =
        entries.map Prod.fst := by
      rw [List.map_map]
      refine List.map_congr_left fun entry _ => ?_
      simp only [Function.comp_apply]
      split
      next hkey => exact (beq_iff_eq.mp hkey).symm
      next => rfl
    rwa [hkeys]
  next hnew =>
    rw [List.map_append, List.map_singleton]
    refine h.append (List.nodup_singleton _) ?_
    intro key hkey hself
    obtain ⟨entry, hentry, rfl⟩ := List.mem_map.mp hkey
    exact hnew (List.any_eq_true.mpr ⟨entry, hentry, beq_iff_eq.mpr (List.mem_singleton.mp hself)⟩)

theorem Sound.cacheThumbnail (h : L.Sound) (id url : String) : (L.cacheThumbnail id url).Sound :=
  ⟨h.accepted, h.resources, h.placements, nodup_cached h.thumbnails id url, h.staticMaps⟩

theorem Sound.cacheStaticMap (h : L.Sound) (id url : String) : (L.cacheStaticMap id url).Sound :=
  ⟨h.accepted, h.resources, h.placements, h.thumbnails, nodup_cached h.staticMaps id url⟩

end Ledger

end Gazetteer
