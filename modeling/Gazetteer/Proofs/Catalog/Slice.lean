import Mathlib
import Gazetteer.Proofs.Catalog.Dossier
import Gazetteer.Proofs.Catalog.Holdings
/-!
Slices: what a ledger holds under one id.  A write changes the slice of its own id by nothing but
that slice, and leaves the slices of the other ids.
-/

namespace Gazetteer

/-! The distributions of one resource -/

namespace Placement

theorem next?_filter (id : String) (placements : List Placement) :
    next? id (placements.filter fun p => p.id == id) = next? id placements := by
  rw [next?, next?, List.filter_filter]
  simp only [Bool.and_self]

/-- Where distributions are put depends on those of their own resource. -/
theorem append?_filter (id : String) (ds : List Distribution) (placements : List Placement) :
    append? id ds (placements.filter fun p => p.id == id) =
      (append? id ds placements).map (List.filter fun p => p.id == id) := by
  rw [append?, append?, next?_filter]
  split
  · rfl
  · rw [Option.map_map]
    exact congrArg (Option.map · _) (funext fun position =>
      (filter_place_self id ds placements position).symm)

end Placement

structure Slice where
  resource : Option Resource
  /-- The distributions with their positions, which no read shows but later writes go by. -/
  placements : List Placement
  thumbnail : Option String
  staticMap : Option String

namespace Slice

def empty : Slice :=
  ⟨none, [], none, none⟩

def put (m : Slice) (r : Resource) (ds : List Distribution) : Slice :=
  { m with resource := some r, placements := Placement.place r.id [] 0 ds }

/-- The slice with another resource beside its distributions.  If there is no position for further
ones, nothing changes. -/
def refresh (m : Slice) (r : Resource) (ds : List Distribution) : Slice :=
  match Placement.append? r.id ds m.placements with
  | some placed => { m with resource := some r, placements := placed }
  | none => m

def extend (m : Slice) (id : String) (ds : List Distribution) : Slice :=
  match Placement.append? id ds m.placements with
  | some placed => { m with placements := placed }
  | none => m

end Slice

namespace Ledger

/-- The ledger with a resource in the place of the one with its id, beside its distributions.  If
there is no position for further ones, nothing changes. -/
def refresh (L : Ledger) (r : Resource) (ds : List Distribution) : Ledger :=
  (L.replace? r ds .metadata).getD L

def extend (L : Ledger) (id : String) (ds : List Distribution) : Ledger :=
  (L.extend? id ds).getD L

def slice (L : Ledger) (id : String) : Slice where
  resource := L.resources.find? fun r => r.id == id
  placements := L.placements.filter fun p => p.id == id
  thumbnail := findEntry id L.thumbnails
  staticMap := findEntry id L.staticMaps

theorem Sound.refresh {L : Ledger} (h : L.Sound) {r : Resource} (hr : Schema.Accepts .aardvark r)
    (ds : List Distribution) : (L.refresh r ds).Sound := by
  rw [Ledger.refresh]
  cases hreplace : L.replace? r ds .metadata with
  | none => exact h
  | some M => exact h.replace? hr hreplace

theorem Sound.extend {L : Ledger} (h : L.Sound) (id : String) (ds : List Distribution) :
    (L.extend id ds).Sound := by
  rw [Ledger.extend]
  cases hextend : L.extend? id ds with
  | none => exact h
  | some M => exact h.extend? hextend

/-! Writes -/

variable (L : Ledger) (r : Resource) (ds : List Distribution) (id url other : String)

theorem slice_put : (L.put r ds).slice id =
    if id = r.id then (L.slice id).put r ds else L.slice id := by
  have hresources : (L.put r ds).resources.find? (fun other => other.id == id) =
      if id == r.id then some r else L.resources.find? fun other => other.id == id :=
    find?_without_append Resource.id L.resources r id
  rw [slice, hresources, placements_put]
  by_cases hid : id = r.id
  · rw [if_pos (beq_iff_eq.mpr hid), if_pos hid, if_pos hid]
    rfl
  · rw [if_neg (by simpa using hid), if_neg hid, if_neg hid]
    rfl

theorem slice_refresh : (L.refresh r ds).slice id =
    if id = r.id then (L.slice id).refresh r ds else L.slice id := by
  have hresources : ((L.cleared r.id .metadata).resources ++ [r]).find?
      (fun other => other.id == id) =
        if id == r.id then some r else L.resources.find? fun other => other.id == id :=
    find?_without_append Resource.id L.resources r id
  have hown := Placement.append?_filter r.id ds L.placements
  have hreplace : L.replace? r ds .metadata =
      (Placement.append? r.id ds L.placements).map fun placed =>
        { L.cleared r.id .metadata with
          resources := (L.cleared r.id .metadata).resources ++ [r]
          placements := placed } := rfl
  rw [refresh, hreplace]
  -- by `hown` the positions run out in the ledger just if they do in the slice
  cases happend : Placement.append? r.id ds L.placements with
  | none =>
      rw [happend] at hown
      split
      next hid =>
        subst hid
        have hnone : Placement.append? r.id ds (L.slice r.id).placements = none := hown
        rw [Slice.refresh, hnone]
        rfl
      next => rfl
  | some placed =>
      rw [happend] at hown
      split
      next hid =>
        subst hid
        rw [Slice.refresh, Option.map_some, Option.getD_some, slice, hresources, if_pos BEq.rfl,
          slice, hown]
        rfl
      next hid =>
        rw [Option.map_some, Option.getD_some, slice, hresources, if_neg (by simpa using hid),
          Placement.filter_append?_of_ne hid happend]
        rfl

theorem slice_extend : (L.extend id ds).slice other =
    if other = id then (L.slice other).extend id ds else L.slice other := by
  have hown := Placement.append?_filter id ds L.placements
  rw [extend, extend?]
  cases happend : Placement.append? id ds L.placements with
  | none =>
      rw [happend] at hown
      split
      next hid =>
        subst hid
        have hnone : Placement.append? other ds (L.slice other).placements = none := hown
        rw [Slice.extend, hnone]
        rfl
      next => rfl
  | some placed =>
      rw [happend] at hown
      split
      next hid =>
        subst hid
        rw [Slice.extend, slice, slice, hown]
        rfl
      next hid =>
        rw [Option.map_some, Option.getD_some, slice, Placement.filter_append?_of_ne hid happend]
        rfl

theorem slice_remove : (L.remove id).slice other =
    if other = id then Slice.empty else L.slice other := by
  have hresources : (L.remove id).resources.find? (fun r => r.id == other) =
      if other == id then none else L.resources.find? fun r => r.id == other :=
    find?_without Resource.id L.resources id other
  have hplacements : (L.remove id).placements.filter (fun p => p.id == other) =
      if other == id then [] else L.placements.filter fun p => p.id == other :=
    filter_without Placement.id L.placements id other
  rw [slice, hresources, hplacements, remove, findEntry_without, findEntry_without]
  by_cases hid : other = id
  · simp only [beq_iff_eq.mpr hid, if_true, if_pos hid]
    rfl
  · simp only [beq_false_of_ne hid, Bool.false_eq_true, if_false, if_neg hid]
    rfl

theorem slice_cacheThumbnail : (L.cacheThumbnail id url).slice other =
    if other = id then { L.slice other with thumbnail := some url } else L.slice other := by
  rw [slice, cacheThumbnail, findEntry_cached]
  split <;> rfl

theorem slice_cacheStaticMap : (L.cacheStaticMap id url).slice other =
    if other = id then { L.slice other with staticMap := some url } else L.slice other := by
  rw [slice, cacheStaticMap, findEntry_cached]
  split <;> rfl

end Ledger

end Gazetteer
