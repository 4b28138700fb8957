import Mathlib
import Gazetteer.Proofs.Catalog.Bulk
/-!
Dossiers: what a database shows of each id.  Refreshing a resource changes one dossier and leaves
the others.
-/

namespace Gazetteer

open Layout

/-- All that a database has under one id. -/
structure Dossier where
  /-- The scalars and the repeatables of the resource, if there is one. -/
  metadata : Option (Dict String × Dict (List String))
  content : Option String
  distributions : List Distribution
  thumbnail : Option String
  staticMap : Option String

namespace Dossier

def resource? (m : Dossier) (id : String) : Option Resource :=
  m.metadata.map fun (scalars, repeatables) =>
    { id := id
      scalars := scalars
      repeatables := repeatables
      distributions := m.distributions
      geometry := ((scalars.get? boxField).bind Envelope.parse?).map Envelope.stored
      thumbnail := m.thumbnail }

/-- The dossier with the metadata of a resource in the place of its own, and with those of some
distributions that it did not have. -/
def refreshed (m : Dossier) (r : Resource) (ds : List Distribution) : Dossier :=
  { m with
    metadata := some (r.scalars, r.repeatables)
    content := some (Schema.searchContent .aardvark r)
    distributions := m.distributions ++
      Distribution.newcomers (fun d => m.distributions.any d.sameAccess) ds }

end Dossier

/-- What the tables have under an id, read by the operations of the database where there are any. -/
structure Database.Shows (db : Database) (id : String) (m : Dossier) : Prop where
  resource : db.hydrate [id] = .ok (m.resource? id).toList
  content : ((db.rows searchTexts).filter fun row => row.cell "id" == .text id).map
    (fun row => row.cell "content") = (m.content.map Cell.text).toList
  distributions : (db.readDistributions [id]).map (List.map Prod.snd) = .ok m.distributions
  thumbnail : ((db.rows thumbnails).filter fun row => row.cell "id" == .text id).map
    (fun row => row.cell "thumbnail_url") = (m.thumbnail.map Cell.text).toList
  staticMap : db.staticMap? id = .ok m.staticMap

/-! Distributions put after those that are there -/

namespace Placement

theorem any_clashes_eq (id : String) (d : Distribution) (placements : List Placement) :
    placements.any (clashes id d) =
      ((placements.filter fun p => p.id == id).map distribution).any d.sameAccess := by
  rw [List.any_map, List.any_filter]
  refine congrArg placements.any (funext fun p => ?_)
  simp only [clashes, Distribution.sameAccess, Function.comp_apply, Bool.and_assoc,
    Bool.beq_comm (a := id)]

theorem map_filter_place (id : String) (ds : List Distribution) (placements : List Placement)
    (position : Int) :
    ((place id placements position ds).filter fun p => p.id == id).map distribution =
      (placements.filter fun p => p.id == id).map distribution ++
        Distribution.newcomers
          (fun d => ((placements.filter fun p => p.id == id).map distribution).any d.sameAccess)
          ds := by
  induction ds generalizing placements position with
  | nil => simp [place, Distribution.newcomers]
  | cons d rest ih =>
      rw [place, ih, Distribution.newcomers, any_clashes_eq]
      split
      · rfl
      · simp

variable {id : String} {ds : List Distribution} {placements placed : List Placement}

theorem map_filter_append? (h : append? id ds placements = some placed) :
    (placed.filter fun p => p.id == id).map distribution =
      (placements.filter fun p => p.id == id).map distribution ++
        Distribution.newcomers
          (fun d => ((placements.filter fun p => p.id == id).map distribution).any d.sameAccess)
          ds := by
  obtain ⟨position, rfl⟩ := exists_place_of_append? h
  exact map_filter_place id ds placements position

theorem filter_append?_of_ne {other : String} (hother : other ≠ id)
    (h : append? id ds placements = some placed) :
    placed.filter (fun p => p.id == other) = placements.filter fun p => p.id == other := by
  obtain ⟨position, rfl⟩ := exists_place_of_append? h
  exact filter_place_of_ne hother ds placements position

end Placement

namespace Ledger

variable {L M : Ledger}

def dossier (L : Ledger) (id : String) : Dossier where
  metadata := (L.resources.find? fun r => r.id == id).map fun r =>
    (r.scalars, r.repeatables.filterMap Resource.kept?)
  content := (L.resources.find? fun r => r.id == id).map (Schema.searchContent .aardvark)
  distributions := (L.placements.filter fun p => p.id == id).map Placement.distribution
  thumbnail := findEntry id L.thumbnails
  staticMap := findEntry id L.staticMaps

private theorem map_find?_row {α : Type} {row : α → Row} {column valueColumn : String}
    {keyOf : α → String} {valueOf : α → String} (hkey : ∀ a, (row a).cell column = .text (keyOf a))
    (hvalue : ∀ a, (row a).cell valueColumn = .text (valueOf a)) {items : List α}
    (hnodup : (items.map keyOf).Nodup) (id : String) :
    (((items.map row).filter fun r => r.cell column == .text id).map fun r => r.cell valueColumn) =
      (((items.find? fun a => keyOf a == id).map valueOf).map Cell.text).toList := by
  rw [filter_rows hkey, filter_key hnodup, List.map_map]
  cases items.find? fun a => keyOf a == id with
  | none => rfl
  | some a => simp [hvalue]

theorem rows_thumbnails (L : Ledger) : L.database.rows Layout.thumbnails =
    L.thumbnails.map (cacheRow .thumbnails "thumbnail_url") :=
  Contents.rows_database L.contents .thumbnails

theorem rows_staticMaps (L : Ledger) : L.database.rows Layout.staticMaps =
    L.staticMaps.map (cacheRow .staticMaps "image_url") :=
  Contents.rows_database L.contents .staticMaps

theorem resource?_dossier (L : Ledger) (id : String) :
    (L.dossier id).resource? id = L.resource? id := by
  rw [Dossier.resource?, dossier, resource?]
  cases hfind : L.resources.find? fun r => r.id == id with
  | none => rfl
  | some r =>
      obtain rfl : r.id = id := by simpa using List.find?_some hfind
      rfl

theorem Sound.shows (h : L.Sound) (id : String) : L.database.Shows id (L.dossier id) where
  resource := by
    have hone : [id].eraseDups = [id] := rfl
    rw [hydrate_database h, hone, resource?_dossier]
    cases hresource : L.resource? id <;> simp [hresource]
  content := by
    rw [rows_searchTexts]
    exact map_find?_row (fun _ => Resource.searchRow_id) (fun _ => Resource.searchRow_content)
      h.resources id
  distributions := by
    obtain ⟨found, hfound, hids, hfilter⟩ := readDistributions_database h [id]
    have hown : found.filter (fun entry => entry.1 == id) = found :=
      List.filter_eq_self.mpr fun entry hentry => by simpa using hids entry hentry
    rw [hfound, Except.map, ← hown, hfilter id (by simp), List.map_map]
    rfl
  thumbnail := by
    rw [rows_thumbnails]
    exact map_find?_row thumbnailRow_id thumbnailRow_url h.thumbnails id
  staticMap := staticMap?_database h id

theorem dossier_replace? {r : Resource} {ds : List Distribution}
    (hkept : r.repeatables.filterMap Resource.kept? = r.repeatables)
    (h : L.replace? r ds .metadata = some M) :
    M.dossier = Function.update L.dossier r.id ((L.dossier r.id).refreshed r ds) := by
  obtain ⟨placed, hplaced, rfl⟩ := Option.map_eq_some_iff.mp h
  have hresources (id : String) :
      ((L.cleared r.id .metadata).resources ++ [r]).find? (fun other => other.id == id) =
        if id == r.id then some r else L.resources.find? fun other => other.id == id :=
    find?_without_append Resource.id L.resources r id
  funext id
  by_cases hid : id = r.id
  · subst hid
    rw [Function.update_self, dossier, hresources, if_pos BEq.rfl,
      Placement.map_filter_append? hplaced, Option.map_some, Option.map_some, hkept]
    rfl
  · rw [Function.update_of_ne hid, dossier, hresources, if_neg (by simpa using hid),
      Placement.filter_append?_of_ne hid hplaced]
    rfl

theorem storedFor_replace? {r : Resource} {ds : List Distribution}
    (h : L.replace? r ds .metadata = some M) {id : String} (hid : id ≠ r.id) :
    M.database.storedFor id = L.database.storedFor id := by
  obtain ⟨placed, hplaced, rfl⟩ := Option.map_eq_some_iff.mp h
  refine storedFor_congr ?_ (Placement.filter_append?_of_ne hid hplaced)
  have hothers : (L.cleared r.id .metadata).resources.filter (fun other => other.id == id) =
      if id == r.id then [] else L.resources.filter fun other => other.id == id :=
    filter_without Resource.id L.resources r.id id
  rw [List.filter_append, hothers, if_neg (by simpa using hid)]
  simp [Ne.symm hid]

end Ledger

end Gazetteer
