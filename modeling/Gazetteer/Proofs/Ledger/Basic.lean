import Mathlib
import Gazetteer.Proofs.Ledger.Rows
/-!
Ledgers: what a catalog holds, told apart from the rows in which it is stored.  Every write on the
database of a ledger gives the database of another ledger.
-/

namespace Gazetteer

open Layout

namespace Placement

/-- Whether a distribution of the same resource agrees in relation, address and label. -/
def clashes (id : String) (d : Distribution) (p : Placement) : Bool :=
  id == p.id && d.relation == p.distribution.relation && d.url == p.distribution.url &&
    d.label.getD "" == p.distribution.label.getD ""

/-- The position after those that a resource has taken, if it can be stored. -/
def next? (id : String) (placements : List Placement) : Option Int :=
  match ((placements.filter fun p => p.id == id).map Placement.position).max? with
  | none => some 0
  | some last => (some (last + 1)).filter Cell.isWord

/-- Distributions put at ascending positions, those left out that clash with an earlier one. -/
def place (id : String) (placements : List Placement) (position : Int) :
    List Distribution → List Placement
  | [] => placements
  | d :: rest =>
      place id
        (if placements.any (clashes id d) then placements else placements ++ [⟨id, d, position⟩])
        (position + 1) rest

theorem prefix_place (id : String) (ds : List Distribution) (placements : List Placement)
    (position : Int) : placements <+: place id placements position ds := by
  induction ds generalizing placements position with
  | nil => exact List.prefix_rfl
  | cons d rest ih =>
      rw [place]
      split
      · exact ih placements (position + 1)
      · exact (List.prefix_append _ _).trans (ih _ (position + 1))

def append? (id : String) (ds : List Distribution) (placements : List Placement) :
    Option (List Placement) :=
  if ds.isEmpty then some placements
  else (next? id placements).map fun position => place id placements position ds

theorem exists_place_of_append? {id : String} {ds : List Distribution}
    {placements placed : List Placement} (h : append? id ds placements = some placed) :
    ∃ position, placed = place id placements position ds := by
  rw [append?] at h
  split at h
  next hnone =>
    rw [List.isEmpty_iff.mp hnone]
    exact ⟨0, (Option.some_inj.mp h).symm⟩
  next =>
    obtain ⟨position, -, hplaced⟩ := Option.map_eq_some_iff.mp h
    exact ⟨position, hplaced.symm⟩

end Placement

structure Ledger where
  /-- The resources as they were written, in the order of the writes. -/
  resources : List Resource
  placements : List Placement
  thumbnails : List (String × String)
  staticMaps : List (String × String)
deriving DecidableEq

namespace Ledger

def empty : Ledger :=
  ⟨[], [], [], []⟩

def contents (L : Ledger) : Contents
  | .resources => L.resources.map Resource.scalarRow
  | .attributes => (L.resources.flatMap Resource.attributes).map attributeRow
  | .distributions => L.placements.map Placement.row
  | .searchTexts => L.resources.map Resource.searchRow
  | .thumbnails => L.thumbnails.map (cacheRow .thumbnails "thumbnail_url")
  | .staticMaps => L.staticMaps.map (cacheRow .staticMaps "image_url")

def database (L : Ledger) : Database :=
  L.contents.database

theorem rows_resources (L : Ledger) :
    L.database.rows Layout.resources = L.resources.map Resource.scalarRow :=
  Contents.rows_database L.contents .resources

theorem rows_attributes (L : Ledger) :
    L.database.rows Layout.attributes = (L.resources.flatMap Resource.attributes).map attributeRow :=
  Contents.rows_database L.contents .attributes

theorem rows_distributions (L : Ledger) :
    L.database.rows Layout.distributions = L.placements.map Placement.row :=
  Contents.rows_database L.contents .distributions

theorem rows_searchTexts (L : Ledger) :
    L.database.rows Layout.searchTexts = L.resources.map Resource.searchRow :=
  Contents.rows_database L.contents .searchTexts

def cached (id url : String) (entries : List (String × String)) : List (String × String) :=
  if entries.any fun entry => entry.1 == id then
    entries.map fun entry => if entry.1 == id then (id, url) else entry
  else entries ++ [(id, url)]

def cacheThumbnail (L : Ledger) (id url : String) : Ledger :=
  { L with thumbnails := cached id url L.thumbnails }

def cacheStaticMap (L : Ledger) (id url : String) : Ledger :=
  { L with staticMaps := cached id url L.staticMaps }

/-- The ledger without the resource of an id, and without its distributions if the extent is full. -/
def cleared (L : Ledger) (id : String) (extent : Replacement) : Ledger :=
  { L with
    resources := L.resources.filter fun r => r.id != id
    placements :=
      match extent with
      | .full => L.placements.filter fun p => p.id != id
      | .metadata => L.placements }

def replace? (L : Ledger) (r : Resource) (ds : List Distribution) (extent : Replacement) :
    Option Ledger :=
  let rest := L.cleared r.id extent
  (Placement.append? r.id ds rest.placements).map fun placed =>
    { rest with resources := rest.resources ++ [r], placements := placed }

/-- The ledger with a resource and its distributions in the place of what it held for the id. -/
def put (L : Ledger) (r : Resource) (ds : List Distribution) : Ledger :=
  { L.cleared r.id .full with
    resources := (L.cleared r.id .full).resources ++ [r]
    placements := Placement.place r.id (L.cleared r.id .full).placements 0 ds }

/-- A full replacement always finds a position, since no distribution of the resource is left. -/
theorem replace?_full (L : Ledger) (r : Resource) (ds : List Distribution) :
    L.replace? r ds .full = some (L.put r ds) := by
  have hnone : (L.cleared r.id .full).placements.filter (fun p => p.id == r.id) = [] := by
    rw [List.filter_eq_nil_iff]
    intro p hp
    simpa using (List.mem_filter.mp hp).2
  have hnext : Placement.next? r.id (L.cleared r.id .full).placements = some 0 := by
    rw [Placement.next?, hnone]
    rfl
  rw [replace?, Placement.append?, hnext]
  cases ds <;> rfl

def extend? (L : Ledger) (id : String) (ds : List Distribution) : Option Ledger :=
  (Placement.append? id ds L.placements).map fun placed => { L with placements := placed }

def remove (L : Ledger) (id : String) : Ledger :=
  { L.cleared id .full with
    thumbnails := L.thumbnails.filter fun entry => entry.1 != id
    staticMaps := L.staticMaps.filter fun entry => entry.1 != id }

def has (L : Ledger) (id : String) : Bool :=
  L.resources.any fun r => r.id == id

end Ledger

end Gazetteer
