import Mathlib
import Gazetteer.Proofs.Catalog.Access
import Gazetteer.Proofs.Catalog.Edit
/-!
Holdings: a map from ids to what is held under them.  A run of edits answers as if it were made on
holdings.
-/

namespace Gazetteer

structure Description where
  scalars : Dict String
  repeatables : Dict (List String)
  distributions : List Distribution

namespace Description

/-- The values of a field without blank and repeated ones; nothing if none is left. -/
def values? (given : List String) : Option (List String) :=
  let kept := (given.filter fun value => !Text.allBlank value).eraseDups
  if kept = [] then none else some kept

def ofWritten (r : Resource) (ds : List Distribution) : Description where
  scalars := r.scalars
  repeatables := r.repeatables.filterMap values?
  distributions := ds.eraseDupsBy Distribution.sameAccess

end Description

structure Holding where
  description : Option Description
  thumbnail : Option String
  staticMap : Option String

def Holding.resource? (h : Holding) (id : String) : Option Resource :=
  h.description.map fun d =>
    { id := id
      scalars := d.scalars
      repeatables := d.repeatables
      distributions := d.distributions
      geometry := (d.scalars.get? boxField).bind Envelope.parse?
      thumbnail := h.thumbnail }

abbrev Holdings :=
  Dict Holding

namespace Holdings

def under (H : Holdings) (id : String) : Holding :=
  (H.get? id).getD ⟨none, none, none⟩

def upsert (H : Holdings) (r : Resource) (ds : List Distribution) : Except Error Holdings :=
  (Schema.check .aardvark r).map fun _ =>
    H.insert r.id { H.under r.id with description := some (.ofWritten r ds) }

def edit (H : Holdings) (config : Config) : Edit → Except Error (Holdings × Option Bool)
  | .upsert r ds => (H.upsert r ds).map (·, none)
  | .upsertRecord record =>
      match Record.read .aardvark config record with
      | .error e => .error e
      | .ok written => (H.upsert written.1 written.2).map (·, none)
  | .delete id =>
      if Text.allBlank id then .error (.invalid .idRequired)
      else .ok (H.erase id, some (H.under id).description.isSome)
  | .cacheThumbnail id url =>
      .ok (H.insert id { H.under id with thumbnail := some url }, none)
  | .cacheStaticMap id url =>
      .ok (H.insert id { H.under id with staticMap := some url }, none)

def run (H : Holdings) (config : Config) (edits : List Edit) : Holdings :=
  edits.foldl (fun H e => stateAfter H (H.edit config e)) H

def get (H : Holdings) (id : String) : Except Error Resource :=
  match (H.under id).resource? id with
  | some r => .ok r
  | none => .error (.notFound id)

def count (H : Holdings) : Nat :=
  (H.entries.filter fun entry => entry.2.description.isSome).length

end Holdings

/-! Holdings of a ledger -/

namespace Placement

theorem filter_place_of_ne {id other : String} (hother : other ≠ id)
    (ds : List Distribution) (placements : List Placement) (position : Int) :
    (place id placements position ds).filter (fun p => p.id == other) =
      placements.filter fun p => p.id == other := by
  induction ds generalizing placements position with
  | nil => rfl
  | cons d rest ih =>
      rw [place, ih]
      split
      · rfl
      · rw [List.filter_append]
        simp [Ne.symm hother]

private theorem any_clashes (id : String) (d : Distribution) (placements : List Placement) :
    placements.any (clashes id d) =
      ((placements.filter fun p => p.id == id).map distribution).reverse.any d.sameAccess := by
  rw [List.any_reverse, List.any_map, List.any_filter]
  congr 1
  funext p
  simp only [clashes, Distribution.sameAccess, Function.comp_apply, Bool.and_assoc,
    Bool.beq_comm (a := id)]

private theorem filter_place (id : String) (ds : List Distribution) (placements : List Placement)
    (position : Int) :
    ((place id placements position ds).filter fun p => p.id == id).map distribution =
      List.eraseDupsBy.loop Distribution.sameAccess ds
        ((placements.filter fun p => p.id == id).map distribution).reverse := by
  induction ds generalizing placements position with
  | nil =>
      rw [place, List.eraseDupsBy.loop, List.reverse_reverse]
  | cons d rest ih =>
      rw [place, ih, List.eraseDupsBy.loop, any_clashes]
      cases ((placements.filter fun p => p.id == id).map distribution).reverse.any d.sameAccess with
      | true => rfl
      | false => simp

end Placement

namespace Ledger

variable {L : Ledger} {H : Holdings}

def description? (L : Ledger) (id : String) : Option Description :=
  (L.resources.find? fun r => r.id == id).map fun r =>
    ⟨r.scalars, r.repeatables.filterMap Description.values?,
      (L.placements.filter fun p => p.id == id).map Placement.distribution⟩

def holding (L : Ledger) (id : String) : Holding :=
  ⟨L.description? id, findEntry id L.thumbnails, findEntry id L.staticMaps⟩

/-- Holdings that have under every id what the ledger has. -/
def Represents (L : Ledger) (H : Holdings) : Prop :=
  ∀ id, H.under id = L.holding id

theorem represents_empty : empty.Represents .empty :=
  fun _ => rfl

theorem findEntry_cached (id url other : String) (entries : List (String × String)) :
    findEntry other (cached id url entries) =
      if other = id then some url else findEntry other entries := by
  rw [cached]
  cases hany : entries.any fun entry => entry.1 == id with
  | true =>
      have hchanged : (entries.map fun entry => if entry.1 == id then (id, url) else entry) =
          entries.map fun entry => (entry.1, if entry.1 = id then url else entry.2) :=
        List.map_congr_left fun entry _ => by
          by_cases hentry : entry.1 = id <;> simp [hentry]
      rw [if_pos rfl, hchanged, findEntry_map_entry fun key value => if key = id then url else value]
      split
      next heq =>
        obtain ⟨entry, hentry, hid⟩ := List.any_eq_true.mp hany
        have hfound : findEntry other entries ≠ none := fun hnone =>
          findEntry_eq_none_iff.mp hnone (heq ▸ beq_iff_eq.mp hid ▸ List.mem_map_of_mem hentry)
        obtain ⟨value, hvalue⟩ := Option.ne_none_iff_exists'.mp hfound
        rw [hvalue]
        rfl
      next => exact Option.map_id'
  | false =>
      have hnone : findEntry id entries = none := by
        rw [findEntry, Option.map_eq_none_iff, List.find?_eq_none]
        exact List.any_eq_false.mp hany
      rw [if_neg Bool.false_ne_true, findEntry_append, findEntry_cons]
      by_cases hother : other = id
      · rw [hother, hnone, if_pos rfl, if_pos rfl, Option.none_or]
      · rw [if_neg (Ne.symm hother), if_neg hother]
        exact Option.or_none

theorem holding_put (L : Ledger) (r : Resource) (ds : List Distribution) (id : String) :
    (L.put r ds).holding id =
      if id = r.id then { L.holding id with description := some (.ofWritten r ds) }
      else L.holding id := by
  have hresources : (L.put r ds).resources.find? (fun other => other.id == id) =
      if id == r.id then some r else L.resources.find? fun other => other.id == id :=
    find?_without_append Resource.id L.resources r id
  have hothers : (L.cleared r.id .full).placements.filter (fun p => p.id == id) =
      if id == r.id then [] else L.placements.filter fun p => p.id == id :=
    filter_without Placement.id L.placements r.id id
  by_cases hid : id = r.id
  · have hplaces : ((L.put r ds).placements.filter fun p => p.id == id).map
        Placement.distribution = ds.eraseDupsBy Distribution.sameAccess := by
      subst hid
      refine (Placement.filter_place r.id ds _ 0).trans ?_
      rw [hothers, if_pos BEq.rfl]
      rfl
    rw [if_pos hid, holding, description?, hresources, if_pos (beq_iff_eq.mpr hid),
      Option.map_some, hplaces]
    rfl
  · have hplaces : (L.put r ds).placements.filter (fun p => p.id == id) =
        L.placements.filter fun p => p.id == id := by
      refine (Placement.filter_place_of_ne hid ds _ 0).trans ?_
      rw [hothers, if_neg (by simpa using hid)]
    rw [if_neg hid, holding, description?, hresources, if_neg (by simpa using hid), hplaces]
    rfl

theorem findEntry_without (id other : String) (entries : List (String × String)) :
    findEntry other (entries.filter fun entry => entry.1 != id) =
      if other == id then none else findEntry other entries := by
  rw [findEntry, find?_without]
  cases other == id <;> rfl

private theorem holding_remove (L : Ledger) (id other : String) :
    (L.remove id).holding other = if other = id then ⟨none, none, none⟩ else L.holding other := by
  have hresources : (L.remove id).resources.find? (fun r => r.id == other) =
      if other == id then none else L.resources.find? fun r => r.id == other :=
    find?_without Resource.id L.resources id other
  have hplacements : (L.remove id).placements.filter (fun p => p.id == other) =
      if other == id then [] else L.placements.filter fun p => p.id == other :=
    filter_without Placement.id L.placements id other
  have hthumbnail := findEntry_without id other L.thumbnails
  have hstaticMap := findEntry_without id other L.staticMaps
  by_cases hother : other = id
  · rw [if_pos (beq_iff_eq.mpr hother)] at hresources hthumbnail hstaticMap
    rw [if_pos hother, holding, description?, hresources]
    simp only [remove, hthumbnail, hstaticMap, Option.map_none]
  · rw [if_neg (by simpa using hother)] at hresources hplacements hthumbnail hstaticMap
    rw [if_neg hother, holding, description?, hresources, hplacements]
    simp only [remove, hthumbnail, hstaticMap, holding, description?]

private theorem under_insert (H : Holdings) (id other : String) (h : Holding) :
    Holdings.under (H.insert id h) other = if other = id then h else H.under other := by
  rw [Holdings.under, Dict.get?_insert]
  split <;> rfl

theorem Represents.put (h : L.Represents H) (r : Resource) (ds : List Distribution) :
    (L.put r ds).Represents
      (H.insert r.id { H.under r.id with description := some (.ofWritten r ds) }) := by
  intro id
  rw [under_insert, holding_put, h id]
  split
  next heq => rw [heq, h r.id]
  next => rfl

theorem Represents.remove (h : L.Represents H) (id : String) :
    (L.remove id).Represents (H.erase id) := by
  intro other
  rw [holding_remove, ← h other, Holdings.under, Dict.get?_erase]
  by_cases hother : other = id
  · rw [if_pos hother, if_pos (beq_iff_eq.mpr hother)]
    rfl
  · rw [if_neg hother, if_neg (by simpa using hother)]
    rfl

theorem Represents.cacheThumbnail (h : L.Represents H) (id url : String) :
    (L.cacheThumbnail id url).Represents
      (H.insert id { H.under id with thumbnail := some url }) := by
  intro other
  rw [under_insert, h id, h other]
  simp only [holding, Ledger.cacheThumbnail, findEntry_cached]
  split
  next heq => rw [heq]; rfl
  next => rfl

theorem Represents.cacheStaticMap (h : L.Represents H) (id url : String) :
    (L.cacheStaticMap id url).Represents
      (H.insert id { H.under id with staticMap := some url }) := by
  intro other
  rw [under_insert, h id, h other]
  simp only [holding, Ledger.cacheStaticMap, findEntry_cached]
  split
  next heq => rw [heq]; rfl
  next => rfl

theorem Represents.has (h : L.Represents H) (id : String) :
    (H.under id).description.isSome = L.has id := by
  rw [h id, holding, description?, Option.isSome_map, Ledger.has, List.isSome_find?]

private theorem Represents.upsert (h : L.Represents H) (r : Resource) (ds : List Distribution) :
    ((L.upsert r ds).map (·, none)).map Prod.snd =
        (((H.upsert r ds).map (·, none)).map Prod.snd : Except Error (Option Bool)) ∧
      (stateAfter L ((L.upsert r ds).map (·, (none : Option Bool)))).Represents
        (stateAfter H ((H.upsert r ds).map (·, (none : Option Bool)))) := by
  rw [Ledger.upsert, Holdings.upsert]
  cases Schema.check .aardvark r with
  | error e => exact ⟨rfl, h⟩
  | ok => exact ⟨rfl, h.put r ds⟩

/-- An edit answers alike on a ledger and on its holdings, and what it makes of them agrees. -/
theorem Represents.edit (h : L.Represents H) (config : Config) (e : Edit) :
    (L.edit config e).map Prod.snd = (H.edit config e).map Prod.snd ∧
      (stateAfter L (L.edit config e)).Represents (stateAfter H (H.edit config e)) := by
  cases e with
  | upsert r ds => exact h.upsert r ds
  | upsertRecord record =>
      rw [Ledger.edit, Holdings.edit]
      cases Record.read .aardvark config record with
      | error e => exact ⟨rfl, h⟩
      | ok written => exact h.upsert written.1 written.2
  | delete id =>
      rw [Ledger.edit, Holdings.edit, h.has]
      cases Text.allBlank id with
      | true => exact ⟨rfl, h⟩
      | false => exact ⟨rfl, h.remove id⟩
  | cacheThumbnail id url => exact ⟨rfl, h.cacheThumbnail id url⟩
  | cacheStaticMap id url => exact ⟨rfl, h.cacheStaticMap id url⟩

theorem Represents.count (h : L.Represents H) (hsound : L.Sound) :
    H.count = L.resources.length := by
  have hkeys : ((H.entries.filter fun entry => entry.2.description.isSome).map Prod.fst).Nodup :=
    (Dict.nodup_keys H).sublist (List.filter_sublist.map _)
  have hmem (id : String) :
      id ∈ (H.entries.filter fun entry => entry.2.description.isSome).map Prod.fst ↔
        id ∈ L.resources.map Resource.id := by
    have hhas : L.has id = true ↔ id ∈ L.resources.map Resource.id := by
      simp [Ledger.has]
    rw [← hhas, ← h.has, List.mem_map]
    constructor
    · rintro ⟨entry, hentry, rfl⟩
      obtain ⟨hentry, hdescribed⟩ := List.mem_filter.mp hentry
      have hget : H.get? entry.1 = some entry.2 := Dict.mem_entries_iff.mp hentry
      rwa [Holdings.under, hget]
    · intro hdescribed
      cases hget : H.get? id with
      | none =>
          rw [Holdings.under, hget] at hdescribed
          exact absurd hdescribed Bool.false_ne_true
      | some held =>
          rw [Holdings.under, hget] at hdescribed
          exact ⟨(id, held), List.mem_filter.mpr ⟨Dict.mem_entries_iff.mpr hget, hdescribed⟩, rfl⟩
  have hperm := (List.perm_ext_iff_of_nodup hkeys hsound.resources).mpr hmem
  simpa [Holdings.count] using hperm.length_eq

end Ledger

/-! Runs -/

namespace Catalog

/-- Answers that agree, the geometry as numbers. -/
def SameAnswer : Except Error Resource → Except Error Resource → Prop
  | .ok a, .ok b =>
      { a with geometry := none } = { b with geometry := none } ∧
        Option.Rel (fun e f => e.sameNumbers f = true) a.geometry b.geometry
  | .error a, .error b => a = b
  | _, _ => False

variable {c : Catalog} {L : Ledger} {H : Holdings}

private theorem sameAnswer_get (hc : c.database = some L.database) (h : L.Sound)
    (hH : L.Represents H) (id : String) : SameAnswer (c.get id) (H.get id) := by
  rw [get_database hc h, Holdings.get, hH id, Holding.resource?, Ledger.holding,
    Ledger.description?, Ledger.resource?]
  cases hr : L.resources.find? fun r => r.id == id with
  | none => rfl
  | some r =>
      have hid : r.id = id := by simpa using List.find?_some hr
      refine ⟨?_, ?_⟩
      · subst hid
        rfl
      · change Option.Rel _ r.envelope? (r.boxText?.bind Envelope.parse?)
        rw [Resource.envelope?]
        cases hparse : r.boxText?.bind Envelope.parse? with
        | none => exact .none
        | some e =>
            obtain ⟨text, -, htext⟩ := Option.bind_eq_some_iff.mp hparse
            exact .some (Envelope.isFinite_of_parse? htext).stored_sameNumbers

private theorem represents_run (config : Config) (sink : Option Sink) (edits : List Edit) :
    ∃ L : Ledger, L.Sound ∧ L.Represents (Holdings.run .empty config edits) ∧
      ((fresh config sink).run edits).database = some L.database ∧
        ((fresh config sink).run edits).config = config := by
  induction edits using List.reverseRecOn with
  | nil =>
      exact ⟨.empty, Ledger.sound_empty, Ledger.represents_empty, fresh_database config sink, rfl⟩
  | append_singleton edits e ih =>
      obtain ⟨L, hsound, hH, hc, hconfig⟩ := ih
      have hedit := hH.edit config e
      refine ⟨stateAfter L (L.edit config e), ?_, ?_, ?_⟩
      · cases hresult : L.edit config e with
        | error _ => exact hsound
        | ok changed => exact hsound.edit hresult
      · rw [Holdings.run, List.foldl_append]
        exact hedit.2
      · rw [run_concat, edit_database hc, hconfig]
        cases L.edit config e with
        | error _ => exact ⟨hc, hconfig⟩
        | ok changed => exact ⟨rfl, hconfig⟩

/-- The catalog refines a map from ids to what is held under them: after any run of edits, some of
which may fail, it answers every question and every further edit as the map does. -/
theorem answers_of_run (config : Config) (sink : Option Sink) (edits : List Edit) :
    let c := (fresh config sink).run edits
    let H := Holdings.run .empty config edits
    (∀ id, SameAnswer (c.get id) (H.get id)) ∧ c.count = .ok H.count ∧
      (∀ id, c.staticMap? id = .ok (H.under id).staticMap) ∧
        ∀ e, (c.edit e).map Prod.snd = (H.edit config e).map Prod.snd := by
  obtain ⟨L, hsound, hH, hc, hconfig⟩ := represents_run config sink edits
  refine ⟨sameAnswer_get hc hsound hH, ?_, fun id => ?_, fun e => ?_⟩
  · simp only [count, read, hc, Ledger.count_database, engineResult, hH.count hsound]
  · simp only [staticMap?, read, hc, Ledger.staticMap?_database hsound, engineResult, hH id]
    rfl
  · rw [edit_database hc, hconfig, ← (hH.edit config e).1]
    cases L.edit config e <;> rfl

end Catalog

end Gazetteer
