import Mathlib
import Gazetteer.Proofs.Catalog.Tabular
/-!
Tables imported twice: the second import finds all that it would add, and puts every resource where
it stands already.
-/

namespace Gazetteer

open Layout

/-! Items put last -/

section

variable {α κ : Type} [BEq κ] (keyOf : α → κ)

/-- An item put behind the others, in the place of those with its key. -/
def putLast (items : List α) (a : α) : List α :=
  items.filter (fun b => keyOf b != keyOf a) ++ [a]

private theorem foldl_putLast (added items : List α) :
    added.foldl (putLast keyOf) items =
      items.filter (fun b => added.all fun a => keyOf b != keyOf a) ++
        added.foldl (putLast keyOf) [] := by
  induction added generalizing items with
  | nil => simp
  | cons a rest ih =>
      have hnone : putLast keyOf [] a = [a] := rfl
      rw [List.foldl_cons, List.foldl_cons, ih, ih (putLast keyOf [] a), hnone, putLast,
        List.filter_append, List.filter_filter, List.append_assoc]
      simp only [List.all_cons, Bool.and_comm]

private theorem mem_foldl_putLast {added : List α} {b : α}
    (h : b ∈ added.foldl (putLast keyOf) []) : b ∈ added := by
  induction added using List.reverseRecOn with
  | nil => exact h
  | append_singleton rest a ih =>
      rw [List.foldl_append, List.foldl_cons, List.foldl_nil, putLast] at h
      refine List.mem_append.mpr ((List.mem_append.mp h).imp (fun hkept => ?_) id)
      exact ih (List.mem_filter.mp hkept).1

theorem foldl_putLast_again [LawfulBEq κ] (added items : List α) :
    added.foldl (putLast keyOf) (added.foldl (putLast keyOf) items) =
      added.foldl (putLast keyOf) items := by
  have hnone : (added.foldl (putLast keyOf) []).filter
      (fun b => added.all fun a => keyOf b != keyOf a) = [] := by
    refine List.filter_eq_nil_iff.mpr fun b hb hall => ?_
    have hself := List.all_eq_true.mp hall b (mem_foldl_putLast keyOf hb)
    simp at hself
  rw [foldl_putLast keyOf added items, foldl_putLast keyOf added (_ ++ _), List.filter_append,
    hnone, List.append_nil, List.filter_filter]
  simp only [Bool.and_self]

end

/-! Distributions that are known -/

namespace Placement

variable {n : Nat} {id : String} {ds : List Distribution} {placements placed : List Placement}

theorem prefix_append? (h : append? id ds placements = some placed) : placements <+: placed := by
  obtain ⟨position, rfl⟩ := exists_place_of_append? h
  exact prefix_place id ds placements position

theorem any_of_prefix {p : Placement → Bool} (h : placements <+: placed)
    (hany : placements.any p = true) : placed.any p = true := by
  obtain ⟨q, hq, hp⟩ := List.any_eq_true.mp hany
  exact List.any_eq_true.mpr ⟨q, h.subset hq, hp⟩

theorem any_clashes_append? (h : append? id ds placements = some placed) :
    ∀ d ∈ ds, placed.any (clashes id d) = true := by
  intro d hd
  rw [any_clashes_eq, map_filter_append? h, List.any_append, Bool.or_eq_true_iff]
  exact Or.imp_right List.any_eq_true.mpr (@Distribution.known_or_newcomer (fun d =>
    ((placements.filter fun p => p.id == id).map distribution).any d.sameAccess) ds d hd)

theorem place_of_known (h : ∀ d ∈ ds, placements.any (clashes id d) = true) (position : Int) :
    place id placements position ds = placements := by
  induction ds generalizing position with
  | nil => rfl
  | cons d rest ih =>
      obtain ⟨hfirst, hrest⟩ := List.forall_mem_cons.mp h
      rw [place, if_pos hfirst, ih hrest]

theorem append?_of_known (hwithin : Within n placements) (hn : n < 2 ^ 63)
    (h : ∀ d ∈ ds, placements.any (clashes id d) = true) :
    append? id ds placements = some placements := by
  rw [append?]
  split
  · rfl
  · obtain ⟨position, hnext⟩ := hwithin.exists_next? hn id
    rw [hnext, Option.map_some, place_of_known h]

end Placement

/-! Tables of resources -/

namespace Ledger

variable {n : Nat} {L M : Ledger} {written : List Given}

namespace Refreshes

theorem resources (h : Refreshes written L M) :
    M.resources = (written.map Prod.fst).foldl (putLast Resource.id) L.resources := by
  induction h with
  | nil L => rfl
  | cons _ _ hreplace _ ih =>
      obtain ⟨placed, -, rfl⟩ := Option.map_eq_some_iff.mp hreplace
      exact ih

theorem placements (h : Refreshes written L M) : L.placements <+: M.placements := by
  induction h with
  | nil L => exact List.prefix_rfl
  | cons _ _ hreplace _ ih =>
      obtain ⟨placed, hplaced, rfl⟩ := Option.map_eq_some_iff.mp hreplace
      exact (Placement.prefix_append? hplaced).trans ih

theorem known (h : Refreshes written L M) :
    ∀ w ∈ written, ∀ d ∈ w.2, M.placements.any (Placement.clashes w.1.id d) = true := by
  induction h with
  | nil L => exact fun w hw => absurd hw List.not_mem_nil
  | cons _ _ hreplace hrest ih =>
      refine List.forall_mem_cons.mpr ⟨fun d hd => ?_, ih⟩
      obtain ⟨placed, hplaced, rfl⟩ := Option.map_eq_some_iff.mp hreplace
      exact Placement.any_of_prefix hrest.placements (Placement.any_clashes_append? hplaced d hd)

theorem accepted (h : Refreshes written L M) :
    ∀ w ∈ written, Schema.Accepts .aardvark w.1 ∧ w.1.Plain := by
  induction h with
  | nil L => exact fun w hw => absurd hw List.not_mem_nil
  | cons haccepted hplain _ _ ih => exact List.forall_mem_cons.mpr ⟨⟨haccepted, hplain⟩, ih⟩

/-- Resources with known distributions take their places again, and no more than that. -/
private theorem of_known (hL : L.Within n) (hn : n < 2 ^ 63)
    (hwritten : ∀ w ∈ written, Schema.Accepts .aardvark w.1 ∧ w.1.Plain)
    (hknown : ∀ w ∈ written, ∀ d ∈ w.2, L.placements.any (Placement.clashes w.1.id d) = true)
    (stood : List Resource) :
    Refreshes written { L with resources := stood }
      { L with resources := (written.map Prod.fst).foldl (putLast Resource.id) stood } := by
  induction written generalizing stood with
  | nil => exact .nil _
  | cons w rest ih =>
      obtain ⟨⟨haccepted, hplain⟩, hrest⟩ := List.forall_mem_cons.mp hwritten
      obtain ⟨hfirst, hlater⟩ := List.forall_mem_cons.mp hknown
      have hplaced := Placement.append?_of_known hL.placements hn hfirst
      refine .cons haccepted hplain ?_ (ih hrest hlater (putLast Resource.id stood w.1))
      exact Option.map_eq_some_iff.mpr ⟨L.placements, hplaced, rfl⟩

theorem again (h : Refreshes written L M) (hM : M.Within n) (hn : n < 2 ^ 63) :
    Refreshes written M M := by
  have hrun := of_known hM hn h.accepted h.known M.resources
  have hsame : (written.map Prod.fst).foldl (putLast Resource.id) M.resources = M.resources := by
    rw [h.resources, foldl_putLast_again]
  rwa [hsame] at hrun

end Refreshes

end Ledger

/-! Tables of distributions -/

namespace Ledger

variable {n : Nat} {L M : Ledger} {placed : List (String × Distribution)}

/-- A run that adds distributions, one after the other. -/
inductive Extends : List (String × Distribution) → Ledger → Ledger → Prop
  | nil (L : Ledger) : Extends [] L L
  | cons {w : String × Distribution} {rest : List (String × Distribution)} {L M N : Ledger}
      (hextend : L.extend? w.1 [w.2] = some M) (h : Extends rest M N) : Extends (w :: rest) L N

namespace Extends

theorem frame (h : Extends placed L M) :
    M = { L with placements := M.placements } ∧ L.placements <+: M.placements := by
  induction h with
  | nil L => exact ⟨rfl, List.prefix_rfl⟩
  | cons hextend _ ih =>
      obtain ⟨added, hadded, rfl⟩ := Option.map_eq_some_iff.mp hextend
      exact ⟨ih.1, (Placement.prefix_append? hadded).trans ih.2⟩

theorem known (h : Extends placed L M) :
    ∀ w ∈ placed, M.placements.any (Placement.clashes w.1 w.2) = true := by
  induction h with
  | nil L => exact fun w hw => absurd hw List.not_mem_nil
  | cons hextend hrest ih =>
      refine List.forall_mem_cons.mpr ⟨?_, ih⟩
      obtain ⟨added, hadded, rfl⟩ := Option.map_eq_some_iff.mp hextend
      exact Placement.any_of_prefix hrest.frame.2
        (Placement.any_clashes_append? hadded _ List.mem_cons_self)

theorem again (h : Extends placed L M) (hM : M.Within n) (hn : n < 2 ^ 63) :
    Extends placed M M := by
  have hknown := h.known
  clear h
  induction placed with
  | nil => exact .nil M
  | cons w rest ih =>
      obtain ⟨hfirst, hrest⟩ := List.forall_mem_cons.mp hknown
      have hadded := Placement.append?_of_known hM.placements hn
        (List.forall_mem_singleton.mpr hfirst)
      exact .cons (Option.map_eq_some_iff.mpr ⟨M.placements, hadded, rfl⟩) (ih hrest)

end Extends

theorem exists_extends (hL : L.Within n) (hroom : n + placed.length < 2 ^ 63) :
    ∃ M : Ledger, M.Within (n + placed.length) ∧ Extends placed L M := by
  induction placed generalizing n L with
  | nil => exact ⟨L, hL, .nil L⟩
  | cons w rest ih =>
      rw [List.length_cons] at hroom ⊢
      obtain ⟨added, hadded⟩ := hL.placements.exists_append? (by omega) w.1 [w.2]
      have hextend : L.extend? w.1 [w.2] = some { L with placements := added } :=
        Option.map_eq_some_iff.mpr ⟨added, hadded, rfl⟩
      obtain ⟨M, hM, hrun⟩ := ih (hL.extend? hextend) (by simp only [List.length_singleton]; omega)
      rw [List.length_singleton, Nat.add_assoc, Nat.add_comm 1] at hM
      exact ⟨M, hM, .cons hextend hrun⟩

end Ledger

def FieldCells.placed (config : Config) (rows : List FieldCells) : List (String × Distribution) :=
  rows.filterMap (distribution? config)

theorem FieldCells.sum_placed (config : Config) (rows : List FieldCells) :
    (rows.map (given config .distributions)).sum = (placed config rows).length := by
  induction rows with
  | nil => rfl
  | cons row rest ih =>
      rw [List.map_cons, List.sum_cons, ih, given]
      simp only [placed, List.filterMap_cons]
      cases row.distribution? config with
      | none => exact Nat.zero_add _
      | some w => exact Nat.add_comm _ _

/-- The rows of a table add the distributions that they give; as many are counted as come to be
stored. -/
theorem Ledger.Extends.importRows {config : Config} {rows : List FieldCells} {L M : Ledger}
    (h : Extends (FieldCells.placed config rows) L M) (added : Nat) :
    rows.foldl (Database.importDistributionRow config) (L.database, added) =
      (M.database, added + (M.placements.length - L.placements.length)) := by
  induction rows generalizing L added with
  | nil =>
      cases h
      rw [Nat.sub_self]
      rfl
  | cons row rest ih =>
      rw [FieldCells.placed, List.filterMap_cons] at h
      rw [List.foldl_cons, Database.importDistributionRow]
      cases hrow : row.distribution? config with
      | none =>
          rw [hrow] at h
          exact ih h added
      | some w =>
          rw [hrow] at h
          cases h with
          | @cons _ _ _ K _ hextend hrest =>
              have happend : L.database.append w.1 [w.2] =
                  .ok (K.database, K.placements.length - L.placements.length) :=
                append_eq_ok.mpr ⟨K, hextend, rfl, rfl⟩
              have hfirst := (Extends.cons hextend (.nil K)).frame.2.length_le
              have hlater := hrest.frame.2.length_le
              simp only [happend]
              rw [ih hrest]
              refine congrArg (M.database, ·) ?_
              omega

namespace Catalog

variable {c : Catalog} {L M : Ledger} {n : Nat} {rows : List TableRow}
  {aliases : Option (Dict String)}

theorem importTabular_extends (hc : c.database = some L.database)
    (hkind : TableKind.ofRows (aliases.getD c.config.aliases) .aardvark rows = .distributions)
    (h : Ledger.Extends (FieldCells.placed c.config (c.cellsOf rows aliases)) L M) :
    c.importTabular rows aliases = .ok (c.holding M,
      ⟨.distributions, M.placements.length - L.placements.length⟩) := by
  have hrows := h.importRows 0
  rw [cellsOf] at hrows
  refine write_database hc (.ok (_, _)) ?_
  rw [schema, Database.importRows, hkind]
  simp only [hrows, Nat.zero_add]
  rfl

end Catalog

/-! Both kinds of tables -/

/-- A database to which distributions were added, and nothing else: those that were stored for an
id stay in their order, in front of the new ones. -/
structure Database.Extended (before after : Database) (added : Nat) : Prop where
  others : ∀ table ∈ [resources, attributes, searchTexts, thumbnails, staticMaps],
    after.rows table = before.rows table
  stored : ∀ id, ∃ old new : List Distribution,
    (before.readDistributions [id]).map (List.map Prod.snd) = .ok old ∧
      (after.readDistributions [id]).map (List.map Prod.snd) = .ok (old ++ new)
  added : (after.rows distributions).length = (before.rows distributions).length + added

theorem Ledger.Extends.extended {placed : List (String × Distribution)} {L M : Ledger}
    (h : Extends placed L M) (hL : L.Sound) (hM : M.Sound) :
    L.database.Extended M.database (M.placements.length - L.placements.length) := by
  obtain ⟨hsame, added, hadded⟩ := h.frame
  refine ⟨?_, fun id => ⟨_, (added.filter fun p => p.id == id).map Placement.distribution,
    (hL.shows id).distributions, ?_⟩, ?_⟩
  · rw [hsame]
    simp [rows_resources, rows_attributes, rows_searchTexts, rows_thumbnails, rows_staticMaps]
  · rw [(hM.shows id).distributions, dossier, dossier, ← hadded, List.filter_append,
      List.map_append]
  · rw [rows_distributions, rows_distributions, List.length_map, List.length_map, ← hadded,
      List.length_append]
    omega

/-- A table of either kind, imported twice into a reachable session: no read tells the second import
from the first one.  A table of distributions changes nothing but the stored distributions, and the
counts of both imports are those of the distributions that came to be stored. -/
theorem Session.ReachableWith.importTabular_twice {n : Nat} {s : Session} (h : s.ReachableWith n)
    (rows : List TableRow) (aliases : Option (Dict String))
    (hroom : n + s.given (.importTabular rows aliases) < 2 ^ 63) :
    let kind := TableKind.ofRows (aliases.getD s.catalog.config.aliases) .aardvark rows
    kind ≠ .unrecognized →
      ∃ c d first second, s.catalog.importTabular rows aliases = .ok (c, ⟨kind, first⟩) ∧
        c.importTabular rows aliases = .ok (d, ⟨kind, second⟩) ∧
        (∀ q : Call, q.isWrite = false → (d.call q).map Prod.snd = (c.call q).map Prod.snd) ∧
        (kind = .distributions → second = 0 ∧
          ∃ before after, s.catalog.database = some before ∧ c.database = some after ∧
            before.Extended after first) := by
  intro kind hkind
  obtain ⟨L, hL, hc⟩ := h.stores.catalog.database
  have hreads (M : Ledger) (q : Call) (hq : q.isWrite = false) :
      (((s.catalog.holding M).holding M).call q).map Prod.snd =
        ((s.catalog.holding M).call q).map Prod.snd := Catalog.answer_congr rfl rfl hq
  cases hrows : kind with
  | unrecognized => exact absurd hrows hkind
  | resources =>
      rw [given_resources hrows] at hroom
      obtain ⟨M, hM, hrun⟩ := Ledger.exists_refreshes hL hroom FieldCells.accepted_written
      refine ⟨s.catalog.holding M, (s.catalog.holding M).holding M, _, _,
        Catalog.importTabular_refreshes hc hrows hrun,
        Catalog.importTabular_refreshes rfl hrows (hrun.again hM hroom), hreads M, ?_⟩
      exact fun hdistributions => nomatch hdistributions
  | distributions =>
      have hgiven : s.given (.importTabular rows aliases) =
          (FieldCells.placed s.catalog.config (s.catalog.cellsOf rows aliases)).length := by
        rw [← FieldCells.sum_placed, ← hrows]
        rfl
      rw [hgiven] at hroom
      obtain ⟨M, hM, hrun⟩ := Ledger.exists_extends hL hroom
      refine ⟨s.catalog.holding M, (s.catalog.holding M).holding M, _, _,
        Catalog.importTabular_extends hc hrows hrun,
        Catalog.importTabular_extends rfl hrows (hrun.again hM hroom), hreads M, fun _ => ?_⟩
      exact ⟨Nat.sub_self _, L.database, M.database, hc, rfl, hrun.extended hL.sound hM.sound⟩

/-! A table of links, of which one is stored already and one names its relation by its address -/

def linkRows : List TableRow :=
  [.ofList [("id", "a"), ("label", " "), ("type", "url"), ("url", "u")],
    .ofList [("id", " a"), ("type", "http://schema.org/url"), ("url", "v")],
    .ofList [("id", "b"), ("type", "download"), ("url", "v")]]

theorem Session.importTabular_twice_links :
    let s := afterUpsert (.ofId "a") [⟨"url", "u", none⟩]
    s.ReachableWith 1 ∧ 1 + s.given (.importTabular linkRows none) < 2 ^ 63 ∧
      TableKind.ofRows s.catalog.config.aliases .aardvark linkRows = .distributions ∧
      ∃ c d first, s.catalog.importTabular linkRows none = .ok (c, ⟨.distributions, first⟩) ∧
        c.importTabular linkRows none = .ok (d, ⟨.distributions, 0⟩) ∧
        (∀ q : Call, q.isWrite = false → (d.call q).map Prod.snd = (c.call q).map Prod.snd) ∧
        ∃ before after, s.catalog.database = some before ∧ c.database = some after ∧
          before.Extended after first := by
  intro s
  have h : s.ReachableWith 1 := reachableWith_afterUpsert (by decide) [⟨"url", "u", none⟩]
  have hroom : 1 + s.given (.importTabular linkRows none) < 2 ^ 63 := by
    decide +kernel
  have hkind : TableKind.ofRows s.catalog.config.aliases .aardvark linkRows = .distributions := by
    decide +kernel
  obtain ⟨c, d, first, second, hfirst, hsecond, hreads, hadded⟩ :=
    h.importTabular_twice linkRows none hroom (hkind ▸ by decide)
  obtain ⟨rfl, hextended⟩ := hadded hkind
  rw [Option.getD_none, hkind] at hfirst hsecond
  exact ⟨h, hroom, hkind, c, d, first, hfirst, hsecond, hreads, hextended⟩

end Gazetteer
