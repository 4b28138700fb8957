import Mathlib
import Gazetteer.Proofs.Interchange.References
/-!
What grouping keeps of distributions.  They are grouped by relation and stored by address, so that
of several relations with one address only the group of the last stays, and with it its links.
-/

namespace Gazetteer

namespace Distribution

/-- A distribution as it stands under the address of its relation. -/
def link (d : Distribution) : References.Link :=
  ⟨d.url, d.label⟩

end Distribution

namespace References

variable {config : Config} {ds : List Distribution}

def linksOf : List (String × Json) → Except Error (List Link)
  | [] => .ok []
  | (_, entry) :: rest =>
      match entryLinks entry with
      | .error e => .error e
      | .ok found => (linksOf rest).map (found ++ ·)

def recordLinks : Json → Except Error (List Link)
  | .record fields => linksOf fields
  | other => .error (malformed other)

/-- The relations of distributions, in the order in which they first appear. -/
def relations (ds : List Distribution) : List String :=
  (ds.map Distribution.relation).eraseDups

def lastRelation? (config : Config) (ds : List Distribution) (address : String) : Option String :=
  ((relations ds).filter fun relation => config.relationAddress relation == address).getLast?

/-- Whether no other relation takes the address of this one. -/
def Stays (config : Config) (ds : List Distribution) (relation : String) : Prop :=
  lastRelation? config ds (config.relationAddress relation) = some relation

instance (config : Config) (ds : List Distribution) (relation : String) :
    Decidable (Stays config ds relation) :=
  inferInstanceAs (Decidable (_ = _))

def kept (config : Config) (ds : List Distribution) : List Distribution :=
  ds.filter fun d => Stays config ds d.relation

/-! The groups of a record -/

theorem keys_groups (ds : List Distribution) : (groups ds).map Prod.fst = relations ds := by
  induction ds using List.reverseRecOn with
  | nil => rfl
  | append_singleton ds d ih =>
      have hlast : groups (ds ++ [d]) = addMember d (groups ds) := List.foldl_concat _ _ _ _
      rw [hlast, keys_addMember, ih, relations, relations, List.map_append,
        List.eraseDups_append, List.map_singleton]
      have hnew : [d.relation].removeAll (ds.map Distribution.relation) =
          if d.relation ∈ ds.map Distribution.relation then [] else [d.relation] := by
        rw [List.removeAll, List.filter_cons, List.elem_eq_mem]
        by_cases hmem : d.relation ∈ ds.map Distribution.relation <;> simp only [hmem] <;> rfl
      rw [hnew]
      by_cases hmem : d.relation ∈ ds.map Distribution.relation
      · rw [if_pos (List.mem_eraseDups.mpr hmem), if_pos hmem]
        exact (List.append_nil _).symm
      · rw [if_neg fun h => hmem (List.mem_eraseDups.mp h), if_neg hmem]
        rfl

theorem groups_eq (ds : List Distribution) : groups ds =
    (relations ds).map fun relation => (relation, ds.filter fun d => d.relation == relation) := by
  rw [← keys_groups, List.map_map]
  refine (List.map_id' _).symm.trans (List.map_congr_left fun group hgroup => ?_)
  exact Prod.ext rfl (mem_groups hgroup).1

/-- Under an address stand the distributions of its last relation. -/
theorem get?_byAddress_last (config : Config) (ds : List Distribution) (address : String) :
    (byAddress config ds).get? address = (lastRelation? config ds address).map fun relation =>
      ds.filter fun d => d.relation == relation := by
  rw [byAddress, Dict.get?_ofList, groups_eq, List.map_map, List.filter_map, List.getLast?_map,
    Option.map_map]
  rfl

theorem relationAddress_of_last {address relation : String}
    (h : lastRelation? config ds address = some relation) :
    config.relationAddress relation = address := by
  have hmem := List.mem_of_getLast? h
  exact beq_iff_eq.mp (List.mem_filter.mp hmem).2

theorem linksOf_groups (found : List (String × List Distribution)) :
    linksOf (found.map fun group => (group.1, groupJson group.2)) =
      .ok ((found.flatMap Prod.snd).map Distribution.link) := by
  induction found with
  | nil => rfl
  | cons group rest ih =>
      simp only [List.map_cons, linksOf, entryLinks_groupJson, ih, List.flatMap_cons,
        List.map_append, Except.map]
      rfl

theorem recordLinks_record (config : Config) (ds : List Distribution) :
    recordLinks (record config ds) =
      .ok (((byAddress config ds).entries.flatMap Prod.snd).map Distribution.link) := by
  rw [record_eq]
  exact linksOf_groups _

theorem filter_kept (config : Config) (ds : List Distribution) (relation : String) :
    (kept config ds).filter (fun d => d.relation == relation) =
      if Stays config ds relation then ds.filter fun d => d.relation == relation else [] := by
  rw [kept, List.filter_filter]
  split
  next hstays =>
    refine List.filter_congr fun d _ => ?_
    cases hd : d.relation == relation with
    | true => rw [beq_iff_eq.mp hd, decide_eq_true hstays, Bool.and_self]
    | false => rw [Bool.false_and]
  next hnot =>
    rw [List.filter_eq_nil_iff]
    intro d _ hd
    rw [Bool.and_eq_true, beq_iff_eq, decide_eq_true_eq] at hd
    exact hnot (hd.1 ▸ hd.2)

theorem agree_members (config : Config) (ds : List Distribution) :
    Agree (kept config ds) ((byAddress config ds).entries.flatMap Prod.snd) := by
  intro relation
  have hgroup : ∀ group ∈ (byAddress config ds).entries,
      group.2.filter (fun d => d.relation == relation) =
        if group.1 == config.relationAddress relation then
          (kept config ds).filter fun d => d.relation == relation
        else [] := by
    intro group hgroup
    have hget : (byAddress config ds).get? group.1 = some group.2 := Dict.mem_entries_iff.mp hgroup
    rw [get?_byAddress_last] at hget
    obtain ⟨last, hlast, hmembers⟩ := Option.map_eq_some_iff.mp hget
    rw [← hmembers, filter_relation, filter_kept]
    by_cases hsame : last = relation
    · -- the group is that of the relation, under the relation's own address
      subst hsame
      have haddress := relationAddress_of_last hlast
      have hstays : Stays config ds last := by rw [Stays, haddress, hlast]
      rw [if_pos rfl, if_pos hstays, haddress, if_pos BEq.rfl]
    · rw [if_neg hsame]
      split
      next haddress =>
        have hnot : ¬Stays config ds relation := by
          rw [Stays, ← beq_iff_eq.mp haddress, hlast, Option.some_inj]
          exact hsame
        rw [if_neg hnot]
      next => rfl
  rw [List.filter_flatMap, List.flatMap_congr hgroup, flatMap_filter,
    filter_key (Dict.nodup_keys _), filter_kept]
  split
  next hstays =>
    have hget := get?_byAddress_last config ds (config.relationAddress relation)
    rw [hstays, Option.map_some, Dict.get?, findEntry] at hget
    obtain ⟨group, hgroup, -⟩ := Option.map_eq_some_iff.mp hget
    rw [hgroup, Option.toList_some, List.flatMap_singleton]
  next => exact List.flatMap_eq_nil_iff.mpr fun _ _ => rfl

/-! What the links of a record are -/

/-- The links that grouping makes of distributions. -/
structure Grouped (config : Config) (ds : List Distribution) (found : List Link) : Prop where
  /-- Those of the distributions that are kept, each as often as there, and those of one relation
  in their order. -/
  members : ∃ es, found = es.map Distribution.link ∧ es.Perm (kept config ds) ∧
    Agree (kept config ds) es
  /-- No link is lost just if no two relations share an address. -/
  whole : found.Perm (ds.map Distribution.link) ↔ ∀ d ∈ ds, ∀ e ∈ ds,
    config.relationAddress d.relation = config.relationAddress e.relation →
      d.relation = e.relation

theorem mem_relations {relation : String} :
    relation ∈ relations ds ↔ ∃ d ∈ ds, d.relation = relation := by
  rw [relations, List.mem_eraseDups, List.mem_map]

theorem forall_stays_iff : (∀ d ∈ ds, Stays config ds d.relation) ↔ ∀ d ∈ ds, ∀ e ∈ ds,
    config.relationAddress d.relation = config.relationAddress e.relation →
      d.relation = e.relation := by
  constructor
  · intro h d hd e he haddress
    have hlast := h d hd
    rw [Stays, haddress, h e he, Option.some_inj] at hlast
    exact hlast.symm
  · intro h d hd
    have hmem : d.relation ∈ (relations ds).filter fun relation =>
        config.relationAddress relation == config.relationAddress d.relation :=
      List.mem_filter.mpr ⟨mem_relations.mpr ⟨d, hd, rfl⟩, BEq.rfl⟩
    rw [Stays, lastRelation?, List.getLast?_eq_some_getLast (List.ne_nil_of_mem hmem),
      Option.some_inj]
    obtain ⟨hlast, haddress⟩ := List.mem_filter.mp (List.getLast_mem (List.ne_nil_of_mem hmem))
    obtain ⟨e, he, hrelation⟩ := mem_relations.mp hlast
    rw [← hrelation] at haddress ⊢
    exact h e he d hd (beq_iff_eq.mp haddress)

/-- The links of a references record are those of the distributions that are kept. -/
theorem grouped_record (config : Config) (ds : List Distribution) :
    ∃ found, recordLinks (record config ds) = .ok found ∧ Grouped config ds found := by
  have hagree := agree_members config ds
  refine ⟨_, recordLinks_record config ds, ⟨_, rfl, hagree.perm, hagree⟩, ?_⟩
  rw [← forall_stays_iff]
  constructor
  · intro h
    have hlength : (kept config ds).length = ds.length := by
      have := h.length_eq
      rwa [List.length_map, List.length_map, hagree.perm.length_eq] at this
    have hall := List.length_filter_eq_length_iff.mp hlength
    exact fun d hd => of_decide_eq_true (hall d hd)
  · intro h
    have hall : kept config ds = ds :=
      List.filter_eq_self.mpr fun d hd => decide_eq_true (h d hd)
    exact (hall ▸ hagree.perm).map Distribution.link

end References

end Gazetteer
