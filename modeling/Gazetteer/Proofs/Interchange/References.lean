import Mathlib
import Gazetteer.Interchange.References
import Gazetteer.Proofs.Except
import Gazetteer.Proofs.Json.RoundTrip
import Gazetteer.Proofs.Keyed
import Gazetteer.Proofs.Text.Trim
/-!
References texts read back.  Distributions come back by the addresses of their relations, those of
one relation in their order.
-/

namespace Gazetteer

/-! Relations -/

namespace Config

variable (config : Config)

/-- A relation key that its own address stands for. -/
def IsKey (relation : String) : Prop :=
  config.relationKey (config.relationAddress relation) = relation

/-- Whatever the table, the key of an address survives the way to its address and back. -/
theorem isKey_relationKey (address : String) : config.IsKey (config.relationKey address) := by
  rw [IsKey, relationAddress]
  split
  next found key hfound =>
    have hkey : key = config.relationKey address := by simpa using List.find?_some hfound
    have hget : config.relations.get? found = some key :=
      Dict.mem_entries_iff.mp (List.mem_of_find?_eq_some hfound)
    rw [relationKey, hget]
    exact hkey
  next hnone =>
    -- An address in the table would have its key there, so this one is its own key.
    have hget : config.relations.get? address = none := by
      cases hget : config.relations.get? address with
      | none => rfl
      | some key =>
          have hkey : config.relationKey address = key := by rw [relationKey, hget]; rfl
          have := List.find?_eq_none.mp hnone _ (Dict.mem_entries_iff.mpr hget)
          exact absurd hkey.symm (by simpa using this)
    have hself : config.relationKey address = address := by rw [relationKey, hget]; rfl
    rw [hself, hself]

theorem isKey_iff {relation : String} :
    config.IsKey relation ↔ ∃ address, config.relationKey address = relation := by
  constructor
  · exact fun h => ⟨_, h⟩
  · rintro ⟨address, rfl⟩
    exact config.isKey_relationKey address

theorem IsKey.eq_of_address {config : Config} {a b : String} (ha : config.IsKey a)
    (hb : config.IsKey b) (h : config.relationAddress a = config.relationAddress b) : a = b := by
  rw [← ha, h, hb]

def urlOnly : Config :=
  { standard with relations := .ofList [("http://schema.org/url", "url")] }

end Config

/-- A distribution as records and tables give them. -/
structure Distribution.Regular (config : Config) (d : Distribution) : Prop where
  relation : config.IsKey d.relation
  url : Text.trim d.url = d.url
  nonempty : d.url ≠ ""
  label : ∀ label ∈ d.label, Text.allBlank label = false

namespace References

variable {config : Config} {ds es : List Distribution}

theorem regular_of_distribution? {address : String} {l : Link} {d : Distribution}
    (h : distribution? (config.relationKey address) l = some d) : d.Regular config := by
  simp only [distribution?] at h
  split at h
  · cases h
  next hempty =>
    cases h
    refine ⟨config.isKey_relationKey address, Text.trim_trim l.url, by simpa using hempty, ?_⟩
    intro label hlabel
    simpa using (Option.filter_eq_some_iff.mp hlabel).2

theorem distribution?_of_regular {d : Distribution} (h : d.Regular config) :
    References.distribution? d.relation ⟨d.url, d.label⟩ = some d := by
  have hlabel : d.label.filter (fun label => !Text.allBlank label) = d.label := by
    cases hd : d.label with
    | none => rfl
    | some label => simp [h.label label hd]
  simp [References.distribution?, h.url, h.nonempty, hlabel]

theorem regular_readEntries {entries : List (String × Json)}
    (h : readEntries config entries = .ok ds) : ∀ d ∈ ds, d.Regular config := by
  induction entries generalizing ds with
  | nil =>
      cases h
      exact fun d hd => absurd hd List.not_mem_nil
  | cons entry rest ih =>
      rw [readEntries] at h
      split at h
      · cases h
      next found _ =>
        obtain ⟨more, hrest, rfl⟩ := map_eq_ok.mp h
        intro d hd
        rcases List.mem_append.mp hd with hd | hd
        · obtain ⟨l, -, hl⟩ := List.mem_filterMap.mp hd
          exact regular_of_distribution? hl
        · exact ih hrest d hd

theorem regular_read {j : Json} (h : read config j = .ok ds) : ∀ d ∈ ds, d.Regular config := by
  rw [read] at h
  split at h
  · cases h
  · exact regular_readEntries h

/-! Groups -/

private def some? (members : List Distribution) : Option (List Distribution) :=
  if members = [] then none else some members

private theorem findEntry_addMember (d : Distribution) (found : List (String × List Distribution))
    (relation : String) :
    findEntry relation (addMember d found) =
      if d.relation = relation then some ((findEntry relation found).getD [] ++ [d])
      else findEntry relation found := by
  induction found with
  | nil => by_cases hd : d.relation = relation <;> simp [addMember, findEntry, hd]
  | cons group rest ih =>
      rw [addMember]
      by_cases hd : group.1 = d.relation
      · rw [if_pos hd]
        by_cases hgroup : group.1 = relation
        · simp [findEntry, hgroup, hd ▸ hgroup]
        · simp [findEntry, hgroup, hd ▸ hgroup]
      · rw [if_neg hd]
        by_cases hgroup : group.1 = relation
        · subst hgroup
          simp [findEntry, Ne.symm hd]
        · simpa [findEntry, hgroup] using ih

theorem keys_addMember (d : Distribution) (found : List (String × List Distribution)) :
    (addMember d found).map Prod.fst =
      if d.relation ∈ found.map Prod.fst then found.map Prod.fst
      else found.map Prod.fst ++ [d.relation] := by
  induction found with
  | nil => rfl
  | cons group rest ih =>
      rw [addMember]
      by_cases hd : group.1 = d.relation
      · simp [hd]
      · have hother : d.relation ≠ group.1 := Ne.symm hd
        rw [if_neg hd, List.map_cons, ih]
        split
        next hmem => simp [hmem]
        next hnew => simp [hnew, hother]

private theorem findEntry_groups (ds : List Distribution) (relation : String) :
    findEntry relation (groups ds) = some? (ds.filter fun d => d.relation == relation) := by
  induction ds using List.reverseRecOn with
  | nil => rfl
  | append_singleton ds d ih =>
      have hlast : groups (ds ++ [d]) = addMember d (groups ds) := List.foldl_concat _ _ _ _
      rw [hlast, findEntry_addMember, ih, List.filter_append]
      by_cases hd : d.relation = relation
      · rw [if_pos hd]
        by_cases hnone : ds.filter (fun d => d.relation == relation) = []
        · simp [some?, hnone, hd]
        · simp [some?, hnone, hd]
      · simp [hd]

theorem nodup_groups (ds : List Distribution) : ((groups ds).map Prod.fst).Nodup := by
  induction ds using List.reverseRecOn with
  | nil => exact List.nodup_nil
  | append_singleton ds d ih =>
      have hlast : groups (ds ++ [d]) = addMember d (groups ds) := List.foldl_concat _ _ _ _
      rw [hlast, keys_addMember]
      split
      · exact ih
      next hnew =>
        exact ih.append (List.nodup_singleton _) (by simpa using hnew)

theorem mem_groups {ds : List Distribution} {group : String × List Distribution}
    (h : group ∈ groups ds) :
    group.2 = ds.filter (fun d => d.relation == group.1) ∧ group.2 ≠ [] := by
  have hfind := findEntry_of_mem (nodup_groups ds) h
  rw [findEntry_groups, some?] at hfind
  split at hfind
  · exact absurd hfind (by simp)
  next hne =>
    rw [Option.some_inj] at hfind
    exact hfind ▸ ⟨rfl, hne⟩

/-! The record of distributions, and its text -/

def byAddress (config : Config) (ds : List Distribution) : Dict (List Distribution) :=
  .ofList ((groups ds).map fun group => (config.relationAddress group.1, group.2))

theorem record_eq (config : Config) (ds : List Distribution) :
    record config ds =
      .record ((byAddress config ds).entries.map fun group => (group.1, groupJson group.2)) := by
  rw [byAddress, ← Dict.entries_ofList_map, List.map_map, record, Json.ofFields_eq]
  rfl

theorem textual_record (config : Config) (ds : List Distribution) :
    Json.Textual Json.depthLimit (record config ds) := by
  have hlink {depth : Nat} (d : Distribution) : Json.Textual (depth + 1) (linkJson d) := by
    refine .ofFields fun field hfield => ?_
    rcases List.mem_cons.mp hfield with rfl | hfield
    · exact .text d.url
    · rw [Option.mem_toList] at hfield
      obtain ⟨label, -, rfl⟩ := Option.map_eq_some_iff.mp hfield
      exact .text label
  have hgroup {depth : Nat} (members : List Distribution) :
      Json.Textual (depth + 2) (groupJson members) := by
    unfold groupJson
    split
    · exact .text _
    · refine .list fun j hj => ?_
      obtain ⟨d, -, rfl⟩ := List.mem_map.mp hj
      exact hlink d
  have hfields (field : String × Json) (hfield : field ∈
      (groups ds).map fun group => (config.relationAddress group.1, groupJson group.2)) :
      Json.Textual 126 field.2 := by
    obtain ⟨group, -, rfl⟩ := List.mem_map.mp hfield
    exact hgroup group.2
  exact .ofFields hfields

private theorem link_linkJson (d : Distribution) : link (linkJson d) = .ok ⟨d.url, d.label⟩ := by
  obtain ⟨relation, url, label⟩ := d
  cases label with
  | none => rfl
  | some label =>
      have hlt : "label" < "url" := by decide
      simp [linkJson, Json.ofFields, insertEntry, hlt, link, textField?, Json.field?, findEntry]

theorem entryLinks_groupJson (members : List Distribution) :
    entryLinks (groupJson members) = .ok (members.map fun d => ⟨d.url, d.label⟩) := by
  have hlinks : links (members.map linkJson) = .ok (members.map fun d => ⟨d.url, d.label⟩) := by
    induction members with
    | nil => rfl
    | cons d rest ih =>
        rw [List.map_cons, links, link_linkJson, ih]
        rfl
  unfold groupJson
  split
  · rfl
  · exact hlinks

def reread (config : Config) (ds : List Distribution) : List Distribution :=
  (byAddress config ds).entries.flatMap fun group =>
    group.2.filterMap fun d => distribution? (config.relationKey group.1) ⟨d.url, d.label⟩

private theorem readEntries_groups (config : Config) (found : List (String × List Distribution)) :
    readEntries config (found.map fun group => (group.1, groupJson group.2)) =
      .ok (found.flatMap fun group =>
        group.2.filterMap fun d => distribution? (config.relationKey group.1) ⟨d.url, d.label⟩) := by
  induction found with
  | nil => rfl
  | cons group rest ih =>
      simp only [List.map_cons, readEntries, entryLinks_groupJson, ih, List.filterMap_map,
        List.flatMap_cons, Except.map, Function.comp_def]

private theorem allBlank_compact (fields : List (String × Json)) :
    Text.allBlank (Json.record fields).compact = false := by
  have hbrace : Text.isBlank (Char.ofNat 0x7B) = false := by decide
  rw [Text.allBlank, Json.compact, String.toList_ofList]
  cases fields <;> rw [Json.write, List.all_cons, hbrace, Bool.false_and]

theorem read_text (config : Config) (ds : List Distribution) :
    read config (.text (record config ds).compact) = .ok (reread config ds) := by
  have hentries : entries (.text (record config ds).compact) =
      .ok ((byAddress config ds).entries.map fun group => (group.1, groupJson group.2)) := by
    rw [entries, Json.ofText?_compact (textual_record config ds), record_eq, allBlank_compact]
    rfl
  rw [read, hentries]
  exact readEntries_groups config _

/-- Also where there is no text, since nothing is read of a null. -/
theorem read_text? (config : Config) (ds : List Distribution) :
    read config (Json.ofOption .text (References.text? config ds)) = .ok (reread config ds) := by
  cases ds with
  | nil => rfl
  | cons d rest => exact read_text config (d :: rest)

/-! Regular distributions come back -/

/-- Agreement up to the order of distributions of different relations. -/
def Agree (ds es : List Distribution) : Prop :=
  ∀ relation, es.filter (fun d => d.relation == relation) = ds.filter fun d => d.relation == relation

theorem Agree.perm (h : Agree ds es) : es.Perm ds := by
  rw [List.perm_iff_count]
  intro d
  have hcount (items : List Distribution) :
      (items.filter fun e => e.relation == d.relation).count d = items.count d :=
    List.count_filter BEq.rfl
  rw [← hcount es, h, hcount ds]

private theorem get?_byAddress (h : ∀ d ∈ ds, d.Regular config) (address : String) :
    (byAddress config ds).get? address =
      if config.relationAddress (config.relationKey address) = address then
        some? (ds.filter fun d => d.relation == config.relationKey address)
      else none := by
  have hkey : ∀ group ∈ groups ds, config.IsKey group.1 := by
    intro group hgroup
    obtain ⟨hmembers, hne⟩ := mem_groups hgroup
    obtain ⟨d, hd⟩ := List.exists_mem_of_ne_nil _ hne
    rw [hmembers] at hd
    obtain ⟨hd, hrelation⟩ := List.mem_filter.mp hd
    exact beq_iff_eq.mp hrelation ▸ (h d hd).relation
  have hnodup : (((groups ds).map fun group =>
      (config.relationAddress group.1, group.2)).map Prod.fst).Nodup := by
    have hkeys := List.pairwise_map.mp (nodup_groups ds)
    rw [List.map_map, List.Nodup, List.pairwise_map]
    refine hkeys.imp_of_mem fun {a b} ha hb hne heq => ?_
    exact hne ((hkey a ha).eq_of_address (hkey b hb) heq)
  rw [byAddress, Dict.get?_ofList_of_nodup hnodup]
  split
  next haddress =>
    have hsame : ∀ group ∈ groups ds, (config.relationAddress group.1 == address) =
        (group.1 == config.relationKey address) := by
      intro group hgroup
      rw [Bool.eq_iff_iff, beq_iff_eq, beq_iff_eq]
      constructor
      · rintro rfl
        exact (hkey group hgroup).symm
      · intro heq
        rw [heq, haddress]
    rw [← findEntry_groups, findEntry, List.find?_map, Option.map_map, findEntry]
    exact congrArg (Option.map Prod.snd) (List.find?_congr hsame)
  next hother =>
    rw [findEntry_eq_none_iff, List.map_map]
    intro hmem
    obtain ⟨group, hgroup, rfl⟩ := List.mem_map.mp hmem
    exact hother (congrArg config.relationAddress (hkey group hgroup))

theorem mem_byAddress (h : ∀ d ∈ ds, d.Regular config)
    {group : String × List Distribution} (hgroup : group ∈ (byAddress config ds).entries) :
    config.relationAddress (config.relationKey group.1) = group.1 ∧
      group.2 = ds.filter fun d => d.relation == config.relationKey group.1 := by
  have hget : (byAddress config ds).get? group.1 = some group.2 := Dict.mem_entries_iff.mp hgroup
  rw [get?_byAddress h, some?] at hget
  split at hget
  next haddress =>
    split at hget
    · cases hget
    · exact ⟨haddress, (Option.some_inj.mp hget).symm⟩
  · cases hget

theorem reread_eq (h : ∀ d ∈ ds, d.Regular config) :
    reread config ds = (byAddress config ds).entries.flatMap Prod.snd := by
  refine List.flatMap_congr fun group hgroup => ?_
  obtain ⟨-, hmembers⟩ := mem_byAddress h hgroup
  have hself : ∀ d ∈ group.2,
      distribution? (config.relationKey group.1) ⟨d.url, d.label⟩ = some d := by
    intro d hd
    rw [hmembers] at hd
    obtain ⟨hd, hrelation⟩ := List.mem_filter.mp hd
    rw [← beq_iff_eq.mp hrelation]
    exact distribution?_of_regular (h d hd)
  rw [List.filterMap_congr hself, List.filterMap_some]

theorem filter_relation (ds : List Distribution) (a b : String) :
    (ds.filter fun d => d.relation == a).filter (fun d => d.relation == b) =
      if a = b then ds.filter fun d => d.relation == b else [] := by
  rw [List.filter_filter]
  split
  next heq =>
    rw [heq]
    simp only [Bool.and_self]
  next hne =>
    rw [List.filter_eq_nil_iff]
    intro d _ hd
    rw [Bool.and_eq_true, beq_iff_eq, beq_iff_eq] at hd
    exact hne (hd.2.symm.trans hd.1)

private theorem relationKey_eq_iff (h : ∀ d ∈ ds, d.Regular config) {relation : String}
    (hkey : config.IsKey relation) {group : String × List Distribution}
    (hgroup : group ∈ (byAddress config ds).entries) :
    config.relationKey group.1 = relation ↔ group.1 = config.relationAddress relation := by
  constructor
  · rintro rfl
    exact (mem_byAddress h hgroup).1.symm
  · intro heq
    rw [heq, hkey]

theorem agree_reread (h : ∀ d ∈ ds, d.Regular config) : Agree ds (reread config ds) := by
  intro relation
  have hgroup : ∀ group ∈ (byAddress config ds).entries,
      group.2.filter (fun d => d.relation == relation) =
        if config.relationKey group.1 = relation then ds.filter fun d => d.relation == relation
        else [] := by
    intro group hgroup
    rw [(mem_byAddress h hgroup).2, filter_relation]
  rw [reread_eq h, List.filter_flatMap, List.flatMap_congr hgroup]
  by_cases hkey : config.IsKey relation
  · -- Only the group under the address of the relation counts.
    have haddress : ∀ group ∈ (byAddress config ds).entries,
        (if config.relationKey group.1 = relation then ds.filter fun d => d.relation == relation
          else []) =
        if group.1 == config.relationAddress relation then ds.filter fun d => d.relation == relation
          else [] := by
      intro group hmem
      simp only [relationKey_eq_iff h hkey hmem, beq_iff_eq]
    have hget := get?_byAddress h (config.relationAddress relation)
    rw [hkey, if_pos rfl, some?, Dict.get?, findEntry] at hget
    rw [List.flatMap_congr haddress, flatMap_filter, filter_key (Dict.nodup_keys _)]
    split at hget
    next hnone =>
      rw [hnone]
      exact List.flatMap_eq_nil_iff.mpr fun _ _ => rfl
    next =>
      obtain ⟨group, hgroup, -⟩ := Option.map_eq_some_iff.mp hget
      rw [hgroup, Option.toList_some, List.flatMap_singleton]
  · -- No distribution has the relation.
    have hnone : ds.filter (fun d => d.relation == relation) = [] := by
      rw [List.filter_eq_nil_iff]
      intro d hd hrelation
      exact hkey (beq_iff_eq.mp hrelation ▸ (h d hd).relation)
    simp only [hnone, ite_self]
    exact List.flatMap_eq_nil_iff.mpr fun _ _ => rfl

theorem Agree.text? (h : Agree ds es) (hds : ∀ d ∈ ds, d.Regular config) :
    References.text? config es = References.text? config ds := by
  have hes : ∀ d ∈ es, d.Regular config := fun d hd => hds d (h.perm.subset hd)
  have hgroups : byAddress config es = byAddress config ds := by
    refine Dict.ext_get? fun address => ?_
    rw [get?_byAddress hes, get?_byAddress hds, h]
  have hempty : es.isEmpty = ds.isEmpty := by
    rw [Bool.eq_iff_iff, List.isEmpty_iff_length_eq_zero, List.isEmpty_iff_length_eq_zero,
      h.perm.length_eq]
  rw [References.text?, References.text?, record_eq, record_eq, hgroups, hempty]

/-- Written and read again, distributions come back as often as they stood there, those of each
relation in their order. -/
theorem read_written (hrelation : ∀ d ∈ ds, ∃ address, config.relationKey address = d.relation)
    (hurl : ∀ d ∈ ds, Text.trim d.url = d.url ∧ d.url ≠ "")
    (hlabel : ∀ d ∈ ds, ∀ label ∈ d.label, Text.allBlank label = false) :
    (References.text? config ds = none ↔ ds = []) ∧
      (ds ≠ [] → ∃ text es, References.text? config ds = some text ∧
        read config (.text text) = .ok es ∧ es.Perm ds ∧
          ∀ relation, es.filter (fun d => d.relation == relation) =
            ds.filter fun d => d.relation == relation) := by
  have hregular : ∀ d ∈ ds, d.Regular config := by
    intro d hd
    obtain ⟨address, haddress⟩ := hrelation d hd
    obtain ⟨htrim, hne⟩ := hurl d hd
    exact ⟨haddress ▸ config.isKey_relationKey address, htrim, hne, hlabel d hd⟩
  have hagree := agree_reread hregular
  rw [References.text?]
  constructor
  · cases ds with
    | nil => exact iff_of_true rfl rfl
    | cons d rest => exact iff_of_false (fun h => nomatch h) (List.cons_ne_nil d rest)
  · intro hne
    rw [List.isEmpty_eq_false_iff.mpr hne]
    exact ⟨_, _, rfl, read_text config ds, hagree.perm, hagree⟩

theorem read_written_chained :
    let config := { Config.standard with relations := .ofList [("a", "b"), ("b", "c")] }
    let ds : List Distribution := [⟨"b", "x", none⟩, ⟨"c", "y", some "Y"⟩, ⟨"b", "x", none⟩]
    ∃ text es, References.text? config ds = some text ∧ read config (.text text) = .ok es ∧
      es.Perm ds ∧ ∀ relation, es.filter (fun d => d.relation == relation) =
        ds.filter fun d => d.relation == relation := by
  intro config ds
  have hrelation : ∀ d ∈ ds, ∃ address, config.relationKey address = d.relation := by
    have hfirst : config.relationKey "a" = "b" := by decide
    have hsecond : config.relationKey "b" = "c" := by decide
    simp only [ds, List.forall_mem_cons]
    exact ⟨⟨"a", hfirst⟩, ⟨"b", hsecond⟩, ⟨"a", hfirst⟩, fun d hd => absurd hd List.not_mem_nil⟩
  have hurl : ∀ d ∈ ds, Text.trim d.url = d.url ∧ d.url ≠ "" := by decide
  have hlabel : ∀ d ∈ ds, ∀ label ∈ d.label, Text.allBlank label = false := by decide
  exact (read_written hrelation hurl hlabel).2 (List.cons_ne_nil _ _)

end References

end Gazetteer
