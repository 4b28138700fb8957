import Mathlib
import Gazetteer.Dict
import Gazetteer.Proofs.Keyed
/-! Dictionaries as maps: they are told apart by what they hold under their keys. -/

namespace Gazetteer

variable {α β : Type}

theorem mem_entries_iff_findEntry {entries : List (String × α)} (h : Ascending entries)
    {key : String} {value : α} : (key, value) ∈ entries ↔ findEntry key entries = some value := by
  induction entries with
  | nil => simp [findEntry]
  | cons head rest ih =>
      obtain ⟨hhead, hrest⟩ := List.pairwise_cons.mp h
      by_cases hkey : head.1 = key
      · have hfind : findEntry key (head :: rest) = some head.2 := by simp [findEntry, hkey]
        have hnot : (key, value) ∉ rest := by
          intro hmem
          exact absurd (hkey ▸ hhead _ hmem) (String.lt_irrefl _)
        rw [hfind, List.mem_cons, or_iff_left hnot, Option.some_inj]
        constructor
        · intro heq
          exact congrArg Prod.snd heq.symm
        · rintro rfl
          exact Prod.ext hkey.symm rfl
      · have hfind : findEntry key (head :: rest) = findEntry key rest := by
          simp [findEntry, hkey]
        rw [hfind, ← ih hrest, List.mem_cons, or_iff_right]
        intro heq
        exact hkey (congrArg Prod.fst heq.symm)

theorem findEntry_eq_none_iff {entries : List (String × α)} {key : String} :
    findEntry key entries = none ↔ key ∉ entries.map Prod.fst := by
  rw [findEntry, Option.map_eq_none_iff, List.find?_eq_none]
  simp only [beq_iff_eq, List.mem_map, not_exists, not_and]

theorem findEntry_cons (key : String) (head : String × α) (rest : List (String × α)) :
    findEntry key (head :: rest) = if head.1 = key then some head.2 else findEntry key rest := by
  by_cases hkey : head.1 = key <;> simp [findEntry, hkey]

theorem findEntry_of_mem {entries : List (String × α)} (h : (entries.map Prod.fst).Nodup)
    {entry : String × α} (hentry : entry ∈ entries) : findEntry entry.1 entries = some entry.2 := by
  have hmem : entry ∈ entries.filter fun other => other.1 == entry.1 :=
    List.mem_filter.mpr ⟨hentry, BEq.rfl⟩
  rw [filter_key h, Option.mem_toList] at hmem
  rw [findEntry, hmem, Option.map_some]

theorem findEntry_eq_some_iff {entries : List (String × α)} (h : (entries.map Prod.fst).Nodup)
    {key : String} {value : α} : findEntry key entries = some value ↔ (key, value) ∈ entries := by
  refine ⟨fun hfind => ?_, findEntry_of_mem h⟩
  obtain ⟨entry, hentry, rfl⟩ := Option.map_eq_some_iff.mp hfind
  have hkey : entry.1 = key := by simpa using List.find?_some hentry
  exact hkey ▸ List.mem_of_find?_eq_some hentry

theorem findEntry_eq_of_perm {a b : List (String × α)} (h : a.Perm b)
    (hnodup : (a.map Prod.fst).Nodup) (key : String) : findEntry key a = findEntry key b := by
  rw [findEntry, findEntry, find?_eq_of_perm h]
  refine (List.pairwise_map.mp hnodup).imp fun hne hkeys => hne ?_
  exact (beq_iff_eq.mp hkeys.1).trans (beq_iff_eq.mp hkeys.2).symm

theorem findEntry_map_entry {entries : List (String × α)} (f : String → α → β) (key : String) :
    findEntry key (entries.map fun entry => (entry.1, f entry.1 entry.2)) =
      (findEntry key entries).map (f key) := by
  induction entries with
  | nil => rfl
  | cons entry rest ih =>
      rw [List.map_cons, findEntry_cons, findEntry_cons, ih]
      split
      next hkey => exact hkey ▸ rfl
      next => rfl

theorem findEntry_map_value {entries : List (String × α)} (f : α → β) (key : String) :
    findEntry key (entries.map fun entry => (entry.1, f entry.2)) =
      (findEntry key entries).map f :=
  findEntry_map_entry (fun _ => f) key

theorem findEntry_append (key : String) (a b : List (String × α)) :
    findEntry key (a ++ b) = (findEntry key a).or (findEntry key b) := by
  simp only [findEntry, List.find?_append, Option.map_or]

theorem findEntry_filter (keep : String → Bool) (key : String) (entries : List (String × α)) :
    findEntry key (entries.filter fun entry => keep entry.1) =
      if keep key then findEntry key entries else none := by
  induction entries with
  | nil => exact (ite_self _).symm
  | cons entry rest ih =>
      rw [List.filter_cons, findEntry_cons]
      by_cases hname : entry.1 = key
      · rw [hname]
        cases hkeep : keep key <;> simp [hkeep, ih, findEntry_cons, hname]
      · cases hkeep : keep entry.1 <;> simp [ih, findEntry_cons, hname]

theorem findEntry_map_name (names : List String) (f : String → α) (key : String) :
    findEntry key (names.map fun name => (name, f name)) =
      if key ∈ names then some (f key) else none := by
  induction names with
  | nil => rfl
  | cons name rest ih =>
      by_cases hname : name = key
      · simp [findEntry, hname]
      · have hother : key ≠ name := Ne.symm hname
        simpa [findEntry, hname, hother] using ih

private theorem eq_of_mem_iff {a b : List (String × α)} (ha : Ascending a) (hb : Ascending b)
    (h : ∀ entry, entry ∈ a ↔ entry ∈ b) : a = b := by
  have hdistinct {entries : List (String × α)} (hasc : Ascending entries) : entries.Nodup :=
    hasc.imp fun hlt heq => absurd (heq ▸ hlt) (String.lt_irrefl _)
  have hperm := (List.perm_ext_iff_of_nodup (hdistinct ha) (hdistinct hb)).mpr h
  unfold Ascending at ha hb
  refine List.Perm.eq_of_pairwise ?_ ha hb hperm
  intro x y _ _ hxy hyx
  exact absurd (String.lt_trans hxy hyx) (String.lt_irrefl _)

namespace Dict

theorem mem_entries_iff {d : Dict α} {key : String} {value : α} :
    (key, value) ∈ d.entries ↔ d.get? key = some value :=
  mem_entries_iff_findEntry d.ascending

theorem ext_get? {a b : Dict α} (h : ∀ key, a.get? key = b.get? key) : a = b := by
  refine ext (eq_of_mem_iff a.ascending b.ascending fun entry => ?_)
  rw [mem_entries_iff, mem_entries_iff, h]

theorem mem_keys_iff {d : Dict α} {key : String} :
    key ∈ d.keys ↔ ∃ value, d.get? key = some value := by
  rw [keys, List.mem_map]
  constructor
  · rintro ⟨entry, hentry, rfl⟩
    exact ⟨entry.2, mem_entries_iff.mp hentry⟩
  · rintro ⟨value, hvalue⟩
    exact ⟨(key, value), mem_entries_iff.mpr hvalue, rfl⟩

theorem nodup_keys (d : Dict α) : d.keys.Nodup := by
  rw [keys, List.Nodup, List.pairwise_map]
  exact d.ascending.imp fun hlt heq => absurd (heq ▸ hlt) (String.lt_irrefl _)

theorem get?_insert (d : Dict α) (key other : String) (value : α) :
    (d.insert key value).get? other = if other = key then some value else d.get? other := by
  split
  next heq => rw [heq, get?_insert_self]
  next hne => exact get?_insert_of_ne d value hne

private theorem ascending_filterMap (f : α → Option β) {entries : List (String × α)}
    (h : Ascending entries) :
    Ascending (entries.filterMap fun entry => (f entry.2).map (entry.1, ·)) := by
  unfold Ascending at *
  rw [List.pairwise_filterMap]
  refine h.imp ?_
  intro a b hab a' ha' b' hb'
  obtain ⟨_, -, rfl⟩ := Option.map_eq_some_iff.mp ha'
  obtain ⟨_, -, rfl⟩ := Option.map_eq_some_iff.mp hb'
  exact hab

def filterMap (f : α → Option β) (d : Dict α) : Dict β :=
  ⟨d.entries.filterMap fun entry => (f entry.2).map (entry.1, ·), ascending_filterMap f d.ascending⟩

theorem get?_filterMap (f : α → Option β) (d : Dict α) (key : String) :
    (d.filterMap f).get? key = (d.get? key).bind f := by
  refine Option.ext fun value => ?_
  rw [← mem_entries_iff, filterMap, List.mem_filterMap, Option.bind_eq_some_iff]
  constructor
  · rintro ⟨entry, hentry, hvalue⟩
    obtain ⟨other, hother, heq⟩ := Option.map_eq_some_iff.mp hvalue
    obtain ⟨rfl, rfl⟩ := Prod.mk.inj heq
    exact ⟨entry.2, mem_entries_iff.mp hentry, hother⟩
  · rintro ⟨old, hold, hvalue⟩
    exact ⟨(key, old), mem_entries_iff.mpr hold, by rw [hvalue]; rfl⟩

def erase (d : Dict α) (key : String) : Dict α :=
  ⟨d.entries.filter fun entry => entry.1 != key, d.ascending.sublist List.filter_sublist⟩

theorem get?_erase (d : Dict α) (key other : String) :
    (d.erase key).get? other = if other == key then none else d.get? other := by
  rw [get?, erase, findEntry, find?_without, get?, findEntry]
  cases other == key <;> rfl

theorem get?_modify (d : Dict α) (key other : String) (f : α → α) :
    (d.modify key f).get? other =
      if other = key then (d.get? key).map f else d.get? other := by
  unfold modify
  split
  next value hkey => rw [get?_insert, hkey, Option.map_some]
  next hkey =>
    split
    next heq => rw [heq, hkey, Option.map_none]
    next => rfl

/-- Entries put into a dictionary one after the other: of those for a key the last one counts. -/
theorem get?_foldl_insert (entries : List (String × α)) (d : Dict α) (key : String) :
    (entries.foldl (fun d entry => d.insert entry.1 entry.2) d).get? key =
      ((entries.filter (·.1 == key)).getLast?.map Prod.snd).or (d.get? key) := by
  induction entries generalizing d with
  | nil => simp
  | cons head rest ih =>
      rw [List.foldl_cons, ih, get?_insert]
      by_cases hkey : head.1 = key
      · cases hrest : rest.filter (·.1 == key) with
        | nil => simp [hkey, hrest]
        | cons first more => simp [hkey, hrest, List.getLast?_cons]
      · rw [List.filter_cons_of_neg (by simpa using hkey), if_neg fun h => hkey h.symm]

theorem get?_ofList (entries : List (String × α)) (key : String) :
    (ofList entries).get? key = (entries.filter (·.1 == key)).getLast?.map Prod.snd := by
  rw [ofList, get?_foldl_insert, get?_empty, Option.or_none]

theorem get?_ofList_of_nodup {entries : List (String × α)} (h : (entries.map Prod.fst).Nodup)
    (key : String) : (ofList entries).get? key = findEntry key entries := by
  rw [get?_ofList, filter_key h, findEntry]
  cases entries.find? fun entry => entry.1 == key <;> rfl

theorem ofList_eq_of_perm {a b : List (String × α)} (h : a.Perm b)
    (hnodup : (a.map Prod.fst).Nodup) : ofList a = ofList b := by
  refine ext_get? fun key => ?_
  have hnodup' := (h.map Prod.fst).nodup_iff.mp hnodup
  rw [get?_ofList_of_nodup hnodup, get?_ofList_of_nodup hnodup', findEntry_eq_of_perm h hnodup]

theorem perm_entries_ofList {entries : List (String × α)} (h : (entries.map Prod.fst).Nodup) :
    (ofList entries).entries.Perm entries := by
  have hnodup : (ofList entries).entries.Nodup := (nodup_keys _).of_map
  refine (List.perm_ext_iff_of_nodup hnodup h.of_map).mpr fun entry => ?_
  rw [mem_entries_iff, get?_ofList_of_nodup h, findEntry_eq_some_iff h]

theorem ofList_entries (d : Dict α) : ofList d.entries = d :=
  ext_get? fun key => get?_ofList_of_nodup (nodup_keys d) key

theorem get?_ofList_append (a b : List (String × α)) (key : String) :
    (ofList (a ++ b)).get? key = ((ofList b).get? key).or ((ofList a).get? key) := by
  rw [get?_ofList, get?_ofList, get?_ofList, List.filter_append, List.getLast?_append,
    Option.map_or]

theorem get?_ofList_map (f : α → β) (d : Dict α) (key : String) :
    (ofList (d.entries.map fun entry => (entry.1, f entry.2))).get? key = (d.get? key).map f := by
  have hnodup : ((d.entries.map fun entry => (entry.1, f entry.2)).map Prod.fst).Nodup := by
    rw [List.map_map]
    exact nodup_keys d
  rw [get?_ofList_of_nodup hnodup, findEntry_map_value, get?]

theorem mem_of_mem_ofList {entries : List (String × α)} {entry : String × α}
    (h : entry ∈ (ofList entries).entries) : entry ∈ entries := by
  have hget : (ofList entries).get? entry.1 = some entry.2 := mem_entries_iff.mp h
  rw [get?_ofList] at hget
  obtain ⟨other, hother, hvalue⟩ := Option.map_eq_some_iff.mp hget
  obtain ⟨hmem, hkey⟩ := List.mem_filter.mp (List.mem_of_getLast? hother)
  exact Prod.ext (beq_iff_eq.mp hkey) hvalue ▸ hmem

theorem entries_ofList_map (f : α → β) (entries : List (String × α)) :
    (ofList (entries.map fun entry => (entry.1, f entry.2))).entries =
      (ofList entries).entries.map fun entry => (entry.1, f entry.2) := by
  have hinsert (key : String) (value : α) (stood : List (String × α)) :
      insertEntry key (f value) (stood.map fun entry => (entry.1, f entry.2)) =
        (insertEntry key value stood).map fun entry => (entry.1, f entry.2) := by
    induction stood with
    | nil => rfl
    | cons head rest ih =>
        simp only [insertEntry, List.map_cons]
        split
        · rfl
        · split
          · rfl
          · rw [List.map_cons, ih]
  have hfoldl (changed : Dict β) (d : Dict α)
      (h : changed.entries = d.entries.map fun entry => (entry.1, f entry.2)) :
      ((entries.map fun entry => (entry.1, f entry.2)).foldl
          (fun d entry => d.insert entry.1 entry.2) changed).entries =
        (entries.foldl (fun d entry => d.insert entry.1 entry.2) d).entries.map
          fun entry => (entry.1, f entry.2) := by
    induction entries generalizing changed d with
    | nil => exact h
    | cons entry rest ih =>
        refine ih _ _ ?_
        rw [entries_insert, entries_insert, h, hinsert]
  exact hfoldl empty empty rfl

theorem forall₂_entries {R : α → β → Prop} {a : Dict α} {b : Dict β}
    (h : ∀ key, Option.Rel R (a.get? key) (b.get? key)) :
    List.Forall₂ (fun x y => x.1 = y.1 ∧ R x.2 y.2) a.entries b.entries := by
  have hkeys : (a.filterMap fun _ => some ()) = b.filterMap fun _ => some () := by
    apply ext_get?
    intro key
    rw [get?_filterMap, get?_filterMap]
    have hkey := h key
    cases hfirst : a.get? key <;> cases hsecond : b.get? key <;> rw [hfirst, hsecond] at hkey
    · rfl
    · cases hkey
    · cases hkey
    · rfl
  have hnames : List.Forall₂ (fun x y => x.1 = y.1) a.entries b.entries := by
    have hmap := congrArg (fun d => d.entries.map Prod.fst) hkeys
    simp only [filterMap, Option.map_some, List.filterMap_eq_map', List.map_map] at hmap
    rw [← List.forall₂_eq_eq_eq, List.forall₂_map_left_iff, List.forall₂_map_right_iff] at hmap
    exact hmap
  obtain ⟨hlength, hsame⟩ := List.forall₂_iff_zip.mp hnames
  refine List.forall₂_iff_zip.mpr ⟨hlength, fun {x y} hmem => ⟨hsame hmem, ?_⟩⟩
  obtain ⟨hx, hy⟩ := List.of_mem_zip hmem
  have hkey := h x.1
  rw [mem_entries_iff.mp hx, hsame hmem, mem_entries_iff.mp hy] at hkey
  cases hkey with
  | some hvalue => exact hvalue

end Dict

theorem mem_distinctTexts {texts : List String} {text : String} :
    text ∈ distinctTexts texts ↔ text ∈ texts := by
  rw [distinctTexts, Dict.mem_keys_iff]
  simp only [Dict.get?_ofList]
  constructor
  · rintro ⟨value, hvalue⟩
    obtain ⟨entry, hentry, -⟩ := Option.map_eq_some_iff.mp hvalue
    obtain ⟨hmem, hkey⟩ := List.mem_filter.mp (List.mem_of_getLast? hentry)
    obtain ⟨other, hother, rfl⟩ := List.mem_map.mp hmem
    exact beq_iff_eq.mp hkey ▸ hother
  · intro hmem
    refine ⟨(), ?_⟩
    cases hlast : ((texts.map fun text => (text, ())).filter (·.1 == text)).getLast? with
    | some entry => rfl
    | none =>
        rw [List.getLast?_eq_none_iff, List.filter_eq_nil_iff] at hlast
        exact absurd (BEq.rfl) (hlast (text, ()) (List.mem_map_of_mem hmem))

theorem nodup_distinctTexts (texts : List String) : (distinctTexts texts).Nodup :=
  Dict.nodup_keys _

theorem distinctTexts_eq_nil (texts : List String) : distinctTexts texts = [] ↔ texts = [] := by
  rw [List.eq_nil_iff_forall_not_mem, List.eq_nil_iff_forall_not_mem]
  simp only [mem_distinctTexts]

end Gazetteer
