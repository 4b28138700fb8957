import Mathlib
import Gazetteer.Proofs.Interchange.References
import Gazetteer.Proofs.Json.Reader
/-!
The references values that can be read.  Which values are well formed, and which distributions they
list, is told without regard to the order in which a reader finds this out.
-/

namespace Gazetteer

namespace References

variable {config : Config} {ds : List Distribution} {j : Json}

/-! Well-formed values -/

inductive IsLink : Json → Prop
  | text (url : String) : IsLink (.text url)
  | record {fields : List (String × Json)} {url : String}
      (h : findEntry "url" fields = some (.text url)) : IsLink (.record fields)

inductive IsEntry : Json → Prop
  | null : IsEntry .null
  | link {j : Json} (h : IsLink j) : IsEntry j
  | list {items : List Json} (h : ∀ item ∈ items, IsLink item) : IsEntry (.list items)

inductive StandsFor : Json → List (String × Json) → Prop
  | null : StandsFor .null []
  | blank {s : String} (h : Text.allBlank s = true) : StandsFor (.text s) []
  | text {s : String} {fields : List (String × Json)}
      (h : Json.ofText? s = some (.record fields)) : StandsFor (.text s) fields
  | record (fields : List (String × Json)) : StandsFor (.record fields) fields

/-! What they list -/

def linkUrl? : Json → Option String
  | .text url => some url
  | j => textField? j "url"

def linkLabel? (j : Json) : Option String :=
  (textField? j "label").filter fun label => !Text.allBlank label

/-- The distribution of a link under an address, unless the address of the link is blank. -/
def listedLink? (config : Config) (address : String) (j : Json) : Option Distribution :=
  (linkUrl? j).bind fun url =>
    if Text.allBlank url then none
    else some ⟨config.relationKey address, Text.trim url, linkLabel? j⟩

def entryItems : Json → List Json
  | .null => []
  | .list items => items
  | j => [j]

def listed (config : Config) (fields : List (String × Json)) : List Distribution :=
  fields.flatMap fun field => (entryItems field.2).filterMap (listedLink? config field.1)

/-! Links -/

private theorem error_ne_ok {α : Type} {e : Error} {a : α} :
    ¬(Except.error e : Except Error α) = .ok a := by
  rintro ⟨⟩

/-- What would be read does not hold of a value that is not read. -/
private theorem not_of_error {α : Type} {result : Except Error α} {e : Error} {p : Prop}
    (he : result = .error e) (h : p → ∃ a, result = .ok a) : ¬p := by
  intro hp
  obtain ⟨a, ha⟩ := h hp
  exact error_ne_ok (he.symm.trans ha)

private def linkOf (j : Json) : Link where
  url := (linkUrl? j).getD ""
  label := textField? j "label"

private theorem isLink_record_iff {fields : List (String × Json)} :
    IsLink (.record fields) ↔ (textField? (.record fields) "url").isSome = true := by
  rw [textField?, Json.field?]
  constructor
  · rintro (_ | ⟨hurl⟩)
    rw [hurl]
    rfl
  · intro h
    split at h
    next url hurl => exact .record hurl
    next => cases h

private theorem link_eq_ok_iff {l : Link} : link j = .ok l ↔ IsLink j ∧ linkOf j = l := by
  cases j with
  | text url => exact ⟨fun h => ⟨.text url, Except.ok.inj h⟩, fun h => congrArg Except.ok h.2⟩
  | record fields =>
      have hlink : linkOf (.record fields) = ⟨(textField? (.record fields) "url").getD "",
        textField? (.record fields) "label"⟩ := rfl
      rw [link, isLink_record_iff, hlink]
      cases textField? (.record fields) "url" with
      | none => exact iff_of_false error_ne_ok fun h => Bool.false_ne_true h.1
      | some url => exact ⟨fun h => ⟨rfl, Except.ok.inj h⟩, fun h => congrArg Except.ok h.2⟩
  | null => exact iff_of_false error_ne_ok (by rintro ⟨⟨⟩, -⟩)
  | bool value => exact iff_of_false error_ne_ok (by rintro ⟨⟨⟩, -⟩)
  | int n => exact iff_of_false error_ne_ok (by rintro ⟨⟨⟩, -⟩)
  | float x => exact iff_of_false error_ne_ok (by rintro ⟨⟨⟩, -⟩)
  | list items => exact iff_of_false error_ne_ok (by rintro ⟨⟨⟩, -⟩)

private theorem links_eq_ok_iff {items : List Json} {ls : List Link} :
    links items = .ok ls ↔ (∀ item ∈ items, IsLink item) ∧ items.map linkOf = ls := by
  induction items generalizing ls with
  | nil => simp [links, eq_comm]
  | cons item rest ih =>
      rw [links, List.forall_mem_cons, List.map_cons]
      cases hlink : link item with
      | error e =>
          have hno : ¬IsLink item := not_of_error hlink fun h => ⟨_, link_eq_ok_iff.mpr ⟨h, rfl⟩⟩
          exact iff_of_false error_ne_ok fun h => hno h.1.1
      | ok first =>
          obtain ⟨hitem, rfl⟩ := link_eq_ok_iff.mp hlink
          cases hlinks : links rest with
          | error e =>
              have hno : ¬∀ item ∈ rest, IsLink item :=
                not_of_error hlinks fun h => ⟨_, ih.mpr ⟨h, rfl⟩⟩
              exact iff_of_false error_ne_ok fun h => hno h.1.2
          | ok others =>
              obtain ⟨hrest, rfl⟩ := ih.mp hlinks
              exact ⟨fun h => ⟨⟨hitem, hrest⟩, Except.ok.inj h⟩, fun h => congrArg Except.ok h.2⟩

/-! Entries -/

private theorem isEntry_record_iff {fields : List (String × Json)} :
    IsEntry (.record fields) ↔ IsLink (.record fields) := by
  refine ⟨?_, .link⟩
  rintro (_ | ⟨h⟩)
  exact h

private theorem isEntry_list_iff {items : List Json} :
    IsEntry (.list items) ↔ ∀ item ∈ items, IsLink item := by
  refine ⟨?_, .list⟩
  rintro (_ | ⟨⟨⟩⟩ | ⟨h⟩)
  exact h

private theorem entryLinks_eq_ok_iff {ls : List Link} :
    entryLinks j = .ok ls ↔ IsEntry j ∧ (entryItems j).map linkOf = ls := by
  cases j with
  | null => exact ⟨fun h => ⟨.null, Except.ok.inj h⟩, fun h => congrArg Except.ok h.2⟩
  | text url =>
      exact ⟨fun h => ⟨.link (.text url), Except.ok.inj h⟩, fun h => congrArg Except.ok h.2⟩
  | list items =>
      rw [entryLinks, links_eq_ok_iff, isEntry_list_iff]
      rfl
  | record fields =>
      rw [entryLinks, isEntry_record_iff]
      cases hlink : link (.record fields) with
      | error e =>
          have hno : ¬IsLink (.record fields) :=
            not_of_error hlink fun h => ⟨_, link_eq_ok_iff.mpr ⟨h, rfl⟩⟩
          exact iff_of_false error_ne_ok fun h => hno h.1
      | ok l =>
          obtain ⟨h, rfl⟩ := link_eq_ok_iff.mp hlink
          exact ⟨fun heq => ⟨h, Except.ok.inj heq⟩, fun heq => congrArg Except.ok heq.2⟩
  | bool value => exact iff_of_false error_ne_ok (by rintro ⟨_ | ⟨⟨⟩⟩, -⟩)
  | int n => exact iff_of_false error_ne_ok (by rintro ⟨_ | ⟨⟨⟩⟩, -⟩)
  | float x => exact iff_of_false error_ne_ok (by rintro ⟨_ | ⟨⟨⟩⟩, -⟩)

private theorem distribution?_linkOf (address : String) (h : IsLink j) :
    distribution? (config.relationKey address) (linkOf j) = listedLink? config address j := by
  obtain ⟨url, hurl⟩ : ∃ url, linkUrl? j = some url := by
    cases h with
    | text url => exact ⟨url, rfl⟩
    | record hurl => exact Option.isSome_iff_exists.mp (isLink_record_iff.mp (.record hurl))
  have hblank : (Text.trim url).isEmpty = Text.allBlank url := by
    rw [Bool.eq_iff_iff, String.isEmpty_iff, Text.trim_eq_empty_iff]
  rw [distribution?, linkOf, listedLink?, linkLabel?, hurl]
  simp only [Option.getD_some, Option.bind_some, hblank]

private theorem isLink_of_mem_entryItems (h : IsEntry j) : ∀ item ∈ entryItems j, IsLink item := by
  cases h with
  | null => exact List.forall_mem_nil _
  | list h => exact h
  | link h =>
      cases h with
      | text url => exact List.forall_mem_singleton.mpr (.text url)
      | record hurl => exact List.forall_mem_singleton.mpr (.record hurl)

private theorem filterMap_linkOf (address : String) (h : IsEntry j) :
    ((entryItems j).map linkOf).filterMap (distribution? (config.relationKey address)) =
      (entryItems j).filterMap (listedLink? config address) := by
  rw [List.filterMap_map]
  refine List.filterMap_congr fun item hitem => ?_
  rw [Function.comp_apply, distribution?_linkOf address (isLink_of_mem_entryItems h item hitem)]

private theorem readEntries_eq_ok_iff {fields : List (String × Json)} :
    readEntries config fields = .ok ds ↔
      (∀ field ∈ fields, IsEntry field.2) ∧ listed config fields = ds := by
  induction fields generalizing ds with
  | nil => simp [readEntries, listed, eq_comm]
  | cons field rest ih =>
      obtain ⟨address, entry⟩ := field
      rw [readEntries, List.forall_mem_cons, listed, List.flatMap_cons]
      cases hentry : entryLinks entry with
      | error e =>
          have hno : ¬IsEntry entry :=
            not_of_error hentry fun h => ⟨_, entryLinks_eq_ok_iff.mpr ⟨h, rfl⟩⟩
          exact iff_of_false error_ne_ok fun h => hno h.1.1
      | ok found =>
          obtain ⟨hformed, rfl⟩ := entryLinks_eq_ok_iff.mp hentry
          simp only [filterMap_linkOf address hformed]
          cases hrest : readEntries config rest with
          | error e =>
              have hno : ¬∀ field ∈ rest, IsEntry field.2 :=
                not_of_error hrest fun h => ⟨_, ih.mpr ⟨h, rfl⟩⟩
              exact iff_of_false error_ne_ok fun h => hno h.1.2
          | ok more =>
              obtain ⟨hmore, rfl⟩ := ih.mp hrest
              exact ⟨fun h => ⟨⟨hformed, hmore⟩, Except.ok.inj h⟩, fun h => congrArg Except.ok h.2⟩

/-! Values -/

private theorem entries_text_iff {s : String} {fields : List (String × Json)} :
    entries (.text s) = .ok fields ↔ StandsFor (.text s) fields := by
  rw [entries]
  cases hblank : Text.allBlank s with
  | true =>
      rw [if_pos rfl]
      constructor
      · rintro ⟨⟩
        exact .blank hblank
      · rintro (_ | _ | h)
        · rfl
        · rw [Json.ofText?_of_allBlank hblank] at h
          cases h
  | false =>
      have htext : StandsFor (.text s) fields ↔ Json.ofText? s = some (.record fields) := by
        refine ⟨?_, .text⟩
        rintro (_ | h | h)
        · exact absurd (hblank.symm.trans h) Bool.false_ne_true
        · exact h
      rw [if_neg Bool.false_ne_true, htext]
      cases Json.ofText? s with
      | none => exact iff_of_false error_ne_ok (by rintro ⟨⟩)
      | some found =>
          cases found with
          | record own =>
              rw [Option.some_inj, Json.record.injEq]
              exact ⟨Except.ok.inj, congrArg Except.ok⟩
          | _ => exact iff_of_false error_ne_ok (by rintro ⟨⟩)

private theorem entries_eq_ok_iff {fields : List (String × Json)} :
    entries j = .ok fields ↔ StandsFor j fields := by
  cases j with
  | text s => exact entries_text_iff
  | null =>
      constructor
      · rintro ⟨⟩
        exact .null
      · rintro ⟨⟩
        rfl
  | record own =>
      constructor
      · rintro ⟨⟩
        exact .record _
      · rintro ⟨⟩
        rfl
  | bool value => exact iff_of_false error_ne_ok (by rintro ⟨⟩)
  | int n => exact iff_of_false error_ne_ok (by rintro ⟨⟩)
  | float x => exact iff_of_false error_ne_ok (by rintro ⟨⟩)
  | list items => exact iff_of_false error_ne_ok (by rintro ⟨⟩)

private theorem read_eq_ok_iff : read config j = .ok ds ↔
    ∃ fields, StandsFor j fields ∧ (∀ field ∈ fields, IsEntry field.2) ∧
      listed config fields = ds := by
  simp only [← entries_eq_ok_iff, ← readEntries_eq_ok_iff]
  rw [read]
  cases entries j with
  | error e => simp
  | ok fields => simp

theorem read_of_ofText? {s : String} {fields : List (String × Json)}
    (h : Json.ofText? s = some (.record fields)) :
    read config (.text s) = read config (.record fields) := by
  rw [read, read, entries_eq_ok_iff.mpr (.text h), entries_eq_ok_iff.mpr (.record fields)]

theorem filled_of_read (h : read config j = .ok ds) :
    ∀ d ∈ ds, Text.allBlank d.url = false ∧ ∀ label ∈ d.label, Text.allBlank label = false := by
  intro d hd
  have hregular := regular_read h d hd
  refine ⟨?_, hregular.label⟩
  rw [Text.allBlank_eq_false_iff, hregular.url]
  exact hregular.nonempty

/-- References can be read exactly if they are well formed, and are read as what they list.  The
text of a record is read as the record, whose fields ascend, and nothing blank is found. -/
theorem read_accepts (config : Config) :
    (∀ j ds, read config j = .ok ds ↔
      ∃ fields, StandsFor j fields ∧ (∀ field ∈ fields, IsEntry field.2) ∧
        listed config fields = ds) ∧
    (∀ s fields, Json.ofText? s = some (.record fields) →
      Ascending fields ∧ read config (.text s) = read config (.record fields)) ∧
    ∀ j ds, read config j = .ok ds → ∀ d ∈ ds,
      Text.allBlank d.url = false ∧ ∀ label ∈ d.label, Text.allBlank label = false :=
  ⟨fun _ _ => read_eq_ok_iff,
    fun _ _ h => ⟨Json.ascending_of_ofText? h, read_of_ofText? h⟩,
    fun _ _ => filled_of_read⟩

example : read .urlOnly
    (.text "\x7b\"u\":[\" x \",\x7b\"url\":\"y\",\"label\":\" \"\x7d,\" \"],\"n\":null\x7d") =
      .ok [⟨"u", "x", none⟩, ⟨"u", "y", none⟩] := by
  decide +kernel

end References

end Gazetteer
