import Mathlib
import Gazetteer.Interchange.Table
import Gazetteer.Proofs.Interchange.References
import Gazetteer.Proofs.Number.Layout
import Gazetteer.Proofs.Schema
/-!
Records and rows read into resources, and what is read back of the record of a resource.
-/

namespace Gazetteer

namespace Resource

/-- A resource as records and tables give it. -/
structure Regular (r : Resource) : Prop where
  id : Text.trim r.id = r.id
  scalars : ∀ field value, r.scalars.get? field = some value → Text.allBlank value = false
  references : r.repeatables.get? referencesField = none

/-- A resource that has its references as distributions, if it has any at all. -/
def Readable (r : Resource) : Prop :=
  r.distributions ≠ [] ∨ r.repeatables.get? referencesField = none

instance (r : Resource) : Decidable r.Readable :=
  inferInstanceAs (Decidable (_ ∨ _))

end Resource

structure Taken (config : Config) (r : Resource) (ds : List Distribution) : Prop where
  accepted : Schema.Accepts .aardvark r
  regular : r.Regular
  distributions : ∀ d ∈ ds, d.Regular config

abbrev TakesScalar (schema : Schema) (name : String) : Prop :=
  name ≠ "id" ∧ name ≠ referencesField ∧ wellFormedName name = true ∧ schema.isScalar name = true

abbrev TakesValues (schema : Schema) (name : String) : Prop :=
  name ≠ "id" ∧ name ≠ referencesField ∧ wellFormedName name = true ∧ schema.isScalar name = false

/-- A resource and its distributions as records and tables give them, whatever the schema. -/
structure Normal (schema : Schema) (config : Config) (r : Resource) (ds : List Distribution) :
    Prop where
  id : Text.trim r.id = r.id
  nonempty : r.id ≠ ""
  scalars : ∀ name value, r.scalars.get? name = some value →
    TakesScalar schema name ∧ Text.allBlank value = false
  repeatables : ∀ name values, r.repeatables.get? name = some values →
    TakesValues schema name ∧ values ≠ [] ∧ ∀ value ∈ values, Text.allBlank value = false
  distributions : ∀ d ∈ ds, d.Regular config
  /-- What only a store fills in. -/
  bare : r.distributions = [] ∧ r.geometry = none ∧ r.thumbnail = none

namespace Normal

variable {schema : Schema} {config : Config} {r : Resource} {ds : List Distribution}

theorem ofId {id : String} (htrim : Text.trim id = id) (hempty : id ≠ "") :
    Normal schema config (.ofId id) [] where
  id := htrim
  nonempty := hempty
  scalars := by rintro _ _ ⟨⟩
  repeatables := by rintro _ _ ⟨⟩
  distributions := List.forall_mem_nil _
  bare := ⟨rfl, rfl, rfl⟩

theorem setScalar (h : Normal schema config r ds) {name value : String}
    (hname : TakesScalar schema name) (hvalue : Text.allBlank value = false) :
    Normal schema config (r.setScalar name value) ds :=
  { h with
    scalars := fun other given hgiven => by
      rw [Resource.setScalar, Dict.get?_insert] at hgiven
      split at hgiven
      next heq => exact heq ▸ Option.some_inj.mp hgiven ▸ ⟨hname, hvalue⟩
      next => exact h.scalars other given hgiven }

theorem setValues (h : Normal schema config r ds) {name : String} {values : List String}
    (hname : TakesValues schema name) (hfilled : values ≠ [])
    (hvalues : ∀ value ∈ values, Text.allBlank value = false) :
    Normal schema config (r.setValues name values) ds :=
  { h with
    repeatables := fun other given hgiven => by
      rw [Resource.setValues, Dict.get?_insert] at hgiven
      split at hgiven
      next heq => exact heq ▸ Option.some_inj.mp hgiven ▸ ⟨hname, hfilled, hvalues⟩
      next => exact h.repeatables other given hgiven }

theorem allBlank_id (h : Normal schema config r ds) : Text.allBlank r.id = false := by
  rw [Text.allBlank_eq_false_iff, h.id]
  exact h.nonempty

theorem accepted (h : Normal schema config r ds) : schema.Accepts r where
  id := h.allBlank_id
  scalars := fun name hname => by
    obtain ⟨value, hvalue⟩ := Dict.mem_keys_iff.mp hname
    obtain ⟨⟨hid, -, -, hscalar⟩, -⟩ := h.scalars name value hvalue
    exact ⟨hid, hscalar⟩
  repeatables := fun name hname => by
    obtain ⟨values, hvalues⟩ := Dict.mem_keys_iff.mp hname
    obtain ⟨⟨-, -, hformed, hscalar⟩, -⟩ := h.repeatables name values hvalues
    exact ⟨hformed, hscalar⟩

theorem no_references (h : Normal schema config r ds) :
    r.repeatables.get? referencesField = none := by
  cases hget : r.repeatables.get? referencesField with
  | none => rfl
  | some values => exact absurd rfl (h.repeatables _ _ hget).1.2.1

theorem taken (h : Normal .aardvark config r ds) : Taken config r ds where
  accepted := h.accepted
  regular := ⟨h.id, fun name value hvalue => (h.scalars name value hvalue).2, h.no_references⟩
  distributions := h.distributions

end Normal

/-! Records -/

namespace Record

variable {schema : Schema} {config : Config} {r : Resource} {ds : List Distribution}

theorem trim_id {record : Json} {id : String} (h : id? record = some id) :
    Text.trim id = id ∧ id ≠ "" := by
  simp only [id?] at h
  obtain ⟨h, hempty⟩ := Option.filter_eq_some_iff.mp h
  refine ⟨?_, by simpa using hempty⟩
  split at h
  · exact Option.some_inj.mp h ▸ Text.trim_trim _
  next n _ =>
    refine Option.some_inj.mp h ▸ Text.trim_of_unspaced ?_
    rw [Json.compact, Json.write, String.toList_ofList]
    exact Number.unspaced_int n
  next x _ =>
    refine Option.some_inj.mp h ▸ Text.trim_of_unspaced ?_
    rw [Json.compact, Json.write, String.toList_ofList]
    exact Number.unspaced_text _ x
  · cases h

private theorem allBlank_of_mem_cellTexts {value : Json} {text : String}
    (h : text ∈ cellTexts value) : Text.allBlank text = false := by
  have hcell {j : Json} (hj : cellText? j = some text) : Text.allBlank text = false := by
    simp only [cellText?] at hj
    simpa using (Option.filter_eq_some_iff.mp hj).2
  unfold cellTexts at h
  split at h
  · obtain ⟨j, -, hj⟩ := List.mem_filterMap.mp h
    exact hcell hj
  · exact hcell (Option.mem_toList.mp h)

private theorem normal_setField (h : Normal schema config r ds) {name : String} (value : Json)
    (hid : name ≠ "id") (hreferences : name ≠ referencesField) :
    Normal schema config (setField schema r name value) ds := by
  rw [setField]
  split
  · exact h
  next hformed =>
    rw [Bool.not_eq_true', Bool.not_eq_false] at hformed
    split
    next hscalar =>
      split
      · exact h
      next first _ hcells =>
        exact h.setScalar ⟨hid, hreferences, hformed, hscalar⟩
          (allBlank_of_mem_cellTexts (hcells ▸ List.mem_cons_self))
    next hscalar =>
      split
      · exact h
      next hfilled =>
        exact h.setValues ⟨hid, hreferences, hformed, by simpa using hscalar⟩ hfilled
          fun _ => allBlank_of_mem_cellTexts

private theorem normal_readFields {fields : List (String × Json)} (h : Normal schema config r ds)
    {r' : Resource} {ds' : List Distribution}
    (hread : readFields schema config r ds fields = .ok (r', ds')) :
    Normal schema config r' ds' := by
  induction fields generalizing r ds with
  | nil =>
      cases hread
      exact h
  | cons field rest ih =>
      obtain ⟨name, value⟩ := field
      rw [readFields] at hread
      split at hread
      · exact ih h hread
      next hid =>
        split at hread
        · split at hread
          · cases hread
          next found hfound =>
            exact ih { h with distributions := References.regular_read hfound } hread
        next hreferences =>
          exact ih (normal_setField h value (by simpa using hid) (by simpa using hreferences)) hread

theorem normal_read {record : Json} (h : read schema config record = .ok (r, ds)) :
    Normal schema config r ds := by
  rw [read.eq_def] at h
  split at h
  · split at h
    · cases h
    next id hid =>
      obtain ⟨htrim, hempty⟩ := trim_id hid
      exact normal_readFields (.ofId htrim hempty) h
  · cases h

theorem taken_read {record : Json} (h : read .aardvark config record = .ok (r, ds)) :
    Taken config r ds :=
  (normal_read h).taken

/-! Fields of a record -/

def scalarText? (schema : Schema) (name : String) (value : Json) : Option String :=
  if name ≠ "id" ∧ name ≠ referencesField ∧ wellFormedName name = true ∧
      schema.isScalar name = true then (cellTexts value).head?
  else none

def fieldTexts? (schema : Schema) (name : String) (value : Json) : Option (List String) :=
  if name ≠ "id" ∧ name ≠ referencesField ∧ wellFormedName name = true ∧
      schema.isScalar name = false then
    if cellTexts value = [] then none else some (cellTexts value)
  else none

/-- A field of a record put into a resource, if it is one of those that the resource has. -/
def putField (schema : Schema) (r : Resource) (field : String × Json) : Resource :=
  if field.1 == "id" || field.1 == referencesField then r
  else setField schema r field.1 field.2

/-- Reading the fields is reading the references and putting the others into the resource. -/
private theorem readFields_eq {fields : List (String × Json)} (h : (fields.map Prod.fst).Nodup)
    (r : Resource) (ds : List Distribution) :
    readFields schema config r ds fields =
      (((findEntry referencesField fields).map (References.read config)).getD (.ok ds)).map
        fun found => (fields.foldl (putField schema) r, found) := by
  induction fields generalizing r ds with
  | nil => rfl
  | cons field rest ih =>
      obtain ⟨name, value⟩ := field
      obtain ⟨hnew, hrest⟩ := List.nodup_cons.mp h
      rw [readFields, List.foldl_cons, putField]
      by_cases hid : name = "id"
      · have hother : name ≠ referencesField := by rw [hid]; decide
        simp only [hid, BEq.rfl, if_true, Bool.true_or]
        rw [ih hrest, findEntry_cons, if_neg (hid ▸ hother)]
      · simp only [beq_false_of_ne hid, Bool.false_eq_true, if_false, Bool.false_or]
        by_cases hreferences : name = referencesField
        · subst hreferences
          have hnone : findEntry referencesField rest = none := findEntry_eq_none_iff.mpr hnew
          simp only [BEq.rfl, if_true, findEntry_cons, Option.map_some, Option.getD_some]
          cases References.read config value with
          | error e => rfl
          | ok found =>
              refine (ih hrest r found).trans ?_
              rw [hnone]
              rfl
        · simp only [beq_false_of_ne hreferences, Bool.false_eq_true, if_false]
          rw [ih hrest, findEntry_cons, if_neg hreferences]

private theorem putField_eq (r : Resource) (name : String) (value : Json) :
    putField schema r (name, value) =
      { r with
        scalars := (scalarText? schema name value).elim r.scalars (r.scalars.insert name)
        repeatables :=
          (fieldTexts? schema name value).elim r.repeatables (r.repeatables.insert name) } := by
  rw [putField, scalarText?, fieldTexts?]
  by_cases hid : name = "id"
  · simp [hid]
  by_cases hreferences : name = referencesField
  · simp [hreferences]
  rw [if_neg (by simp [hid, hreferences]), setField]
  cases wellFormedName name with
  | false => simp
  | true =>
      cases schema.isScalar name with
      | true =>
          cases cellTexts value with
          | nil => simp
          | cons first rest => simp [hid, hreferences, Resource.setScalar]
      | false =>
          cases cellTexts value with
          | nil => simp
          | cons first rest => simp [hid, hreferences, Resource.setValues]

private theorem get?_elim {α : Type} (d : Dict α) (name other : String) (given : Option α) :
    (given.elim d (d.insert name)).get? other =
      if other = name then given.or (d.get? other) else d.get? other := by
  cases given with
  | none => simp
  | some value => simp [Dict.get?_insert]

private theorem foldl_putField (schema : Schema) {fields : List (String × Json)}
    (h : (fields.map Prod.fst).Nodup) (r : Resource) (name : String) :
    ((fields.foldl (putField schema) r).scalars.get? name =
        ((findEntry name fields).bind (scalarText? schema name)).or (r.scalars.get? name)) ∧
      (fields.foldl (putField schema) r).repeatables.get? name =
        ((findEntry name fields).bind (fieldTexts? schema name)).or (r.repeatables.get? name) := by
  induction fields generalizing r with
  | nil => exact ⟨rfl, rfl⟩
  | cons field rest ih =>
      obtain ⟨own, value⟩ := field
      obtain ⟨hnew, hrest⟩ := List.nodup_cons.mp h
      obtain ⟨hscalars, hrepeatables⟩ := ih hrest (putField schema r (own, value))
      rw [List.foldl_cons, hscalars, hrepeatables, putField_eq, get?_elim, get?_elim]
      by_cases hname : name = own
      · subst hname
        have hnone : findEntry name rest = none := findEntry_eq_none_iff.mpr hnew
        simp [findEntry_cons, hnone]
      · have hother : own ≠ name := Ne.symm hname
        simp [findEntry_cons, hname, hother]

private theorem id_foldl_putField (fields : List (String × Json)) (r : Resource) :
    (fields.foldl (putField schema) r).id = r.id := by
  induction fields generalizing r with
  | nil => rfl
  | cons field rest ih => rw [List.foldl_cons, ih, putField_eq]

/-! The record of a resource -/

theorem field?_ofResource (config : Config) (r : Resource) (name : String) :
    (ofResource config r).field? name =
      (if name = referencesField then (References.text? config r.distributions).map .text
        else none).or
        (((r.repeatables.get? name).map .ofTexts).or
          (((r.scalars.get? name).map .text).or
            (if name = "id" then some (.text r.id) else none))) := by
  have hid : (Dict.ofList [("id", Json.text r.id)]).get? name =
      if name = "id" then some (.text r.id) else none := Dict.get?_insert _ _ _ _
  have hreferences : (Dict.ofList ((References.text? config r.distributions).map fun text =>
        (referencesField, Json.text text)).toList).get? name =
      if name = referencesField then (References.text? config r.distributions).map .text
      else none := by
    cases References.text? config r.distributions with
    | none => simp [Dict.ofList]
    | some text => exact Dict.get?_insert _ _ _ _
  rw [ofResource, Json.ofFields_eq, Json.field?]
  change (Dict.ofList _).get? name = _
  rw [Dict.get?_ofList_append, Dict.get?_ofList_append, Dict.get?_ofList_append,
    Dict.get?_ofList_map, Dict.get?_ofList_map, hid, hreferences]

def reread? (values : List String) : Option (List String) :=
  let found := values.filter fun value => !Text.allBlank value
  if found = [] then none else some found

private theorem cellTexts_text (value : String) :
    (cellTexts (.text value)).head? = (some value).filter fun text => !Text.allBlank text := by
  change ((some value).filter fun text => !Text.allBlank text).toList.head? = _
  cases (some value).filter fun text => !Text.allBlank text <;> rfl

private theorem cellTexts_ofTexts (values : List String) :
    cellTexts (.ofTexts values) = values.filter fun value => !Text.allBlank value := by
  change (values.map Json.text).filterMap cellText? = _
  rw [List.filterMap_map, ← List.filterMap_eq_filter]
  refine List.filterMap_congr fun value _ => ?_
  change (some value).filter (fun text => !Text.allBlank text) = _
  rw [Option.filter_some, Option.guard]

/-- A resource whose record has each of its fields in one place.  A repeatable may stand where the
distributions go. -/
structure Exportable (schema : Schema) (r : Resource) : Prop where
  id : Text.allBlank r.id = false
  scalars : ∀ name ∈ r.scalars.keys, TakesScalar schema name
  repeatables : ∀ name ∈ r.repeatables.keys,
    name ≠ "id" ∧ wellFormedName name = true ∧ schema.isScalar name = false

theorem exportable_of_accepts (h : Schema.Accepts .aardvark r) : Exportable .aardvark r := by
  have hid : Schema.isScalar .aardvark "id" = true := by decide
  have hreferences : Schema.isScalar .aardvark referencesField = false := by decide
  have hnames : ∀ name ∈ Schema.scalarNames, wellFormedName name = true := by decide
  refine ⟨h.id, fun name hname => ?_, fun name hname => ?_⟩
  · obtain ⟨hother, hscalar⟩ := h.scalars name hname
    refine ⟨hother, ?_, hnames name ((Schema.isScalar_aardvark name).mp hscalar), hscalar⟩
    rintro rfl
    exact Bool.false_ne_true (hreferences.symm.trans hscalar)
  · obtain ⟨hformed, hscalar⟩ := h.repeatables name hname
    refine ⟨?_, hformed, hscalar⟩
    rintro rfl
    exact Bool.false_ne_true (hscalar.symm.trans hid)

section Exportable

variable (hr : Exportable schema r)
include hr

private theorem get?_scalars {name : String} (h : ¬TakesScalar schema name) :
    r.scalars.get? name = none := by
  cases hget : r.scalars.get? name with
  | none => rfl
  | some value => exact absurd (hr.scalars name (Dict.mem_keys_iff.mpr ⟨value, hget⟩)) h

private theorem get?_repeatables {name : String}
    (h : ¬(name ≠ "id" ∧ schema.isScalar name = false)) : r.repeatables.get? name = none := by
  cases hget : r.repeatables.get? name with
  | none => rfl
  | some values =>
      obtain ⟨hid, -, hscalar⟩ := hr.repeatables name (Dict.mem_keys_iff.mpr ⟨values, hget⟩)
      exact absurd ⟨hid, hscalar⟩ h

theorem id?_ofResource (config : Config) :
    id? (ofResource config r) = some (Text.trim r.id) := by
  have hfield : (ofResource config r).field? "id" = some (.text r.id) := by
    rw [field?_ofResource, if_neg (by decide), get?_repeatables hr (by simp),
      get?_scalars hr (by simp)]
    rfl
  have hempty : Text.trim r.id ≠ "" := Text.allBlank_eq_false_iff.mp hr.id
  rw [id?, hfield]
  simp [hempty]

private theorem scalars_reread (config : Config) (name : String) :
    ((ofResource config r).field? name).bind (scalarText? schema name) =
      (r.scalars.get? name).filter fun value => !Text.allBlank value := by
  by_cases hname : TakesScalar schema name
  · have hnone : ¬(name ≠ "id" ∧ schema.isScalar name = false) := by simp [hname.2.2.2]
    rw [field?_ofResource, if_neg hname.2.1, get?_repeatables hr hnone, if_neg hname.1]
    cases r.scalars.get? name with
    | none => rfl
    | some value =>
        change scalarText? schema name (.text value) = _
        rw [scalarText?, if_pos hname, cellTexts_text]
  · have hnone (value : Json) : scalarText? schema name value = none := if_neg hname
    rw [get?_scalars hr hname]
    cases (ofResource config r).field? name with
    | none => rfl
    | some value => exact hnone value

private theorem repeatables_reread (config : Config) (name : String) :
    ((ofResource config r).field? name).bind (fieldTexts? schema name) =
      if name = referencesField then none else (r.repeatables.get? name).bind reread? := by
  by_cases hreferences : name = referencesField
  · have hnone (value : Json) : fieldTexts? schema name value = none :=
      if_neg fun h => h.2.1 hreferences
    rw [if_pos hreferences]
    cases (ofResource config r).field? name with
    | none => rfl
    | some value => exact hnone value
  · rw [if_neg hreferences, field?_ofResource, if_neg hreferences, Option.none_or]
    cases hget : r.repeatables.get? name with
    | none =>
        -- What stands in the field then is a scalar or the id, and no repeatable takes it.
        have hnone (value : Json) (hvalue : ((r.scalars.get? name).map Json.text).or
            (if name = "id" then some (.text r.id) else none) = some value) :
            fieldTexts? schema name value = none := by
          refine if_neg fun h => ?_
          rw [get?_scalars hr (by simp [h.2.2.2]), if_neg h.1] at hvalue
          cases hvalue
        rw [Option.map_none, Option.none_or, Option.bind_none]
        exact Option.bind_eq_none_iff.mpr hnone
    | some values =>
        obtain ⟨hid, hformed, hscalar⟩ :=
          hr.repeatables name (Dict.mem_keys_iff.mpr ⟨values, hget⟩)
        change fieldTexts? schema name (.ofTexts values) = reread? values
        rw [fieldTexts?, if_pos ⟨hid, hreferences, hformed, hscalar⟩, cellTexts_ofTexts]
        rfl

private theorem read_eq (config : Config) :
    ∃ r', r'.id = Text.trim r.id ∧
      (∀ name, r'.scalars.get? name =
        (r.scalars.get? name).filter fun value => !Text.allBlank value) ∧
      (∀ name, r'.repeatables.get? name =
        if name = referencesField then none else (r.repeatables.get? name).bind reread?) ∧
      read schema config (ofResource config r) =
        ((((ofResource config r).field? referencesField).map (References.read config)).getD
          (.ok [])).map fun found => (r', found) := by
  obtain ⟨fields, hfields, hnodup⟩ : ∃ fields, ofResource config r = .record fields ∧
      (fields.map Prod.fst).Nodup := ⟨_, Json.ofFields_eq _, Dict.nodup_keys _⟩
  have hfind (name : String) : findEntry name fields = (ofResource config r).field? name := by
    rw [hfields]
    rfl
  let start : Resource := .ofId (Text.trim r.id)
  have hget (name : String) := foldl_putField schema hnodup start name
  refine ⟨fields.foldl (putField schema) start, id_foldl_putField fields start,
    fun name => ?_, fun name => ?_, ?_⟩
  · rw [(hget name).1, hfind]
    exact (Option.or_none).trans (scalars_reread hr config name)
  · rw [(hget name).2, hfind]
    exact (Option.or_none).trans (repeatables_reread hr config name)
  · have hid := id?_ofResource hr config
    rw [hfields] at hid ⊢
    rw [read, hid]
    exact readFields_eq hnodup _ _

private theorem references_ofResource (config : Config) :
    (ofResource config r).field? referencesField =
      ((References.text? config r.distributions).map Json.text).or
        ((r.repeatables.get? referencesField).map .ofTexts) := by
  rw [field?_ofResource, if_pos rfl, get?_scalars hr (by simp), if_neg (by decide), Option.map_none,
    Option.none_or, Option.or_none]

/-- What is read back of the record of a resource. -/
theorem read_ofResource (config : Config) (hreadable : r.Readable) :
    ∃ r', read schema config (ofResource config r) =
        .ok (r', References.reread config r.distributions) ∧
      r'.id = Text.trim r.id ∧
      (∀ name, r'.scalars.get? name =
        (r.scalars.get? name).filter fun value => !Text.allBlank value) ∧
      ∀ name, r'.repeatables.get? name =
        if name = referencesField then none else (r.repeatables.get? name).bind reread? := by
  obtain ⟨r', hid, hscalars, hrepeatables, hread⟩ := read_eq hr config
  refine ⟨r', ?_, hid, hscalars, hrepeatables⟩
  rw [hread, references_ofResource hr]
  cases hds : r.distributions with
  | nil =>
      have hnone : r.repeatables.get? referencesField = none :=
        hreadable.resolve_left fun hne => hne hds
      rw [hnone]
      rfl
  | cons d rest =>
      have htext := References.read_text config (d :: rest)
      change ((References.read config (.text _)).map _) = _
      rw [htext]
      rfl

/-- A references field of its own keeps a resource from being read back. -/
theorem read_ofResource_error (config : Config) (h : ¬r.Readable) :
    ∃ e, read schema config (ofResource config r) = .error e := by
  obtain ⟨hds, hreferences⟩ := not_or.mp h
  obtain ⟨r', -, -, -, hread⟩ := read_eq hr config
  obtain ⟨values, hvalues⟩ := Option.ne_none_iff_exists'.mp hreferences
  rw [hread, references_ofResource hr, not_not.mp hds, hvalues]
  exact ⟨_, rfl⟩

end Exportable

end Record

/-! Rows -/

theorem allBlank_of_mem_splitCell {cell value : String} (h : value ∈ splitCell cell) :
    Text.allBlank value = false := by
  rw [splitCell, mem_distinctTexts] at h
  obtain ⟨hmem, hempty⟩ := List.mem_filter.mp h
  obtain ⟨piece, -, rfl⟩ := List.mem_map.mp hmem
  rw [Text.allBlank_eq_false_iff, Text.trim_trim]
  simpa using hempty

namespace FieldCells

variable {schema : Schema} {config : Config} {cells : FieldCells} {r : Resource}
  {ds : List Distribution}

theorem trim_cell {field text : String} (h : cells.cell? field = some text) :
    Text.trim text = text ∧ text ≠ "" := by
  rw [cell?] at h
  split at h
  · simp only at h
    split at h
    · cases h
    next hempty =>
      cases h
      exact ⟨Text.trim_trim _, by simpa using hempty⟩
  · cases h

private theorem normal_setCell (h : Normal schema config r ds) {field text : String}
    (hid : field ≠ "id") (hreferences : field ≠ referencesField)
    (htext : Text.allBlank text = false) :
    Normal schema config (FieldCells.setField schema r field text) ds := by
  rw [FieldCells.setField]
  split
  · exact h
  next hformed =>
    rw [Bool.not_eq_true', Bool.not_eq_false] at hformed
    split
    next hscalar => exact h.setScalar ⟨hid, hreferences, hformed, hscalar⟩ htext
    next hscalar =>
      split
      · exact h
      next hfilled =>
        exact h.setValues ⟨hid, hreferences, hformed, by simpa using hscalar⟩ hfilled
          fun _ => allBlank_of_mem_splitCell

private theorem normal_setFields {cells : FieldCells} (h : Normal schema config r ds) :
    Normal schema config (setFields schema config r ds cells).1
      (setFields schema config r ds cells).2 := by
  induction cells generalizing r ds with
  | nil => exact h
  | cons cell rest ih =>
      obtain ⟨field, value⟩ := cell
      simp only [setFields]
      split
      · exact ih h
      next hgiven =>
        rw [Bool.not_eq_true, Bool.or_eq_false_iff] at hgiven
        obtain ⟨hempty, hletters⟩ := hgiven
        split
        · split
          next found hfound => exact ih { h with distributions := References.regular_read hfound }
          · exact ih h
        next hreferences =>
          have hid : field ≠ "id" := by
            rintro rfl
            exact Bool.false_ne_true (hletters.symm.trans (Text.sameLetters_refl "id"))
          have hblank : Text.allBlank (Text.trim value) = false := by
            rw [Text.allBlank_eq_false_iff, Text.trim_trim]
            simpa using hempty
          exact ih (normal_setCell h hid (by simpa using hreferences) hblank)

theorem normal_resource? (h : cells.resource? schema config = some (r, ds)) :
    Normal schema config r ds := by
  obtain ⟨id, hid, heq⟩ := Option.map_eq_some_iff.mp h
  obtain ⟨htrim, hempty⟩ := trim_cell hid
  have hnormal : Normal schema config (setFields schema config (.ofId id) [] cells).1
      (setFields schema config (.ofId id) [] cells).2 := normal_setFields (.ofId htrim hempty)
  rwa [heq] at hnormal

theorem taken_resource? (h : cells.resource? .aardvark config = some (r, ds)) :
    Taken config r ds :=
  (normal_resource? h).taken

theorem regular_distribution? {id : String} {d : Distribution}
    (h : cells.distribution? config = some (id, d)) : d.Regular config := by
  simp only [distribution?, Option.bind_eq_bind, Option.bind_eq_some_iff] at h
  obtain ⟨_, -, type, -, url, hurl, heq⟩ := h
  obtain ⟨rfl, rfl⟩ := Prod.mk.inj (Option.some_inj.mp heq)
  refine ⟨config.isKey_relationKey type, (trim_cell hurl).1, (trim_cell hurl).2, ?_⟩
  intro label hlabel
  obtain ⟨htrim, hempty⟩ := trim_cell hlabel
  rw [Text.allBlank_eq_false_iff, htrim]
  exact hempty

end FieldCells

end Gazetteer
