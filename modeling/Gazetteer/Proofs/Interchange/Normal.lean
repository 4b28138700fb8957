import Mathlib
import Gazetteer.Proofs.Interchange.Record
/-!
Records in normal form.  Whatever the schema, what is read of a record is in a form that a check
lets through and that is read back of its own record.
-/

namespace Gazetteer

variable {schema : Schema} {config : Config} {r : Resource} {ds : List Distribution}

namespace Normal

theorem exportable (h : Normal schema config r ds) :
    Record.Exportable schema { r with distributions := ds } where
  id := h.allBlank_id
  scalars := fun name hname => by
    obtain ⟨value, hvalue⟩ := Dict.mem_keys_iff.mp hname
    exact (h.scalars name value hvalue).1
  repeatables := fun name hname => by
    obtain ⟨values, hvalues⟩ := Dict.mem_keys_iff.mp hname
    obtain ⟨hid, -, hformed, hscalar⟩ := (h.repeatables name values hvalues).1
    exact ⟨hid, hformed, hscalar⟩

theorem filter_scalar (h : Normal schema config r ds) (name : String) :
    (r.scalars.get? name).filter (fun value => !Text.allBlank value) = r.scalars.get? name := by
  cases hget : r.scalars.get? name with
  | none => rfl
  | some value => simp [(h.scalars name value hget).2]

theorem reread?_values (h : Normal schema config r ds) (name : String) :
    (r.repeatables.get? name).bind Record.reread? = r.repeatables.get? name := by
  cases hget : r.repeatables.get? name with
  | none => rfl
  | some values =>
      obtain ⟨-, hfilled, hvalues⟩ := h.repeatables name values hget
      have hkept : values.filter (fun value => !Text.allBlank value) = values :=
        List.filter_eq_self.mpr fun value hvalue => by rw [hvalues value hvalue]; rfl
      rw [Option.bind_some, Record.reread?]
      simp only [hkept, hfilled, if_false]

theorem read_ofResource (h : Normal schema config r ds) :
    Record.read schema config (Record.ofResource config { r with distributions := ds }) =
      .ok (r, References.reread config ds) := by
  obtain ⟨back, hread, hid, hscalars, hrepeatables⟩ :=
    Record.read_ofResource h.exportable config (.inr h.no_references)
  have hbare := (Record.normal_read hread).bare
  have hsame : back = r := by
    obtain ⟨id, scalars, repeatables, distributions, geometry, thumbnail⟩ := back
    obtain ⟨hdistributions, hgeometry, hthumbnail⟩ := h.bare
    obtain rfl : id = r.id := hid.trans h.id
    obtain rfl : scalars = r.scalars :=
      Dict.ext_get? fun name => (hscalars name).trans (h.filter_scalar name)
    obtain rfl : repeatables = r.repeatables := by
      refine Dict.ext_get? fun name => (hrepeatables name).trans ?_
      split
      next hname => rw [hname, h.no_references]
      next => exact h.reread?_values name
    obtain ⟨rfl, rfl, rfl⟩ := hbare
    rw [← hdistributions, ← hgeometry, ← hthumbnail]
  rw [hread, hsame]

end Normal

namespace Record

/-- What is read of a record passes the check of its schema, has no blank value, and is read back of
the record that is made of it. -/
theorem read_settles {record : Json} (h : read schema config record = .ok (r, ds)) :
    schema.check r = .ok () ∧
      (∀ name value, r.scalar? name = some value → Text.allBlank value = false) ∧
      (∀ name, ∀ value ∈ r.values name, Text.allBlank value = false) ∧
      ∃ es, read schema config (ofResource config { r with distributions := ds }) = .ok (r, es) ∧
        es.Perm ds ∧ ∀ relation, es.filter (fun d => d.relation == relation) =
          ds.filter fun d => d.relation == relation := by
  have hnormal := normal_read h
  have hagree := References.agree_reread hnormal.distributions
  refine ⟨Schema.check_eq_ok.mpr hnormal.accepted, fun name value hvalue => ?_,
    fun name value hvalue => ?_, _, hnormal.read_ofResource, hagree.perm, hagree⟩
  · exact (hnormal.scalars name value hvalue).2
  · rw [Resource.values] at hvalue
    cases hget : r.repeatables.get? name with
    | none =>
        rw [hget] at hvalue
        cases hvalue
    | some values =>
        rw [hget] at hvalue
        exact (hnormal.repeatables name values hget).2.2 value hvalue

theorem read_settles_mixed :
    let schema : Schema := ⟨[.scalar "n", .scalar referencesField, .repeatable "id"]⟩
    let record : Json := .ofFields
      [("id", .int (-7)), ("n", .list [.text " ", .list [.int 1], .bool true, .int 2]),
        ("two words", .text "x"), ("m", .list [.text "b", .null, .text "", .int 5]), ("o", .null),
        (referencesField, .text "\x7b\"u\":[\" x \",\" \"],\"http://schema.org/url\":\"y\"\x7d")]
    let r := ((Resource.ofId "-7").setScalar "n" "true").setValues "m" ["b", "5"]
    let ds : List Distribution := [⟨"url", "y", none⟩, ⟨"u", "x", none⟩]
    read schema .urlOnly record = .ok (r, ds) ∧ schema.check r = .ok () ∧
      ∃ es, es.Perm ds ∧ read schema .urlOnly (ofResource .urlOnly { r with distributions := ds }) =
        .ok (r, es) := by
  intro schema record r ds
  have hread : read schema .urlOnly record = .ok (r, ds) := by decide +kernel
  obtain ⟨hcheck, -, -, es, hes, hperm, -⟩ := read_settles hread
  exact ⟨hread, hcheck, es, hperm, hes⟩

end Record

end Gazetteer
