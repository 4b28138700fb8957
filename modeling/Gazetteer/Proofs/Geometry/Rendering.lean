import Mathlib
import Gazetteer.Proofs.Geometry.Spelling
import Gazetteer.Proofs.Number.Shortest
/-!
Envelopes written as text and read again.  The numbers are those that were written, bit by bit, so
that nothing is lost however often an envelope is read and written.
-/

namespace Gazetteer.Envelope

open Number

structure IsProper (e : Envelope) : Prop where
  finite : e.IsFinite
  west_le_east : e.minX ≤ e.maxX
  south_le_north : e.minY ≤ e.maxY

variable {e : Envelope}

theorem IsProper.ofEdges? (h : e.IsProper) :
    ofEdges? e.minX e.maxX e.maxY e.minY = some e := by
  obtain ⟨hfinite, hx, hy⟩ := h
  have hedges : ∀ x ∈ [e.minX, e.maxX, e.maxY, e.minY], isFinite x = true := by
    simp [hfinite.minX, hfinite.minY, hfinite.maxX, hfinite.maxY]
  exact (ofEdges?_eq_some_iff hedges).mpr ⟨hx, hy, rfl⟩

theorem isProper_of_parse? {text : String} (h : parse? text = some e) : e.IsProper := by
  have hfinite := isFinite_of_parse? h
  rw [parse?, parseList?] at h
  split at h
  next west east north south hnumbers =>
    obtain ⟨inner, -, hinner⟩ := Option.bind_eq_some_iff.mp hnumbers
    obtain ⟨ls, -, hvalues, hmap⟩ := numbers?_eq_some_iff.mp hinner
    have hedges : ∀ x ∈ [west, east, north, south], isFinite x = true := by
      rw [← hmap]
      exact List.forall_mem_map.mpr hvalues
    obtain ⟨hx, hy, rfl⟩ := (ofEdges?_eq_some_iff hedges).mp h
    exact ⟨hfinite, hx, hy⟩
  next => cases h

/-! Writing -/

private theorem pads_self (l : Literal) : l.Pads l.text :=
  ⟨[], [], rfl, rfl, (List.append_nil _).symm⟩

theorem numbers?_text (h : e.IsFinite) :
    numbers? ((Layout.plain.text e.minX).toList ++ ',' :: ((Layout.plain.text e.maxX).toList ++
      ',' :: ((Layout.plain.text e.maxY).toList ++ ',' :: (Layout.plain.text e.minY).toList))) =
      some [e.minX, e.maxX, e.maxY, e.minY] := by
  obtain ⟨west, hwest, hminX⟩ := exists_text .plain h.minX
  obtain ⟨east, heast, hmaxX⟩ := exists_text .plain h.maxX
  obtain ⟨north, hnorth, hmaxY⟩ := exists_text .plain h.maxY
  obtain ⟨south, hsouth, hminY⟩ := exists_text .plain h.minY
  rw [numbers?_eq_some_iff, ← hwest, ← heast, ← hnorth, ← hsouth]
  refine ⟨[west, east, north, south], .more (pads_self _) (.more (pads_self _)
    (.more (pads_self _) (.last (pads_self _)))), ?_, ?_⟩
  · simp [hminX, hmaxX, hmaxY, hminY, h.minX, h.maxX, h.maxY, h.minY]
  · simp [hminX, hmaxX, hmaxY, hminY]

theorem inside?_text (e : Envelope) : inside? e.text.toList =
    some ((Layout.plain.text e.minX).toList ++ ',' :: ((Layout.plain.text e.maxX).toList ++
      ',' :: ((Layout.plain.text e.maxY).toList ++ ',' :: (Layout.plain.text e.minY).toList))) := by
  rw [inside?_eq_some_iff]
  refine ⟨[], "ENVELOPE".toList, [], [], rfl, by decide, rfl, rfl, ?_⟩
  have htext : e.text = "ENVELOPE(" ++ Layout.plain.text e.minX ++ "," ++
      Layout.plain.text e.maxX ++ "," ++ Layout.plain.text e.maxY ++ "," ++
        Layout.plain.text e.minY ++ ")" := rfl
  have hopen : "ENVELOPE(".toList = "ENVELOPE".toList ++ ['('] := rfl
  have hcomma : ",".toList = [','] := rfl
  have hclose : ")".toList = [')'] := rfl
  simp only [htext, String.toList_append, hopen, hcomma, hclose, List.append_assoc,
    List.append_nil, List.nil_append, List.cons_append]

theorem parse?_text (h : e.IsProper) : parse? e.text = some e := by
  rw [parse?, parseList?, inside?_text, Option.bind_some, numbers?_text h.finite]
  exact h.ofEdges?

/-- The envelopes that are read from their own texts are those with finite edges in order.  What is
read from any text is one of them, and is kept when it is written and read again. -/
theorem text_read_again :
    (∀ e : Envelope, parse? e.text = some e ↔ e.IsProper) ∧
      ∀ (text : String) (e : Envelope), parse? text = some e →
        e.IsProper ∧ parse? e.text = some e := by
  refine ⟨fun e => ⟨isProper_of_parse?, parse?_text⟩, fun text e h => ?_⟩
  have hproper := isProper_of_parse? h
  exact ⟨hproper, parse?_text hproper⟩

theorem text_read_again_signs :
    parse? " envelope(-0, 10.50,2e1,-5)" = some ⟨-0.0, -5, 10.5, 20⟩ ∧
      parse? (text ⟨-0.0, -5, 10.5, 20⟩) = some ⟨-0.0, -5, 10.5, 20⟩ := by
  have hread : parse? " envelope(-0, 10.50,2e1,-5)" = some ⟨-0.0, -5, 10.5, 20⟩ := by rfl
  exact ⟨hread, (text_read_again.2 _ _ hread).2⟩

end Gazetteer.Envelope
