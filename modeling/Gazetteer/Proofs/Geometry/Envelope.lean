import Mathlib
import Gazetteer.Geometry.EnvelopeText
import Gazetteer.Proofs.Number.Order
/-! Envelopes that were read from text, and what a store makes of their numbers. -/

namespace Gazetteer.Envelope

structure IsFinite (e : Envelope) : Prop where
  minX : Number.isFinite e.minX = true
  minY : Number.isFinite e.minY = true
  maxX : Number.isFinite e.maxX = true
  maxY : Number.isFinite e.maxY = true

private theorem isFinite_of_mem_numbers? {text : List Char} {xs : List Float}
    (h : numbers? text = some xs) : ∀ x ∈ xs, Number.isFinite x = true := by
  have hfinite (cs : List Char) (x : Float) (hx : Number.finite? cs = some x) :
      Number.isFinite x = true := by
    obtain ⟨n, -, hn⟩ := Option.bind_eq_some_iff.mp hx
    simp only at hn
    split at hn
    next hfinite => exact Option.some_inj.mp hn ▸ hfinite
    next => exact absurd hn (Option.some_ne_none _).symm
  rw [numbers?] at h
  generalize Text.pieces (· == ',') text = pieces at h
  induction pieces generalizing xs with
  | nil =>
      obtain rfl : xs = [] := (Option.some_inj.mp h).symm
      exact fun x hx => absurd hx List.not_mem_nil
  | cons piece rest ih =>
      rw [List.mapM_cons] at h
      obtain ⟨y, hy, h⟩ := Option.bind_eq_some_iff.mp h
      obtain ⟨ys, hys, h⟩ := Option.bind_eq_some_iff.mp h
      obtain rfl : xs = y :: ys := (Option.some_inj.mp h).symm
      exact List.forall_mem_cons.mpr ⟨hfinite _ y hy, ih hys⟩

theorem isFinite_of_parse? {text : String} {e : Envelope} (h : parse? text = some e) :
    e.IsFinite := by
  rw [parse?, parseList?] at h
  split at h
  next west east north south hnumbers =>
    obtain ⟨inside, -, hinside⟩ := Option.bind_eq_some_iff.mp hnumbers
    have hfinite := isFinite_of_mem_numbers? hinside
    rw [ofEdges?] at h
    split at h
    · exact absurd h (Option.some_ne_none _).symm
    · obtain rfl := Option.some_inj.mp h
      exact ⟨hfinite west (by simp), hfinite south (by simp), hfinite east (by simp),
        hfinite north (by simp)⟩
  next => exact absurd h (Option.some_ne_none _).symm

/-- An edge as it is stored, without the sign of a zero. -/
def storedEdge (x : Float) : Float :=
  if x == 0 then 0 else x

def stored (e : Envelope) : Envelope :=
  ⟨storedEdge e.minX, storedEdge e.minY, storedEdge e.maxX, storedEdge e.maxY⟩

private theorem isFinite_zero : Number.isFinite 0 = true := by
  decide

theorem isFinite_storedEdge {x : Float} (h : Number.isFinite x = true) :
    Number.isFinite (storedEdge x) = true := by
  rw [storedEdge]
  split
  · exact isFinite_zero
  · exact h

theorem IsFinite.stored {e : Envelope} (h : e.IsFinite) : e.stored.IsFinite :=
  ⟨isFinite_storedEdge h.minX, isFinite_storedEdge h.minY, isFinite_storedEdge h.maxX,
    isFinite_storedEdge h.maxY⟩

/-- Equality of numbers, for which the two zeros are one. -/
def sameNumbers (a b : Envelope) : Bool :=
  a.minX == b.minX && a.minY == b.minY && a.maxX == b.maxX && a.maxY == b.maxY

private theorem storedEdge_beq {x : Float} (h : Number.isFinite x = true) :
    (storedEdge x == x) = true := by
  have hx := Number.isNaN_of_isFinite h
  rw [storedEdge]
  split
  next hzero =>
    have hzeroNumber := Number.isNaN_of_isFinite isFinite_zero
    exact (Number.beq_iff_scaled hzeroNumber hx).mpr
      ((Number.beq_iff_scaled hx hzeroNumber).mp hzero).symm
  next => exact (Number.beq_iff_scaled hx hx).mpr rfl

theorem IsFinite.stored_sameNumbers {e : Envelope} (h : e.IsFinite) :
    e.stored.sameNumbers e = true := by
  simp only [sameNumbers, Envelope.stored, storedEdge_beq h.minX, storedEdge_beq h.minY,
    storedEdge_beq h.maxX, storedEdge_beq h.maxY, Bool.and_self]

end Gazetteer.Envelope
