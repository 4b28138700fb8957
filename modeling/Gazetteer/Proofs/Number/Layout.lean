import Mathlib
import Gazetteer.Json.Value
import Gazetteer.Proofs.Text.Trim
/-! Numbers are written without blanks. -/

namespace Gazetteer

open Text

namespace Number

theorem isBlank_digit {c : Char} (h : c.isDigit = true) : isBlank c = false := by
  obtain ⟨hlow, hhigh⟩ := Char.isDigit_iff_toNat.mp h
  change 48 ≤ c.toNat at hlow
  change c.toNat ≤ 57 at hhigh
  simp only [isBlank, Bool.or_eq_false_iff, Bool.and_eq_false_iff, decide_eq_false_iff_not,
    beq_eq_false_iff_ne]
  omega

theorem unspaced_toDigits (n : Nat) : Unspaced (Nat.toDigits 10 n) :=
  fun _ hc => isBlank_digit (Nat.isDigit_of_mem_toDigits (by decide) (by decide) hc)

theorem unspaced_zeros (n : Nat) : Unspaced (zeros n) := by
  intro c hc
  rw [List.eq_of_mem_replicate hc]
  rfl

theorem unspaced_int (n : Int) : Unspaced (toString n).toList := by
  have hnat (m : Nat) : Unspaced m.repr.toList := by
    rw [Nat.repr_eq_ofList_toDigits, String.toList_ofList]
    exact unspaced_toDigits m
  rw [Int.toString_eq_repr]
  cases n with
  | ofNat m => exact hnat m
  | negSucc m =>
      rw [Int.repr, String.toList_append]
      exact .append (.cons rfl unspaced_nil) (hnat _)

theorem unspaced_write (layout : Layout) (d : Decimal) : Unspaced (layout.write d) := by
  have hdigits := unspaced_toDigits d.digits
  simp only [Layout.write]
  split
  · split
    · refine (hdigits.append (unspaced_zeros _)).append ?_
      split
      · exact .cons rfl (.cons rfl unspaced_nil)
      · exact unspaced_nil
    · split
      · exact (hdigits.of_subset (List.take_subset _ _)).append
          (.cons rfl (hdigits.of_subset (List.drop_subset _ _)))
      · exact .cons rfl (.cons rfl ((unspaced_zeros _).append hdigits))
  · have hpower : Unspaced (padLeft layout.exponentWidth
        (Nat.toDigits 10 (d.exponent + (Nat.toDigits 10 d.digits).length - 1).natAbs)) :=
      (unspaced_zeros _).append (unspaced_toDigits _)
    refine .append ?_ (.cons rfl (.cons ?_ hpower))
    · split
      next c heq =>
        have hc := (List.forall_mem_cons.mp (heq ▸ hdigits)).1
        split
        · exact .cons hc (.cons rfl (.cons rfl unspaced_nil))
        · exact .cons hc unspaced_nil
      next c cs _ heq =>
        obtain ⟨hc, hcs⟩ := List.forall_mem_cons.mp (heq ▸ hdigits)
        exact .cons hc (.cons rfl hcs)
      · exact unspaced_nil
    · split <;> rfl

theorem unspaced_text (layout : Layout) (x : Float) : Unspaced (layout.text x).toList := by
  rw [Layout.text]
  split
  · have hwords : Unspaced "NaN".toList ∧ Unspaced "-inf".toList ∧ Unspaced "inf".toList := by
      simp [Unspaced, isBlank]
    split
    · exact hwords.1
    · split
      · exact hwords.2.1
      · exact hwords.2.2
  · rw [String.toList_ofList]
    refine .append ?_ (unspaced_write layout _)
    split
    · exact .cons rfl unspaced_nil
    · exact unspaced_nil

end Number

end Gazetteer
