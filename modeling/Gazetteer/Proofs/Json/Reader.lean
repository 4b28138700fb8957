import Mathlib
import Gazetteer.Proofs.Json.RoundTrip
import Gazetteer.Proofs.Number.Layout
/-!
What reading gives whatever the text: nothing for a blank one, and records whose fields stand in
ascending order.
-/

namespace Gazetteer.Json

/-! Blank texts -/

section

variable {c : Char} (h : Text.isBlank c = true)
include h

private theorem ne_of_isBlank {d : Char} (hd : Text.isBlank d = false) : c ≠ d := by
  rintro rfl
  exact Bool.false_ne_true (hd.symm.trans h)

private theorem punctuation?_of_isBlank : punctuation? c = none := by
  have hne {d : Char} (hd : Text.isBlank d = false) := ne_of_isBlank h hd
  rw [punctuation?, if_neg (hne (by decide)), if_neg (hne (by decide)), if_neg (hne (by decide)),
    if_neg (hne (by decide)), if_neg (hne (by decide)), if_neg (hne (by decide))]

private theorem wordToken?_of_isBlank (cs : List Char) : wordToken? (c :: cs) = none := by
  have hdigit : c.isDigit = false := by
    cases hc : c.isDigit with
    | false => rfl
    | true => exact absurd (Number.isBlank_digit hc) (by rw [h]; decide)
  have hfigures : figures? (c :: cs) = none := by
    unfold figures?
    split
    next negative body hsign =>
      split at hsign
      next rest heq =>
        exact absurd (List.cons_eq_cons.mp heq).1 (ne_of_isBlank h (by decide))
      next =>
        cases hsign
        split
        next before tail hsplit =>
          obtain ⟨rfl, -⟩ := Prod.mk.inj hsplit
          rw [List.takeWhile_cons_of_neg (by rw [hdigit]; decide)]
          rfl
  have hword {d : Char} {ds : List Char} (hd : Text.isBlank d = false) : c :: cs ≠ d :: ds :=
    fun heq => ne_of_isBlank h hd (List.cons_eq_cons.mp heq).1
  rw [wordToken?, if_neg (hword (by decide)), if_neg (hword (by decide)),
    if_neg (hword (by decide)), hfigures]
  rfl

/-- A word that begins with a blank is never completed. -/
private theorem run_word_of_isBlank {taken ds : List Char} (htaken : taken.reverse = c :: ds)
    (cs : List Char) : Lexing.run (.word taken) cs = none := by
  have hword : wordToken? taken.reverse = none := by rw [htaken, wordToken?_of_isBlank h]
  induction cs generalizing taken ds with
  | nil => rw [Lexing.run, Lexing.finish, hword, Option.map_none]
  | cons d cs ih =>
      by_cases hend : (isSpace d || d = '"' || (punctuation? d).isSome) = true
      · have hstep : Lexing.step (.word taken) d = none := by
          rw [Lexing.step, if_pos hend, hword, Option.map_none]
        rw [Lexing.run, hstep]
      · have hstep : Lexing.step (.word taken) d = some (.word (d :: taken), []) := by
          rw [Lexing.step, if_neg hend]
        have hlonger : (d :: taken).reverse = c :: (ds ++ [d]) := by
          rw [List.reverse_cons, htaken, List.cons_append]
        rw [run_silent hstep]
        exact ih hlonger (by rw [hlonger, wordToken?_of_isBlank h])

end

private theorem tokens?_of_allBlank {cs : List Char} (h : cs.all Text.isBlank = true) :
    tokens? cs = some [] ∨ tokens? cs = none := by
  rw [tokens?]
  induction cs with
  | nil => exact .inl rfl
  | cons c cs ih =>
      rw [List.all_cons, Bool.and_eq_true] at h
      obtain ⟨hc, hcs⟩ := h
      have hquote := ne_of_isBlank hc (show Text.isBlank '"' = false by decide)
      by_cases hspace : isSpace c = true
      · have hstep : Lexing.step .ground c = some (.ground, []) := by
          rw [Lexing.step, Lexing.begin, if_pos hspace]
        rw [run_silent hstep]
        exact ih hcs
      · have hstep : Lexing.step .ground c = some (.word [c], []) := by
          rw [Lexing.step, Lexing.begin, if_neg hspace, if_neg hquote, punctuation?_of_isBlank hc]
        rw [run_silent hstep]
        exact .inr (run_word_of_isBlank hc rfl cs)

theorem ofText?_of_allBlank {s : String} (h : Text.allBlank s = true) : ofText? s = none := by
  rw [ofText?, Tree.ofText?]
  rcases tokens?_of_allBlank h with htokens | htokens <;> rw [htokens] <;> rfl

/-! Records -/

private theorem Figures.value?_ne_record (f : Figures) (fields : List (String × Json)) :
    f.value? ≠ some (.record fields) := by
  have hfloat (x? : Option Float) : x?.map Json.float ≠ some (.record fields) := by
    cases x? <;> simp
  unfold Figures.value?
  split
  next significand place _ =>
    split
    · split
      · exact hfloat _
      · split
        · simp
        · split <;> simp
    · exact hfloat _
    · exact hfloat _

theorem ascending_of_ofText? {s : String} {fields : List (String × Json)}
    (h : ofText? s = some (.record fields)) : Ascending fields := by
  obtain ⟨t, -, ht⟩ := Option.bind_eq_some_iff.mp h
  cases t with
  | null => cases ht
  | bool value => cases ht
  | number figures => exact absurd ht (figures.value?_ne_record fields)
  | text value => cases value <;> cases ht
  | list items =>
      obtain ⟨values, -, hvalues⟩ := Option.map_eq_some_iff.mp ht
      cases hvalues
  | record entries =>
      obtain ⟨given, -, hgiven⟩ := Option.map_eq_some_iff.mp ht
      rw [ofFields_eq] at hgiven
      cases hgiven
      exact (Dict.ofList given).ascending

end Gazetteer.Json
