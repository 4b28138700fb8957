import Mathlib
import Gazetteer.Text.Blank
/-! The words of a text: what separates them, and that trimming loses none of them. -/

namespace Gazetteer.Text

variable {p : Char → Bool} {cs : List Char}

theorem pieces_append_separator {c : Char} (hc : p c = true) (cs ds : List Char) :
    pieces p (cs ++ c :: ds) = pieces p cs ++ pieces p ds := by
  induction cs with
  | nil =>
      simp only [List.nil_append, pieces]
      cases hpieces : pieces p ds with
      | nil => exact absurd hpieces (pieces_ne_nil p ds)
      | cons first rest => simp [hc]
  | cons head tail ih =>
      simp only [List.cons_append, pieces, ih]
      cases htail : pieces p tail with
      | nil => exact absurd htail (pieces_ne_nil p tail)
      | cons first rest =>
          simp only [List.cons_append]
          split <;> rfl

theorem pieces_eq_singleton (h : ∀ c ∈ cs, p c = false) : pieces p cs = [cs] := by
  induction cs with
  | nil => rfl
  | cons c cs ih =>
      obtain ⟨hc, hcs⟩ := List.forall_mem_cons.mp h
      simp only [pieces, ih hcs, hc, Bool.false_eq_true, if_false]

theorem exists_separator {first second : List Char} {rest : List (List Char)}
    (h : pieces p cs = first :: second :: rest) :
    ∃ c ds, p c = true ∧ cs = first ++ c :: ds ∧ pieces p ds = second :: rest := by
  induction cs generalizing first with
  | nil => cases h
  | cons c cs ih =>
      rw [pieces] at h
      split at h
      · cases h
      next head tail hpieces =>
        split at h
        next hc =>
          obtain ⟨rfl, htail⟩ := List.cons_eq_cons.mp h
          exact ⟨c, cs, hc, rfl, hpieces.trans htail⟩
        next hc =>
          obtain ⟨rfl, rfl⟩ := List.cons_eq_cons.mp h
          obtain ⟨d, ds, hd, rfl, hds⟩ := ih hpieces
          exact ⟨d, ds, hd, rfl, hds⟩

theorem eq_of_pieces_singleton {only : List Char} (h : pieces p cs = [only]) : cs = only := by
  induction cs generalizing only with
  | nil => exact (List.singleton_inj.mp h)
  | cons c cs ih =>
      rw [pieces] at h
      split at h
      next hnil => exact absurd hnil (pieces_ne_nil p cs)
      next head tail hpieces =>
        split at h
        next => cases h
        next =>
          obtain ⟨rfl, rfl⟩ := List.cons_eq_cons.mp h
          rw [ih hpieces]

private def stretches (cs : List Char) : List (List Char) :=
  (pieces isBlank cs).filter fun w => !w.isEmpty

private theorem stretches_append {c : Char} (hc : isBlank c = true) (cs ds : List Char) :
    stretches (cs ++ c :: ds) = stretches cs ++ stretches ds := by
  rw [stretches, pieces_append_separator hc, List.filter_append]
  rfl

private theorem stretches_blanks {cs : List Char} (h : cs.all isBlank = true) :
    stretches cs = [] := by
  induction cs with
  | nil => rfl
  | cons c cs ih =>
      obtain ⟨hc, hcs⟩ := Bool.and_eq_true_iff.mp h
      rw [← List.nil_append (c :: cs), stretches_append hc, ih hcs]
      rfl

private theorem stretches_dropWhile (cs : List Char) :
    stretches (cs.dropWhile isBlank) = stretches cs := by
  induction cs with
  | nil => rfl
  | cons c cs ih =>
      by_cases hc : isBlank c = true
      · rw [List.dropWhile_cons_of_pos hc, ih, ← List.nil_append (c :: cs), stretches_append hc]
        rfl
      · rw [List.dropWhile_cons_of_neg hc]

private theorem stretches_append_blanks (cs : List Char) {bs : List Char}
    (h : bs.all isBlank = true) : stretches (cs ++ bs) = stretches cs := by
  cases bs with
  | nil => rw [List.append_nil]
  | cons b bs =>
      obtain ⟨hb, hbs⟩ := Bool.and_eq_true_iff.mp h
      rw [stretches_append hb, stretches_blanks hbs, List.append_nil]

theorem words_trim (s : String) : words (trim s) = words s := by
  have hend (cs : List Char) : ∃ bs, bs.all isBlank = true ∧
      cs = (cs.reverse.dropWhile isBlank).reverse ++ bs := by
    refine ⟨(cs.reverse.takeWhile isBlank).reverse, ?_, ?_⟩
    · rw [List.all_reverse]
      exact List.all_takeWhile
    · rw [← List.reverse_append, List.takeWhile_append_dropWhile, List.reverse_reverse]
  obtain ⟨bs, hbs, hsplit⟩ := hend (s.toList.dropWhile isBlank)
  have htrim : stretches (trimEnds isBlank s.toList) = stretches s.toList := by
    rw [← stretches_dropWhile s.toList]
    conv => rhs; rw [hsplit, stretches_append_blanks _ hbs]
    rfl
  change (stretches (trim s).toList).map String.ofList = _
  rw [trim, String.toList_ofList, htrim]
  rfl

end Gazetteer.Text
