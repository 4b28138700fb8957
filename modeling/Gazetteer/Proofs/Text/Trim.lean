import Mathlib
import Gazetteer.Proofs.Text.Lowercase
import Gazetteer.Text.Blank
/-!
Trimmed texts: nothing is left of a blank one, trimming twice is trimming once, and what is left
stands between the blanks that were there.
-/

namespace Gazetteer.Text

variable {p : Char → Bool} {cs : List Char} {s : String}

theorem trimEnds_eq_nil_iff : trimEnds p cs = [] ↔ cs.all p = true := by
  rw [trimEnds, List.reverse_eq_nil_iff, List.dropWhile_eq_nil_iff]
  simp only [List.mem_reverse, List.all_eq_true]
  constructor
  · intro h c hc
    rw [← List.takeWhile_append_dropWhile (p := p) (l := cs)] at hc
    rcases List.mem_append.mp hc with hc | hc
    · exact List.mem_takeWhile_imp hc
    · exact h c hc
  · exact fun h c hc => h c ((List.dropWhile_sublist p).subset hc)

private theorem dropWhile_eq_self {c : Char} (hc : p c = false) : (c :: cs).dropWhile p = c :: cs :=
  List.dropWhile_cons_of_neg (by rw [hc]; exact Bool.false_ne_true)

private theorem head_dropWhile {c : Char} {rest : List Char} (h : cs.dropWhile p = c :: rest) :
    p c = false := by
  have hne : cs.dropWhile p ≠ [] := h ▸ List.cons_ne_nil c rest
  have hhead := List.head_dropWhile_not p hne
  simpa only [h, List.head_cons] using hhead

private theorem dropWhile_dropWhile (cs : List Char) :
    (cs.dropWhile p).dropWhile p = cs.dropWhile p := by
  cases h : cs.dropWhile p with
  | nil => rfl
  | cons c rest => exact dropWhile_eq_self (head_dropWhile h)

private theorem dropWhile_reverse_dropWhile {c : Char} (hc : p c = false) (cs : List Char) :
    ∃ kept, ((c :: cs).reverse.dropWhile p).reverse = c :: kept := by
  rw [List.reverse_cons, List.dropWhile_append]
  split
  · exact ⟨[], by rw [dropWhile_eq_self hc]; rfl⟩
  · exact ⟨(cs.reverse.dropWhile p).reverse, by rw [List.reverse_append]; rfl⟩

theorem trimEnds_trimEnds (cs : List Char) : trimEnds p (trimEnds p cs) = trimEnds p cs := by
  cases hfront : cs.dropWhile p with
  | nil =>
      have htrim : trimEnds p cs = [] := by rw [trimEnds, hfront]; rfl
      rw [htrim]
      rfl
  | cons c rest =>
      have hhead := head_dropWhile hfront
      obtain ⟨kept, hkept⟩ := dropWhile_reverse_dropWhile hhead rest
      have htrim : trimEnds p cs = c :: kept := by rw [trimEnds, hfront, hkept]
      rw [htrim, trimEnds, dropWhile_eq_self hhead, ← hkept, List.reverse_reverse,
        dropWhile_dropWhile]

theorem trim_eq_empty_iff : trim s = "" ↔ allBlank s = true := by
  rw [allBlank, ← trimEnds_eq_nil_iff, ← String.toList_inj, trim, String.toList_ofList]
  rfl

@[simp] theorem trim_trim (s : String) : trim (trim s) = trim s := by
  rw [trim, trim, String.toList_ofList, trimEnds_trimEnds]

theorem allBlank_eq_false_iff : allBlank s = false ↔ trim s ≠ "" := by
  rw [Ne, trim_eq_empty_iff, Bool.not_eq_true]

/-! Runs -/

theorem takeWhile_run {run rest : List Char} (hrun : run.all p = true)
    (hstop : ∀ c ∈ rest.head?, p c = false) : (run ++ rest).takeWhile p = run := by
  have hrest : rest.takeWhile p = [] := by
    cases rest with
    | nil => rfl
    | cons c rest =>
        exact List.takeWhile_cons_of_neg (by rw [hstop c rfl]; exact Bool.false_ne_true)
  rw [List.takeWhile_append_of_pos (List.all_eq_true.mp hrun), hrest, List.append_nil]

theorem dropWhile_run {run rest : List Char} (hrun : run.all p = true)
    (hstop : ∀ c ∈ rest.head?, p c = false) : (run ++ rest).dropWhile p = rest := by
  have hsplit := List.takeWhile_append_dropWhile (p := p) (l := run ++ rest)
  rw [takeWhile_run hrun hstop] at hsplit
  exact List.append_cancel_left hsplit

/-! Ends -/

theorem exists_trimEnds (p : Char → Bool) (cs : List Char) :
    ∃ front back : List Char, front.all p = true ∧ back.all p = true ∧
      cs = front ++ trimEnds p cs ++ back := by
  refine ⟨cs.takeWhile p, ((cs.dropWhile p).reverse.takeWhile p).reverse, List.all_takeWhile, ?_,
    ?_⟩
  · rw [List.all_reverse]
    exact List.all_takeWhile
  · rw [trimEnds, List.append_assoc, ← List.reverse_append, List.takeWhile_append_dropWhile,
      List.reverse_reverse, List.takeWhile_append_dropWhile]

/-- Of a text between two ends all is left if it begins and ends with characters that stay. -/
theorem trimEnds_append {front body back : List Char} (hfront : front.all p = true)
    (hback : back.all p = true) (hbody : body ≠ []) (hhead : ∀ c ∈ body.head?, p c = false)
    (hlast : ∀ c ∈ body.getLast?, p c = false) : trimEnds p (front ++ body ++ back) = body := by
  have hstart : (front ++ body ++ back).dropWhile p = body ++ back := by
    rw [List.append_assoc]
    refine dropWhile_run hfront fun c hc => hhead c ?_
    rwa [List.head?_append_of_ne_nil _ hbody] at hc
  have hend : (body ++ back).reverse.dropWhile p = body.reverse := by
    rw [List.reverse_append]
    refine dropWhile_run ?_ fun c hc => hlast c ?_
    · rwa [List.all_reverse]
    · rwa [List.head?_reverse] at hc
  rw [trimEnds, hstart, hend, List.reverse_reverse]

/-! Letter case, which is no matter for what is blank -/

private theorem isBlank_of_between {c : Char} (h : 0x41 ≤ c.toNat ∧ c.toNat ≤ 0x7A) :
    isBlank c = false := by
  rw [← Bool.not_eq_true]
  simp only [isBlank, Bool.or_eq_true, Bool.and_eq_true, decide_eq_true_eq, beq_iff_eq]
  omega

theorem isBlank_toLower (c : Char) : isBlank c.toLower = isBlank c := by
  by_cases h : c.val ≥ 'A'.val ∧ c.val ≤ 'Z'.val
  · have hcapital : 0x41 ≤ c.toNat ∧ c.toNat ≤ 0x5A := h
    have hlower := toNat_toLower_of_capital h
    rw [isBlank_of_between ⟨hcapital.1, by omega⟩, isBlank_of_between (by omega)]
  · exact congrArg isBlank (dif_neg h)

private theorem trimEnds_map {f : Char → Char} (h : ∀ c, p (f c) = p c) (cs : List Char) :
    trimEnds p (cs.map f) = (trimEnds p cs).map f := by
  have hp : p ∘ f = p := funext h
  rw [trimEnds, trimEnds, List.dropWhile_map, hp, ← List.map_reverse, List.dropWhile_map, hp,
    List.map_reverse]

theorem fold_trim (s : String) : fold (trim s) = trim (fold s) := by
  rw [fold, trim, trim, fold, String.toList_ofList, String.toList_ofList,
    trimEnds_map isBlank_toLower]

/-! Texts without blanks -/

def Unspaced (cs : List Char) : Prop :=
  ∀ c ∈ cs, isBlank c = false

theorem unspaced_nil : Unspaced [] :=
  List.forall_mem_nil _

theorem Unspaced.cons {c : Char} {cs : List Char} (hc : isBlank c = false) (h : Unspaced cs) :
    Unspaced (c :: cs) :=
  List.forall_mem_cons.mpr ⟨hc, h⟩

theorem Unspaced.append {as bs : List Char} (ha : Unspaced as) (hb : Unspaced bs) :
    Unspaced (as ++ bs) :=
  List.forall_mem_append.mpr ⟨ha, hb⟩

theorem Unspaced.of_subset {as bs : List Char} (h : Unspaced bs) (hsub : as ⊆ bs) : Unspaced as :=
  fun c hc => h c (hsub hc)

theorem trim_of_unspaced (h : Unspaced s.toList) : trim s = s := by
  have hdrop {cs : List Char} (hcs : Unspaced cs) : cs.dropWhile isBlank = cs := by
    cases cs with
    | nil => rfl
    | cons c cs => exact dropWhile_eq_self (hcs c List.mem_cons_self)
  have hreverse : Unspaced s.toList.reverse := h.of_subset (List.reverse_perm s.toList).subset
  rw [trim, trimEnds, hdrop h, hdrop hreverse, List.reverse_reverse, String.ofList_toList]

/-! Words -/

private theorem all_of_pieces (h : ∀ w ∈ pieces p cs, w = []) : cs.all p = true := by
  induction cs with
  | nil => rfl
  | cons c cs ih =>
      rw [pieces] at h
      split at h
      next hnil => exact absurd hnil (pieces_ne_nil p cs)
      next first rest hpieces =>
        split at h
        next hc => exact Bool.and_eq_true_iff.mpr ⟨hc, ih (hpieces ▸ (List.forall_mem_cons.mp h).2)⟩
        next => exact absurd (h _ List.mem_cons_self) (List.cons_ne_nil c first)

theorem words_ne_nil (h : allBlank s = false) : words s ≠ [] := by
  intro hwords
  rw [words, List.map_eq_nil_iff, List.filter_eq_nil_iff] at hwords
  have hpieces : ∀ w ∈ pieces isBlank s.toList, w = [] := by
    intro w hw
    cases w with
    | nil => rfl
    | cons c cs => exact absurd rfl (hwords _ hw)
  exact Bool.false_ne_true (h.symm.trans (all_of_pieces hpieces))

end Gazetteer.Text
