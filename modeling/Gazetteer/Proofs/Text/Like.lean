import Mathlib
import Gazetteer.Text.Letter
import Gazetteer.Text.Like
/-!
What the pattern of a term matches: the texts that have the term as a part, up to the case of A to
Z, so letter for letter once neither of them has capitals.  A pattern in pieces matches the texts in
pieces that these match, which leaves the single items to look at.
-/

namespace Gazetteer.Text

/-- Whether a pattern finds a term in a text.  A NUL ends what is looked at of either, and a term
that is cut short by one also ends the pattern, which then has to match up to the end. -/
def Occurs (term content : String) : Prop :=
  if upToNul term.toList = term.toList then term.toList <:+: upToNul content.toList
  else upToNul term.toList <:+ upToNul content.toList

theorem upToNul_eq_self {cs : List Char} (h : ∀ c ∈ cs, c.toNat ≠ 0) : upToNul cs = cs := by
  rw [upToNul, List.takeWhile_eq_self_iff]
  intro c hc
  simpa using h c hc

theorem occurs_iff_infix {term content : String} (hterm : ∀ c ∈ term.toList, c.toNat ≠ 0)
    (hcontent : ∀ c ∈ content.toList, c.toNat ≠ 0) :
    Occurs term content ↔ term.toList <:+: content.toList := by
  rw [Occurs, upToNul_eq_self hterm, upToNul_eq_self hcontent, if_pos rfl]

private theorem mem_suffixes {tail cs : List Char} : tail ∈ suffixes cs ↔ tail <:+ cs := by
  induction cs with
  | nil => simp [suffixes]
  | cons c cs ih => rw [suffixes, List.mem_cons, ih, List.suffix_cons_iff]

private theorem wildcards?_escape (term rest : List Char) :
    wildcards? (escapeWildcards term ++ rest) =
      (wildcards? rest).map (term.map Wildcard.char ++ ·) := by
  induction term with
  | nil => simp [escapeWildcards]
  | cons c term ih =>
      have hsplit : escapeWildcards (c :: term) ++ rest =
          (if c = '\\' ∨ c = '%' ∨ c = '_' then ['\\', c] else [c]) ++
            (escapeWildcards term ++ rest) := by
        simp [escapeWildcards]
      rw [hsplit]
      by_cases hc : c = '\\' ∨ c = '%' ∨ c = '_'
      · rw [if_pos hc]
        simp [wildcards?, ih, Function.comp_def]
      · obtain ⟨hback, hrun, hone⟩ := not_or.mp hc |>.imp_right not_or.mp
        rw [if_neg hc, List.singleton_append, wildcards?.eq_def]
        split <;> simp_all [Function.comp_def]

/-! What the items of a pattern stand for -/

theorem matchesItems_run (rest : List Wildcard) (cs : List Char) :
    matchesItems (.run :: rest) cs = true ↔
      ∃ before tail, cs = before ++ tail ∧ matchesItems rest tail = true := by
  simp only [matchesItems, List.any_eq_true, mem_suffixes]
  constructor
  · rintro ⟨tail, ⟨before, rfl⟩, htail⟩
    exact ⟨before, tail, rfl, htail⟩
  · rintro ⟨before, tail, rfl, htail⟩
    exact ⟨tail, ⟨before, rfl⟩, htail⟩

theorem matchesItems_onlyRun (cs : List Char) : matchesItems [.run] cs = true :=
  (matchesItems_run [] cs).mpr ⟨cs, [], (List.append_nil cs).symm, rfl⟩

theorem matchesItems_one (rest : List Wildcard) (cs : List Char) :
    matchesItems (.one :: rest) cs = true ↔
      ∃ c tail, cs = c :: tail ∧ matchesItems rest tail = true := by
  cases cs <;> simp [matchesItems]

theorem matchesItems_char (a : Char) (rest : List Wildcard) (cs : List Char) :
    matchesItems (.char a :: rest) cs = true ↔
      ∃ c tail, cs = c :: tail ∧ c.toLower = a.toLower ∧ matchesItems rest tail = true := by
  cases cs with
  | nil => simp [matchesItems]
  | cons c tail =>
      rw [matchesItems, Bool.and_eq_true, beq_iff_eq]
      constructor
      · rintro ⟨hc, htail⟩
        exact ⟨c, tail, rfl, hc.symm, htail⟩
      · rintro ⟨_, _, heq, hc, htail⟩
        obtain ⟨rfl, rfl⟩ := List.cons.inj heq
        exact ⟨hc.symm, htail⟩

theorem matchesItems_append (front back : List Wildcard) (cs : List Char) :
    matchesItems (front ++ back) cs = true ↔
      ∃ head tail, cs = head ++ tail ∧ matchesItems front head = true ∧
        matchesItems back tail = true := by
  induction front generalizing cs with
  | nil => simp [matchesItems]
  | cons item front ih =>
      rw [List.cons_append]
      cases item with
      | run =>
          simp only [matchesItems_run, ih]
          constructor
          · rintro ⟨before, _, rfl, head, tail, rfl, hhead, htail⟩
            exact ⟨before ++ head, tail, (List.append_assoc _ _ _).symm,
              ⟨before, head, rfl, hhead⟩, htail⟩
          · rintro ⟨_, tail, rfl, ⟨before, head, rfl, hhead⟩, htail⟩
            exact ⟨before, head ++ tail, List.append_assoc _ _ _, head, tail, rfl, hhead, htail⟩
      | one =>
          simp only [matchesItems_one, ih]
          constructor
          · rintro ⟨c, _, rfl, head, tail, rfl, hhead, htail⟩
            exact ⟨c :: head, tail, rfl, ⟨c, head, rfl, hhead⟩, htail⟩
          · rintro ⟨_, tail, rfl, ⟨c, head, rfl, hhead⟩, htail⟩
            exact ⟨c, head ++ tail, rfl, head, tail, rfl, hhead, htail⟩
      | char a =>
          simp only [matchesItems_char, ih]
          constructor
          · rintro ⟨c, _, rfl, hc, head, tail, rfl, hhead, htail⟩
            exact ⟨c :: head, tail, rfl, ⟨c, head, rfl, hc, hhead⟩, htail⟩
          · rintro ⟨_, tail, rfl, ⟨c, head, rfl, hc, hhead⟩, htail⟩
            exact ⟨c, head ++ tail, rfl, hc, head, tail, rfl, hhead, htail⟩

private theorem matchesItems_chars (term cs : List Char) :
    matchesItems (term.map Wildcard.char) cs = true ↔
      cs.map Char.toLower = term.map Char.toLower := by
  induction term generalizing cs with
  | nil => rw [List.map_nil, matchesItems, List.isEmpty_iff, List.map_nil, List.map_eq_nil_iff]
  | cons c term ih =>
      simp only [List.map_cons, matchesItems_char, ih, List.map_eq_cons_iff]

private theorem matchesItems_containing (term cs : List Char) :
    matchesItems (.run :: (term.map Wildcard.char ++ [.run])) cs = true ↔
      ∃ part, part <:+: cs ∧ part.map Char.toLower = term.map Char.toLower := by
  simp only [matchesItems_run _ cs, matchesItems_append, matchesItems_chars]
  constructor
  · rintro ⟨before, _, rfl, part, tail, rfl, hpart, -⟩
    exact ⟨part, ⟨before, tail, List.append_assoc _ _ _⟩, hpart⟩
  · rintro ⟨part, ⟨before, tail, rfl⟩, hpart⟩
    exact ⟨before, part ++ tail, List.append_assoc _ _ _, part, tail, rfl, hpart,
      matchesItems_onlyRun tail⟩

private theorem matchesItems_ending (term cs : List Char) :
    matchesItems (.run :: term.map Wildcard.char) cs = true ↔
      ∃ part, part <:+ cs ∧ part.map Char.toLower = term.map Char.toLower := by
  simp only [matchesItems_run, matchesItems_chars]
  constructor
  · rintro ⟨before, part, rfl, hpart⟩
    exact ⟨part, ⟨before, rfl⟩, hpart⟩
  · rintro ⟨part, ⟨before, rfl⟩, hpart⟩
    exact ⟨before, part, rfl, hpart⟩

/-! The pattern of a term -/

private theorem nulFree_escape {term : List Char} (h : ∀ c ∈ term, c.toNat ≠ 0) :
    ∀ c ∈ escapeWildcards term, c.toNat ≠ 0 := by
  intro c hc
  obtain ⟨d, hd, hc⟩ := List.mem_flatMap.mp hc
  split at hc
  · rcases List.mem_cons.mp hc with rfl | hc
    · decide
    · exact List.mem_singleton.mp hc ▸ h d hd
  · exact List.mem_singleton.mp hc ▸ h d hd

private theorem upToNul_append {cs : List Char} (h : ∀ c ∈ cs, c.toNat ≠ 0) (ds : List Char) :
    upToNul (cs ++ ds) = cs ++ upToNul ds := by
  rw [upToNul, List.takeWhile_append_of_pos fun c hc => by simpa using h c hc]
  rfl

private theorem ne_nul_of_mem_upToNul {cs : List Char} : ∀ c ∈ upToNul cs, c.toNat ≠ 0 := by
  intro c hc
  simpa using List.mem_takeWhile_imp hc

/-- A text with a NUL: what stands before the first one, the NUL, and the rest. -/
private theorem split_at_nul {cs : List Char} (h : upToNul cs ≠ cs) :
    ∃ c rest, c.toNat = 0 ∧ cs = upToNul cs ++ c :: rest := by
  have hsplit := List.takeWhile_append_dropWhile (p := fun c : Char => c.toNat != 0) (l := cs)
  cases hrest : cs.dropWhile fun c : Char => c.toNat != 0 with
  | nil =>
      rw [hrest, List.append_nil] at hsplit
      exact absurd hsplit h
  | cons c rest =>
      rw [hrest] at hsplit
      have hc := List.head_dropWhile_not (fun c : Char => c.toNat != 0) (l := cs)
        (by rw [hrest]; exact List.cons_ne_nil _ _)
      simp only [hrest, List.head_cons, bne_eq_false_iff_eq] at hc
      exact ⟨c, rest, hc, hsplit.symm⟩

theorem wildcards?_containing (term : List Char) :
    wildcards? (containing term) = some (.run :: (term.map Wildcard.char ++ [.run])) := by
  rw [containing, wildcards?, wildcards?_escape]
  rfl

private theorem items_of_nulFree {term : List Char} (h : upToNul term = term) :
    wildcards? (upToNul (containing term)) =
      some (.run :: (term.map Wildcard.char ++ [.run])) := by
  have hfree : ∀ c ∈ term, c.toNat ≠ 0 := h ▸ ne_nul_of_mem_upToNul
  have hpattern : ∀ c ∈ containing term, c.toNat ≠ 0 := by
    intro c hc
    rcases List.mem_cons.mp hc with rfl | hc
    · decide
    · rcases List.mem_append.mp hc with hc | hc
      · exact nulFree_escape hfree c hc
      · rw [List.mem_singleton.mp hc]
        decide
  rw [upToNul_eq_self hpattern, wildcards?_containing]

private theorem items_of_cut {term : List Char} (h : upToNul term ≠ term) :
    wildcards? (upToNul (containing term)) =
      some (.run :: (upToNul term).map Wildcard.char) := by
  obtain ⟨c, rest, hc, hsplit⟩ := split_at_nul h
  have hescape : escapeWildcards term =
      escapeWildcards (upToNul term) ++ c :: escapeWildcards rest := by
    have hplain : ¬(c = '\\' ∨ c = '%' ∨ c = '_') := by
      rintro (rfl | rfl | rfl) <;> exact absurd hc (by decide)
    conv => lhs; rw [hsplit]
    simp [escapeWildcards, hplain]
  have hfree : ∀ d ∈ '%' :: escapeWildcards (upToNul term), d.toNat ≠ 0 := by
    intro d hd
    rcases List.mem_cons.mp hd with rfl | hd
    · decide
    · exact nulFree_escape ne_nul_of_mem_upToNul d hd
  have hcut : upToNul (containing term) = '%' :: escapeWildcards (upToNul term) := by
    rw [containing, hescape, List.append_assoc, ← List.cons_append, upToNul_append hfree]
    simp [upToNul, hc]
  rw [hcut, wildcards?, ← List.append_nil (escapeWildcards _), wildcards?_escape]
  simp [wildcards?]

private theorem exists_part_iff {term : List Char} {within : List Char → Prop}
    (hterm : ∀ c ∈ term, c.toLower = c)
    (hwithin : ∀ part, within part → ∀ c ∈ part, c.toLower = c) :
    (∃ part, within part ∧ part.map Char.toLower = term.map Char.toLower) ↔ within term := by
  have hself {cs : List Char} (h : ∀ c ∈ cs, c.toLower = c) : cs.map Char.toLower = cs :=
    (List.map_congr_left h).trans (List.map_id' cs)
  constructor
  · rintro ⟨part, hpart, heq⟩
    rw [hself (hwithin part hpart), hself hterm] at heq
    exact heq ▸ hpart
  · exact fun h => ⟨term, h, rfl⟩

/-- The pattern of a term matches the texts that the term occurs in, where there are no capitals. -/
theorem isLike_containing {term content : String} (hterm : ∀ c ∈ term.toList, c.toLower = c)
    (hcontent : ∀ c ∈ content.toList, c.toLower = c) :
    isLike (containing term.toList) content.toList = true ↔ Occurs term content := by
  have hcs : ∀ c ∈ upToNul content.toList, c.toLower = c := fun c hc =>
    hcontent c ((List.takeWhile_sublist _).subset hc)
  by_cases hnul : upToNul term.toList = term.toList
  · rw [isLike, Occurs, if_pos hnul, items_of_nulFree hnul]
    refine (matchesItems_containing _ _).trans (exists_part_iff hterm fun part hpart c hc => ?_)
    exact hcs c (hpart.subset hc)
  · rw [isLike, Occurs, if_neg hnul, items_of_cut hnul]
    have hcut : ∀ c ∈ upToNul term.toList, c.toLower = c := fun c hc =>
      hterm c ((List.takeWhile_sublist _).subset hc)
    refine (matchesItems_ending _ _).trans (exists_part_iff hcut fun part hpart c hc => ?_)
    exact hcs c (hpart.subset hc)

/-- In the pattern of a term each of its characters stands for itself, and the texts it matches are
those that have the term somewhere, up to the case of A to Z. -/
theorem isLike_containing_iff_sameLetters {term content : String}
    (hterm : ∀ c ∈ term.toList, c.toNat ≠ 0) (hcontent : ∀ c ∈ content.toList, c.toNat ≠ 0) :
    wildcards? (containing term.toList) =
        some (.run :: (term.toList.map Wildcard.char ++ [.run])) ∧
      (isLike (containing term.toList) content.toList = true ↔
        ∃ part : String, part.toList <:+: content.toList ∧ sameLetters part term = true) := by
  refine ⟨wildcards?_containing term.toList, ?_⟩
  have hsame (part : String) : sameLetters part term = true ↔
      part.toList.map Char.toLower = term.toList.map Char.toLower := by
    rw [sameLetters, beq_iff_eq, fold, fold, String.ofList_inj]
  rw [isLike, items_of_nulFree (upToNul_eq_self hterm), upToNul_eq_self hcontent]
  refine (matchesItems_containing _ _).trans ?_
  constructor
  · rintro ⟨part, hpart, heq⟩
    refine ⟨String.ofList part, ?_, ?_⟩
    · rwa [String.toList_ofList]
    · rwa [hsame, String.toList_ofList]
  · rintro ⟨part, hpart, heq⟩
    exact ⟨part.toList, hpart, (hsame part).mp heq⟩

theorem isLike_containing_iff_sameLetters_marks :
    wildcards? (containing "n_%\\".toList) =
        some [.run, .char 'n', .char '_', .char '%', .char '\\', .run] ∧
      isLike (containing "n_%\\".toList) "IN_%\\.".toList = true := by
  have hterm : ∀ c ∈ "n_%\\".toList, c.toNat ≠ 0 := by simp
  have hcontent : ∀ c ∈ "IN_%\\.".toList, c.toNat ≠ 0 := by simp
  obtain ⟨hitems, hlike⟩ := isLike_containing_iff_sameLetters hterm hcontent
  exact ⟨hitems, hlike.mpr ⟨"N_%\\", ⟨['I'], ['.'], rfl⟩, by decide⟩⟩

/-- A run after some characters without capitals: the text begins with them in either case. -/
theorem matchesItems_start {term : List Char}
    (hterm : ∀ c ∈ term, c.toLower = c ∧ c.toNat ≠ 0) (cs : List Char) :
    matchesItems (term.map Wildcard.char ++ [.run]) (upToNul cs) =
      ((cs.take term.length).map Char.toLower == term) := by
  induction term generalizing cs with
  | nil => exact matchesItems_onlyRun (upToNul cs)
  | cons a term ih =>
      obtain ⟨⟨ha, hnul⟩, hrest⟩ := List.forall_mem_cons.mp hterm
      cases cs with
      | nil => rfl
      | cons c cs =>
          by_cases hc : c.toNat = 0
          · have hne : (c.toLower == a) = false := by
              rw [beq_eq_false_iff_ne]
              rintro rfl
              obtain rfl : c = '\x00' := Char.ext (UInt32.toNat_inj.mp hc)
              exact hnul rfl
            simp [upToNul, hc, matchesItems, hne]
          · have hsplit : upToNul (c :: cs) = c :: upToNul cs := by
              simp [upToNul, hc]
            rw [hsplit, List.map_cons, List.cons_append, matchesItems, ih hrest, ha,
              List.length_cons, List.take_succ_cons, List.map_cons, List.cons_beq_cons,
              Bool.beq_comm]

/-! Words in joined texts -/

private theorem infix_append_space {w : List Char} (hspace : ' ' ∉ w) (cs ds : List Char) :
    w <:+: cs ++ ' ' :: ds ↔ w <:+: cs ∨ w <:+: ds := by
  constructor
  · rintro ⟨front, back, hwhole⟩
    rcases List.append_eq_append_iff.mp hwhole with ⟨rest, hcs, -⟩ | ⟨rest, hfront, hds⟩
    · exact Or.inl ⟨front, rest, hcs.symm⟩
    · cases rest with
      | nil =>
          rw [List.append_nil] at hfront
          exact Or.inl ⟨front, [], by rw [List.append_nil, hfront]⟩
      | cons c rest =>
          obtain ⟨rfl, rfl⟩ := List.cons.inj hds
          rcases List.append_eq_append_iff.mp hfront with ⟨more, -, hmore⟩ | ⟨more, rfl, hmore⟩
          · exact absurd (hmore ▸ List.mem_append_right more List.mem_cons_self) hspace
          · cases more with
            | nil =>
                have hw : w = ' ' :: rest := hmore.symm
                exact absurd (hw ▸ List.mem_cons_self) hspace
            | cons d more =>
                obtain ⟨rfl, rfl⟩ := List.cons.inj hmore
                exact Or.inr ⟨more, back, rfl⟩
  · rintro (⟨front, back, rfl⟩ | ⟨front, back, rfl⟩)
    · exact ⟨front, back ++ ' ' :: ds, by simp⟩
    · exact ⟨cs ++ ' ' :: front, back, by simp⟩

/-- A stretch without spaces is a part of joined texts if it is a part of one of them. -/
theorem infix_intercalate_space {w : List Char} (hempty : w ≠ []) (hspace : ' ' ∉ w)
    (parts : List (List Char)) :
    w <:+: List.intercalate [' '] parts ↔ ∃ part ∈ parts, w <:+: part := by
  induction parts with
  | nil => simp [List.intercalate_nil, hempty]
  | cons first rest ih =>
      cases rest with
      | nil => simp
      | cons second rest =>
          rw [List.intercalate_cons_cons, List.append_assoc, List.singleton_append,
            infix_append_space hspace, ih]
          simp

end Gazetteer.Text
