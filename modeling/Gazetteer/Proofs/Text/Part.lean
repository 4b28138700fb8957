import Mathlib
import Gazetteer.Proofs.Text.Lowercase
/-!
Lowercasing a part of a text.  What it gives is found in the lowercased text if the capital sigmas
of the part are final where they are final in the text: a sigma looks at the letters on both sides
of it, and cutting a part out of a text takes some of them away.
-/

namespace Gazetteer.Text

/-- Each capital sigma of a part is final in the part just if it is so between the texts that the
part is cut out of. -/
def KeepsSigmas (before part after : List Char) : Prop :=
  ∀ front back c, part = front ++ c :: back → c.toNat = 0x3A3 →
    lowercaseSigma (front.reverse ++ before.reverse) (back ++ after) =
      lowercaseSigma front.reverse back

theorem keepsSigmas_of_no_sigma {part : List Char} (h : ∀ c ∈ part, c.toNat ≠ 0x3A3)
    (before after : List Char) : KeepsSigmas before part after := by
  intro front back c hpart hc
  subst hpart
  exact absurd hc (h c (List.mem_append_right _ List.mem_cons_self))

private theorem leadsToCased_append_of_head {outer : List Char}
    (h : ∀ c ∈ outer.head?, isBlank c = true) (cs : List Char) :
    leadsToCased (cs ++ outer) = leadsToCased cs := by
  cases outer with
  | nil => rw [List.append_nil]
  | cons c rest => exact leadsToCased_append (keepsApart_of_isBlank (h c rfl)) cs rest

/-- A part between blanks, or at an end of the text, is a word to its sigmas as well. -/
theorem keepsSigmas_of_word {before after : List Char}
    (hbefore : ∀ c ∈ before.getLast?, isBlank c = true)
    (hafter : ∀ c ∈ after.head?, isBlank c = true) (part : List Char) :
    KeepsSigmas before part after := by
  intro front back c _ _
  have hhead : ∀ c ∈ before.reverse.head?, isBlank c = true := by
    rw [List.head?_reverse]
    exact hbefore
  rw [lowercaseSigma, lowercaseSigma, leadsToCased_append_of_head hhead,
    leadsToCased_append_of_head hafter]

private theorem suffix_lowercaseAfter (past before rest : List Char) :
    lowercaseAfter (before.reverse ++ past) rest <:+ lowercaseAfter past (before ++ rest) := by
  induction before generalizing past with
  | nil => exact List.suffix_refl _
  | cons c cs ih =>
      rw [List.reverse_cons, List.append_assoc, List.singleton_append, List.cons_append,
        lowercaseAfter]
      exact (ih (c :: past)).trans (List.suffix_append _ _)

private theorem prefix_lowercaseAfter (past outer : List Char) {part after : List Char}
    (h : ∀ front back c, part = front ++ c :: back → c.toNat = 0x3A3 →
      lowercaseSigma (front.reverse ++ (past ++ outer)) (back ++ after) =
        lowercaseSigma (front.reverse ++ past) back) :
    lowercaseAfter past part <+: lowercaseAfter (past ++ outer) (part ++ after) := by
  induction part generalizing past with
  | nil => exact List.nil_prefix
  | cons c cs ih =>
      have hrest := ih (c :: past) fun front back d hcs hd => by
        have hwhole := h (c :: front) back d (by rw [hcs, List.cons_append]) hd
        simpa using hwhole
      have hhead : (if c.toNat == 0x3A3 then [lowercaseSigma (past ++ outer) (cs ++ after)]
          else lowercaseChar c) =
            if c.toNat == 0x3A3 then [lowercaseSigma past cs] else lowercaseChar c := by
        split
        next hsigma => exact congrArg (fun d => [d]) (h [] cs c rfl (beq_iff_eq.mp hsigma))
        · rfl
      rw [List.cons_append, lowercaseAfter, lowercaseAfter, hhead]
      exact (List.prefix_append_right_inj _).mpr hrest

theorem infix_lowercase {before after : List Char} {part text : String}
    (htext : text.toList = before ++ part.toList ++ after)
    (h : KeepsSigmas before part.toList after) :
    (lowercase part).toList <:+: (lowercase text).toList := by
  have hprefix : lowercaseAfter [] part.toList <+:
      lowercaseAfter before.reverse (part.toList ++ after) := by
    apply prefix_lowercaseAfter [] before.reverse
    simpa only [KeepsSigmas, List.nil_append, List.append_nil] using h
  have hsuffix := suffix_lowercaseAfter [] before (part.toList ++ after)
  rw [List.append_nil] at hsuffix
  rw [lowercase, lowercase, String.toList_ofList, String.toList_ofList, htext, List.append_assoc]
  exact hprefix.isInfix.trans hsuffix.isInfix

end Gazetteer.Text
