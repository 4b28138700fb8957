import Mathlib
import Gazetteer.Proofs.Geometry.Envelope
import Gazetteer.Proofs.Number.Layout
import Gazetteer.Proofs.Number.Literal
import Gazetteer.Proofs.Text.Words
/-!
The texts of envelopes: the word in any letter case and four numerals in brackets, with blanks
around the word and the numerals.  These are the texts that are read, if the numerals are finite and
the edges are in order.
-/

namespace Gazetteer

open Text Number

/-! Numerals between blanks -/

namespace Number.Literal

variable {l : Literal} {cs : List Char} {x : Float}

theorem unspaced_text (l : Literal) : Unspaced l.text := by
  intro c hc
  rcases l.isFigure c hc with hdigit | hmark
  · exact isBlank_digit hdigit
  · simp only [List.mem_cons, List.not_mem_nil, or_false] at hmark
    rcases hmark with rfl | rfl | rfl | rfl | rfl <;> rfl

/-- Whether a text is the numeral with blanks around it. -/
def Pads (l : Literal) (cs : List Char) : Prop :=
  ∃ front back : List Char, front.all isBlank = true ∧ back.all isBlank = true ∧
    cs = front ++ l.text ++ back

theorem Pads.trimEnds_eq (h : l.Pads cs) : trimEnds isBlank cs = l.text := by
  obtain ⟨front, back, hfront, hback, rfl⟩ := h
  refine trimEnds_append hfront hback l.text_ne_nil (fun c hc => ?_) fun c hc => ?_
  · exact l.unspaced_text c (List.mem_of_mem_head? hc)
  · exact l.unspaced_text c (List.mem_of_mem_getLast? hc)

theorem Pads.no_comma (h : l.Pads cs) : ∀ c ∈ cs, (c == ',') = false := by
  obtain ⟨front, back, hfront, hback, rfl⟩ := h
  have hblank {c : Char} (hc : isBlank c = true) : (c == ',') = false :=
    beq_false_of_ne fun heq => absurd (heq ▸ hc) (by decide)
  refine List.forall_mem_append.mpr ⟨List.forall_mem_append.mpr ⟨?_, ?_⟩, ?_⟩
  · exact fun c hc => hblank (List.all_eq_true.mp hfront c hc)
  · intro c hc
    refine beq_false_of_ne ?_
    rintro rfl
    rcases l.isFigure ',' hc with hdigit | hmark
    · exact absurd hdigit (by decide)
    · exact absurd hmark (by decide)
  · exact fun c hc => hblank (List.all_eq_true.mp hback c hc)

theorem finite?_trimEnds : finite? (trimEnds isBlank cs) = some x ↔
    ∃ l : Literal, l.Pads cs ∧ isFinite l.value = true ∧ l.value = x := by
  rw [finite?, Option.bind_eq_some_iff]
  simp only [numeral?_eq_some_iff]
  constructor
  · rintro ⟨_, ⟨l, htext, rfl⟩, hx⟩
    obtain ⟨front, back, hfront, hback, hcs⟩ := exists_trimEnds isBlank cs
    rw [← htext] at hcs
    split at hx
    next hfinite =>
      exact ⟨l, ⟨front, back, hfront, hback, hcs⟩, hfinite, Option.some_inj.mp hx⟩
    next => cases hx
  · rintro ⟨l, hpads, hfinite, rfl⟩
    exact ⟨l.numeral, ⟨l, hpads.trimEnds_eq.symm, rfl⟩, if_pos hfinite⟩

end Number.Literal

namespace Envelope

variable {text inner : List Char} {xs : List Float} {ls : List Literal}

/-! Numerals between commas -/

/-- The texts of some numerals, with blanks around each of them, between commas. -/
inductive Lists : List Literal → List Char → Prop
  | last {l : Literal} {cs : List Char} (hl : l.Pads cs) : Lists [l] cs
  | more {l : Literal} {ls : List Literal} {cs ds : List Char} (hl : l.Pads cs)
      (hls : Lists ls ds) : Lists (l :: ls) (cs ++ ',' :: ds)

private theorem Lists.numbers?_eq (h : Lists ls inner)
    (hfinite : ∀ l ∈ ls, isFinite l.value = true) :
    numbers? inner = some (ls.map Literal.value) := by
  induction h with
  | @last l cs hl =>
      have hpieces : pieces (· == ',') cs = [cs] := pieces_eq_singleton hl.no_comma
      have hx := Literal.finite?_trimEnds.mpr ⟨l, hl, hfinite l List.mem_cons_self, rfl⟩
      rw [numbers?, hpieces, List.mapM_cons, hx]
      rfl
  | @more l ls cs ds hl _ ih =>
      obtain ⟨hfirst, hrest⟩ := List.forall_mem_cons.mp hfinite
      have hpieces : pieces (· == ',') (cs ++ ',' :: ds) = cs :: pieces (· == ',') ds := by
        rw [pieces_append_separator (by rfl), pieces_eq_singleton hl.no_comma]
        rfl
      have hx := Literal.finite?_trimEnds.mpr ⟨l, hl, hfirst, rfl⟩
      have hxs := ih hrest
      rw [numbers?] at hxs
      rw [numbers?, hpieces, List.mapM_cons, hx, hxs]
      rfl

private theorem exists_lists (h : numbers? inner = some xs) :
    ∃ ls, Lists ls inner ∧ (∀ l ∈ ls, isFinite l.value = true) ∧ ls.map Literal.value = xs := by
  rw [numbers?] at h
  generalize hpieces : pieces (· == ',') inner = parts at h
  induction parts generalizing inner xs with
  | nil => exact absurd hpieces (pieces_ne_nil _ inner)
  | cons first rest ih =>
      rw [List.mapM_cons] at h
      obtain ⟨x, hx, h⟩ := Option.bind_eq_some_iff.mp h
      obtain ⟨ys, hys, h⟩ := Option.bind_eq_some_iff.mp h
      obtain rfl : x :: ys = xs := Option.some_inj.mp h
      obtain ⟨l, hl, hfinite, rfl⟩ := Literal.finite?_trimEnds.mp hx
      cases rest with
      | nil =>
          obtain rfl : [] = ys := Option.some_inj.mp hys
          rw [eq_of_pieces_singleton hpieces]
          exact ⟨[l], .last hl, List.forall_mem_singleton.mpr hfinite, rfl⟩
      | cons second others =>
          obtain ⟨c, ds, hc, rfl, hds⟩ := exists_separator hpieces
          obtain ⟨ls, hls, hrest, rfl⟩ := ih hds hys
          rw [beq_iff_eq.mp hc]
          exact ⟨l :: ls, .more hl hls, List.forall_mem_cons.mpr ⟨hfinite, hrest⟩, rfl⟩

theorem numbers?_eq_some_iff : numbers? inner = some xs ↔
    ∃ ls, Lists ls inner ∧ (∀ l ∈ ls, isFinite l.value = true) ∧ ls.map Literal.value = xs := by
  constructor
  · exact exists_lists
  · rintro ⟨ls, hls, hfinite, rfl⟩
    exact hls.numbers?_eq hfinite

/-! The outer form -/

/-- Whether a text is the word in any letter case, with a text in brackets after it and blanks
around the word and at the end. -/
def Frames (inner text : List Char) : Prop :=
  ∃ front word gap back : List Char, front.all isBlank = true ∧
    word.map Char.toLower = keyword ∧ gap.all isBlank = true ∧ back.all isBlank = true ∧
      text = front ++ (word ++ (gap ++ '(' :: (inner ++ [')']))) ++ back

private theorem head_word {word : List Char} (hword : word.map Char.toLower = keyword) :
    word ≠ [] ∧ ∀ c ∈ word.head?, isBlank c = false := by
  cases word with
  | nil => cases hword
  | cons first others =>
      refine ⟨List.cons_ne_nil _ _, ?_⟩
      rintro c ⟨⟩
      have hfirst : first.toLower = 'e' := (List.cons_eq_cons.mp hword).1
      rw [← isBlank_toLower, hfirst]
      rfl

private theorem Frames.inside?_eq (h : Frames inner text) : inside? text = some inner := by
  obtain ⟨front, word, gap, back, hfront, hword, hgap, hback, rfl⟩ := h
  obtain ⟨hfilled, hhead⟩ := head_word hword
  have hlength : word.length = 8 := by
    rw [← List.length_map Char.toLower, hword]
    rfl
  let body := word ++ (gap ++ '(' :: (inner ++ [')']))
  have hbody : trimEnds isBlank (front ++ body ++ back) = body := by
    refine trimEnds_append hfront hback (List.append_ne_nil_of_left_ne_nil hfilled _) ?_ ?_
    · rwa [List.head?_append_of_ne_nil _ hfilled]
    · have hend : body = (word ++ (gap ++ '(' :: inner)) ++ [')'] := by simp [body]
      rw [hend, List.getLast?_concat]
      rintro c ⟨⟩
      rfl
  have hgapped : (gap ++ '(' :: (inner ++ [')'])).dropWhile isBlank = '(' :: (inner ++ [')']) := by
    refine dropWhile_run hgap ?_
    rintro c ⟨⟩
    rfl
  rw [inside?, hbody]
  simp only [body, List.take_left' hlength, List.drop_left' hlength, hword, hgapped, if_true,
    List.getLast?_concat, List.dropLast_concat]

private theorem frames_of_inside? (h : inside? text = some inner) : Frames inner text := by
  obtain ⟨front, back, hfront, hback, htext⟩ := exists_trimEnds isBlank text
  rw [inside?] at h
  generalize trimEnds isBlank text = body at h htext
  split at h
  next hword =>
    split at h
    next rest hrest =>
      split at h
      next hlast =>
        obtain rfl : rest.dropLast = inner := Option.some_inj.mp h
        refine ⟨front, body.take 8, (body.drop 8).takeWhile isBlank, back, hfront, hword,
          List.all_takeWhile, hback, ?_⟩
        rw [List.dropLast_append_getLast? _ hlast, ← hrest, List.takeWhile_append_dropWhile,
          List.take_append_drop]
        exact htext
      next => cases h
    next => cases h
  next => cases h

theorem inside?_eq_some_iff : inside? text = some inner ↔ Frames inner text :=
  ⟨frames_of_inside?, Frames.inside?_eq⟩

/-! Envelopes -/

private theorem not_lt_iff_le {x y : Float} (hx : isFinite x = true) (hy : isFinite y = true) :
    ¬x < y ↔ y ≤ x := by
  have hxNumber := isNaN_of_isFinite hx
  have hyNumber := isNaN_of_isFinite hy
  rw [lt_iff_scaled hxNumber hyNumber, le_iff_scaled hyNumber hxNumber, not_lt]

theorem ofEdges?_eq_some_iff {west east north south : Float} {e : Envelope}
    (hfinite : ∀ x ∈ [west, east, north, south], isFinite x = true) :
    ofEdges? west east north south = some e ↔ west ≤ east ∧ south ≤ north ∧
      { minX := west, minY := south, maxX := east, maxY := north } = e := by
  obtain ⟨hwest, heast, hnorth, hsouth⟩ : isFinite west = true ∧ isFinite east = true ∧
      isFinite north = true ∧ isFinite south = true := by
    simpa using hfinite
  rw [ofEdges?, ← not_lt_iff_le heast hwest, ← not_lt_iff_le hnorth hsouth, ← and_assoc, ← not_or]
  simp only [Bool.or_eq_true, decide_eq_true_eq]
  split
  next hinverted =>
    exact iff_of_false (Option.some_ne_none e).symm fun hordered => hordered.1 hinverted
  next hordered => rw [Option.some_inj, and_iff_right hordered]

def Spells (ls : List Literal) (text : List Char) : Prop :=
  ∃ inner, Lists ls inner ∧ Frames inner text

/-- Texts of four finite numerals whose edges are in order are read, each as the envelope with these
edges, and no other texts are. -/
theorem parse_iff_spells {text : String} {e : Envelope} :
    parse? text = some e ↔ ∃ west east north south : Literal,
      Spells [west, east, north, south] text.toList ∧
        (∀ l ∈ [west, east, north, south], isFinite l.value = true) ∧
        west.value ≤ east.value ∧ south.value ≤ north.value ∧
          { minX := west.value, minY := south.value,
            maxX := east.value, maxY := north.value } = e := by
  have hread {xs : List Float} : (inside? text.toList).bind numbers? = some xs ↔
      ∃ ls, Spells ls text.toList ∧ (∀ l ∈ ls, isFinite l.value = true) ∧
        ls.map Literal.value = xs := by
    simp only [Option.bind_eq_some_iff, inside?_eq_some_iff, numbers?_eq_some_iff, Spells]
    constructor
    · rintro ⟨inner, hframes, ls, hls, hvalues⟩
      exact ⟨ls, ⟨inner, hls, hframes⟩, hvalues⟩
    · rintro ⟨ls, ⟨inner, hls, hframes⟩, hvalues⟩
      exact ⟨inner, hframes, ls, hls, hvalues⟩
  rw [parse?, parseList?]
  constructor
  · intro h
    split at h
    next hnumbers =>
      obtain ⟨ls, hspells, hfinite, hvalues⟩ := hread.mp hnumbers
      obtain ⟨west, _, rfl, rfl, heast⟩ := List.map_eq_cons_iff.mp hvalues
      obtain ⟨east, _, rfl, rfl, hnorth⟩ := List.map_eq_cons_iff.mp heast
      obtain ⟨north, _, rfl, rfl, hsouth⟩ := List.map_eq_cons_iff.mp hnorth
      obtain ⟨south, _, rfl, rfl, hnone⟩ := List.map_eq_cons_iff.mp hsouth
      obtain rfl := List.map_eq_nil_iff.mp hnone
      obtain ⟨hx, hy, he⟩ := (ofEdges?_eq_some_iff (by simpa using hfinite)).mp h
      exact ⟨west, east, north, south, hspells, hfinite, hx, hy, he⟩
    next => cases h
  · rintro ⟨west, east, north, south, hspells, hfinite, hx, hy, he⟩
    rw [hread.mpr ⟨_, hspells, hfinite, rfl⟩]
    exact (ofEdges?_eq_some_iff (by simpa using hfinite)).mpr ⟨hx, hy, he⟩

end Envelope

end Gazetteer
