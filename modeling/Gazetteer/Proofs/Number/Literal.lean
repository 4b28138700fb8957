import Mathlib
import Gazetteer.Number.Numeral
import Gazetteer.Proofs.Text.Trim
/-!
The texts of numerals.  A numeral is spelled with an optional sign, then with digits, perhaps a
point and further digits, or with a point and digits, and then with an optional exponent.  These are
the texts that are read, each as what it spells.
-/

namespace Gazetteer.Number

/-! Spellings -/

inductive SignMark
  | none
  | plus
  | minus
deriving DecidableEq, Repr

structure Digits where
  chars : List Char
  digit : chars.all Char.isDigit = true

/-- The digits of a numeral, with a point among or beside them or without one. -/
inductive Mantissa
  | whole (before : Digits) (hbefore : before.chars ≠ [])
  | pointed (before : Digits) (hbefore : before.chars ≠ []) (after : Digits)
  | fraction (after : Digits) (hafter : after.chars ≠ [])

/-- An exponent, after a letter of either case. -/
structure Power where
  capital : Bool
  sign : SignMark
  digits : Digits
  filled : digits.chars ≠ []

structure Literal where
  sign : SignMark
  mantissa : Mantissa
  power : Option Power

namespace SignMark

def text : SignMark → List Char
  | none => []
  | plus => ['+']
  | minus => ['-']

def negative (s : SignMark) : Bool :=
  s == minus

end SignMark

namespace Mantissa

def before : Mantissa → List Char
  | whole before _ => before.chars
  | pointed before _ _ => before.chars
  | fraction _ _ => []

def after : Mantissa → List Char
  | whole _ _ => []
  | pointed _ _ after => after.chars
  | fraction after _ => after.chars

def isPointed : Mantissa → Bool
  | whole _ _ => false
  | _ => true

def text (m : Mantissa) : List Char :=
  m.before ++ if m.isPointed then '.' :: m.after else []

end Mantissa

namespace Power

def letter (p : Power) : Char :=
  if p.capital then 'E' else 'e'

theorem letter_cases (p : Power) : p.letter = 'e' ∨ p.letter = 'E' := by
  rw [letter]
  cases p.capital
  · exact Or.inl rfl
  · exact Or.inr rfl

def text (p : Power) : List Char :=
  p.letter :: (p.sign.text ++ p.digits.chars)

def value (p : Power) : Int :=
  if p.sign.negative then -(digitsValue p.digits.chars : Int) else digitsValue p.digits.chars

end Power

namespace Literal

def powerText (l : Literal) : List Char :=
  (l.power.map Power.text).getD []

def text (l : Literal) : List Char :=
  l.sign.text ++ (l.mantissa.text ++ l.powerText)

def numeral (l : Literal) : Numeral where
  negative := l.sign.negative
  digits := digitsValue (l.mantissa.before ++ l.mantissa.after)
  exponent := (l.power.map Power.value).getD 0 - l.mantissa.after.length
  whole := !l.mantissa.isPointed && l.power.isNone

def value (l : Literal) : Float :=
  l.numeral.toFloat

end Literal

/-! Signs -/

theorem takeSign_text (s : SignMark) {rest : List Char}
    (hrest : ∀ c ∈ rest.head?, c ≠ '-' ∧ c ≠ '+') :
    takeSign (s.text ++ rest) = (s.negative, rest) := by
  cases s with
  | plus => rfl
  | minus => rfl
  | none =>
      rw [SignMark.text, List.nil_append, takeSign]
      · rfl
      · rintro cs rfl
        exact (hrest '-' rfl).1 rfl
      · rintro cs rfl
        exact (hrest '+' rfl).2 rfl

theorem exists_sign (cs : List Char) :
    ∃ s : SignMark, s.negative = (takeSign cs).1 ∧ s.text ++ (takeSign cs).2 = cs := by
  rw [takeSign.eq_def]
  split
  · exact ⟨.minus, rfl, rfl⟩
  · exact ⟨.plus, rfl, rfl⟩
  · exact ⟨.none, rfl, rfl⟩

/-! Digits -/

theorem Digits.not_sign (ds : Digits) (hfilled : ds.chars ≠ []) (rest : List Char) :
    ∀ c ∈ (ds.chars ++ rest).head?, c ≠ '-' ∧ c ≠ '+' := by
  intro c hc
  rw [List.head?_append_of_ne_nil _ hfilled] at hc
  have hdigit := List.all_eq_true.mp ds.digit c (List.mem_of_mem_head? hc)
  constructor <;> rintro rfl <;> exact absurd hdigit (by decide)

/-! Exponents -/

theorem exponent?_text (p : Power) : exponent? p.text = some p.value := by
  have hdigits := p.digits.not_sign p.filled []
  rw [List.append_nil] at hdigits
  have hsign := takeSign_text p.sign hdigits
  have hfilled : p.digits.chars.isEmpty = false := List.isEmpty_eq_false_iff.mpr p.filled
  rw [Power.text, exponent?, if_pos p.letter_cases, hsign]
  simp only [hfilled, p.digits.digit, Bool.not_true, Bool.or_self, Bool.false_eq_true, if_false]
  rw [Power.value]
  split <;> rfl

theorem exists_power {cs : List Char} {e : Int} (h : exponent? cs = some e) :
    ∃ power : Option Power, (power.map Power.text).getD [] = cs ∧
      (power.map Power.value).getD 0 = e := by
  cases cs with
  | nil => exact ⟨none, rfl, Option.some_inj.mp h⟩
  | cons c cs =>
      rw [exponent?] at h
      split at h
      next hletter =>
        obtain ⟨s, hnegative, htext⟩ := exists_sign cs
        simp only at h
        split at h
        · cases h
        next hdigits =>
          obtain ⟨hfilled, hall⟩ :
              (takeSign cs).2 ≠ [] ∧ (takeSign cs).2.all Char.isDigit = true := by
            simpa using hdigits
          let p : Power := ⟨c == 'E', s, ⟨(takeSign cs).2, hall⟩, hfilled⟩
          refine ⟨some p, ?_, ?_⟩
          · have hc : p.letter = c := by
              rcases hletter with rfl | rfl <;> rfl
            rw [Option.map_some, Option.getD_some, Power.text, hc, htext]
          · rw [Option.map_some, Option.getD_some, Power.value, hnegative]
            split at h
            next hminus => rw [if_pos hminus, Option.some_inj.mp h]
            next hplus => rw [if_neg hplus, Option.some_inj.mp h]
      · cases h

/-! Mantissas -/

private def takeFraction : List Char → Bool × List Char × List Char
  | '.' :: rest => (true, rest.takeWhile Char.isDigit, rest.dropWhile Char.isDigit)
  | rest => (false, [], rest)

/-- What may follow a mantissa does not go on with it. -/
def Stops (rest : List Char) : Prop :=
  ∀ c ∈ rest.head?, c.isDigit = false ∧ c ≠ '.'

private theorem takeFraction_of_stops {rest : List Char} (h : Stops rest) :
    takeFraction rest = (false, [], rest) := by
  rw [takeFraction]
  rintro cs rfl
  exact (h '.' rfl).2 rfl

private theorem takeFraction_digits (after : Digits) {rest : List Char} (h : Stops rest) :
    takeFraction ('.' :: (after.chars ++ rest)) = (true, after.chars, rest) := by
  have hstop : ∀ c ∈ rest.head?, c.isDigit = false := fun c hc => (h c hc).1
  rw [takeFraction, Text.takeWhile_run after.digit hstop, Text.dropWhile_run after.digit hstop]

private theorem take_mantissa (m : Mantissa) {rest : List Char} (h : Stops rest) :
    (m.text ++ rest).takeWhile Char.isDigit = m.before ∧
      takeFraction ((m.text ++ rest).dropWhile Char.isDigit) = (m.isPointed, m.after, rest) := by
  have hpoint (cs : List Char) : ∀ c ∈ ('.' :: cs).head?, c.isDigit = false := by
    rintro c ⟨⟩
    rfl
  cases m with
  | whole before hbefore =>
      have hstop : ∀ c ∈ rest.head?, c.isDigit = false := fun c hc => (h c hc).1
      have htext : (Mantissa.whole before hbefore).text = before.chars := List.append_nil _
      rw [htext, Text.takeWhile_run before.digit hstop, Text.dropWhile_run before.digit hstop]
      exact ⟨rfl, takeFraction_of_stops h⟩
  | pointed before hbefore after =>
      have htext : (Mantissa.pointed before hbefore after).text ++ rest =
          before.chars ++ '.' :: (after.chars ++ rest) := List.append_assoc _ _ _
      rw [htext, Text.takeWhile_run before.digit (hpoint _),
        Text.dropWhile_run before.digit (hpoint _)]
      exact ⟨rfl, takeFraction_digits after h⟩
  | fraction after hafter =>
      exact ⟨rfl, takeFraction_digits after h⟩

private theorem exists_mantissa {body : List Char} {pointed : Bool} {after tail : List Char}
    (hfraction : takeFraction (body.dropWhile Char.isDigit) = (pointed, after, tail))
    (hfilled : ¬(body.takeWhile Char.isDigit = [] ∧ after = [])) :
    ∃ m : Mantissa, m.before = body.takeWhile Char.isDigit ∧ m.after = after ∧
      m.isPointed = pointed ∧ m.text ++ tail = body := by
  have hbefore : (body.takeWhile Char.isDigit).all Char.isDigit = true := List.all_takeWhile
  have hbody : body.takeWhile Char.isDigit ++ body.dropWhile Char.isDigit = body :=
    List.takeWhile_append_dropWhile
  rw [takeFraction.eq_def] at hfraction
  split at hfraction
  next rest hdrop =>
    obtain ⟨rfl, rfl, rfl⟩ : true = pointed ∧ rest.takeWhile Char.isDigit = after ∧
        rest.dropWhile Char.isDigit = tail := by simpa using hfraction
    have hafter : (rest.takeWhile Char.isDigit).all Char.isDigit = true := List.all_takeWhile
    rw [hdrop, ← List.takeWhile_append_dropWhile (p := Char.isDigit) (l := rest)] at hbody
    by_cases hempty : body.takeWhile Char.isDigit = []
    · refine ⟨.fraction ⟨_, hafter⟩ fun hnone => hfilled ⟨hempty, hnone⟩, hempty.symm, rfl, rfl, ?_⟩
      rw [hempty] at hbody
      exact hbody
    · refine ⟨.pointed ⟨_, hbefore⟩ hempty ⟨_, hafter⟩, rfl, rfl, rfl, ?_⟩
      rw [Mantissa.text, List.append_assoc]
      exact hbody
  next =>
    obtain ⟨rfl, rfl, rfl⟩ : false = pointed ∧ [] = after ∧ body.dropWhile Char.isDigit = tail := by
      simpa using hfraction
    refine ⟨.whole ⟨_, hbefore⟩ fun hempty => hfilled ⟨hempty, rfl⟩, rfl, rfl, rfl, ?_⟩
    rw [Mantissa.text, List.append_assoc]
    exact hbody

private theorem Mantissa.not_empty (m : Mantissa) : ¬(m.before = [] ∧ m.after = []) := by
  rintro ⟨hbefore, hafter⟩
  cases m with
  | whole before hfilled => exact hfilled hbefore
  | pointed before hfilled after => exact hfilled hbefore
  | fraction after hfilled => exact hfilled hafter

private theorem Mantissa.not_sign (m : Mantissa) (rest : List Char) :
    ∀ c ∈ (m.text ++ rest).head?, c ≠ '-' ∧ c ≠ '+' := by
  rw [text, List.append_assoc]
  cases m with
  | whole before hfilled => exact before.not_sign hfilled _
  | pointed before hfilled after => exact before.not_sign hfilled _
  | fraction after hfilled =>
      rintro c ⟨⟩
      decide

/-! Numerals -/

theorem Literal.stops_powerText (l : Literal) : Stops l.powerText := by
  intro c hc
  rw [powerText] at hc
  cases hpower : l.power with
  | none =>
      rw [hpower] at hc
      cases hc
  | some p =>
      rw [hpower] at hc
      obtain rfl : p.letter = c := Option.some_inj.mp hc
      rcases p.letter_cases with hletter | hletter <;> rw [hletter] <;> decide

theorem Literal.exponent?_powerText (l : Literal) :
    exponent? l.powerText = some ((l.power.map Power.value).getD 0) := by
  rw [powerText]
  cases l.power with
  | none => rfl
  | some p => exact exponent?_text p

private theorem numeral?_eq (cs : List Char) : numeral? cs =
    let body := (takeSign cs).2
    let before := body.takeWhile Char.isDigit
    let fraction := takeFraction (body.dropWhile Char.isDigit)
    if before = [] ∧ fraction.2.1 = [] then none
    else (exponent? fraction.2.2).map fun e =>
      ⟨(takeSign cs).1, digitsValue (before ++ fraction.2.1), e - fraction.2.1.length,
        !fraction.1 && fraction.2.2.isEmpty⟩ := by
  rw [numeral?]
  simp only [Bool.and_eq_true, List.isEmpty_iff]
  rfl

theorem numeral?_text (l : Literal) : numeral? l.text = some l.numeral := by
  -- The exponent begins with a letter, so that nothing of it is taken for the mantissa.
  obtain ⟨hbefore, hfraction⟩ := take_mantissa l.mantissa l.stops_powerText
  have hsign : takeSign l.text = (l.sign.negative, l.mantissa.text ++ l.powerText) :=
    takeSign_text l.sign (l.mantissa.not_sign l.powerText)
  have htail : l.powerText.isEmpty = l.power.isNone := by
    rw [Literal.powerText]
    cases l.power <;> rfl
  rw [numeral?_eq, hsign]
  simp only [hbefore, hfraction]
  rw [if_neg l.mantissa.not_empty, l.exponent?_powerText, htail]
  rfl

theorem exists_literal {cs : List Char} {n : Numeral} (h : numeral? cs = some n) :
    ∃ l : Literal, l.text = cs ∧ l.numeral = n := by
  obtain ⟨s, hnegative, hsign⟩ := exists_sign cs
  rw [numeral?_eq] at h
  rcases hfraction : takeFraction ((takeSign cs).2.dropWhile Char.isDigit) with
    ⟨pointed, after, tail⟩
  simp only [hfraction] at h
  split at h
  · cases h
  next hfilled =>
    obtain ⟨e, he, hn⟩ := Option.map_eq_some_iff.mp h
    obtain ⟨m, hbefore, hafter, hpointed, hmantissa⟩ := exists_mantissa hfraction hfilled
    obtain ⟨power, hpower, hvalue⟩ := exists_power he
    refine ⟨⟨s, m, power⟩, ?_, ?_⟩
    · rw [Literal.text, Literal.powerText, hpower, hmantissa, hsign]
    · have htail : tail.isEmpty = power.isNone := by
        rw [← hpower]
        cases power <;> rfl
      rw [Literal.numeral, hnegative, hbefore, hafter, hvalue, hpointed, ← htail, hn]

theorem numeral?_eq_some_iff {cs : List Char} {n : Numeral} :
    numeral? cs = some n ↔ ∃ l : Literal, l.text = cs ∧ l.numeral = n := by
  constructor
  · exact exists_literal
  · rintro ⟨l, rfl, rfl⟩
    exact numeral?_text l

/-! Characters -/

def IsFigure (c : Char) : Prop :=
  c.isDigit = true ∨ c ∈ ['+', '-', '.', 'e', 'E']

theorem SignMark.isFigure (s : SignMark) : ∀ c ∈ s.text, IsFigure c := by
  cases s with
  | none => exact List.forall_mem_nil _
  | plus => exact List.forall_mem_singleton.mpr (Or.inr (by decide))
  | minus => exact List.forall_mem_singleton.mpr (Or.inr (by decide))

theorem Digits.isFigure (ds : Digits) : ∀ c ∈ ds.chars, IsFigure c :=
  fun c hc => Or.inl (List.all_eq_true.mp ds.digit c hc)

theorem Mantissa.isFigure (m : Mantissa) : ∀ c ∈ m.text, IsFigure c := by
  have hpoint : IsFigure '.' := Or.inr (by decide)
  cases m with
  | whole before _ => exact List.forall_mem_append.mpr ⟨before.isFigure, List.forall_mem_nil _⟩
  | pointed before _ after =>
      exact List.forall_mem_append.mpr
        ⟨before.isFigure, List.forall_mem_cons.mpr ⟨hpoint, after.isFigure⟩⟩
  | fraction after _ => exact List.forall_mem_cons.mpr ⟨hpoint, after.isFigure⟩

theorem Power.isFigure (p : Power) : ∀ c ∈ p.text, IsFigure c := by
  refine List.forall_mem_cons.mpr
    ⟨Or.inr ?_, List.forall_mem_append.mpr ⟨p.sign.isFigure, p.digits.isFigure⟩⟩
  rcases p.letter_cases with hletter | hletter <;> rw [hletter] <;> decide

theorem Literal.isFigure (l : Literal) : ∀ c ∈ l.text, IsFigure c := by
  refine List.forall_mem_append.mpr
    ⟨l.sign.isFigure, List.forall_mem_append.mpr ⟨l.mantissa.isFigure, ?_⟩⟩
  rw [powerText]
  cases l.power with
  | none => exact List.forall_mem_nil _
  | some p => exact p.isFigure

theorem Literal.text_ne_nil (l : Literal) : l.text ≠ [] := by
  intro hempty
  have hmantissa : l.mantissa.text = [] :=
    (List.append_eq_nil_iff.mp (List.append_eq_nil_iff.mp hempty).2).1
  cases hm : l.mantissa with
  | whole before hfilled =>
      rw [hm] at hmantissa
      exact hfilled (List.append_eq_nil_iff.mp hmantissa).1
  | pointed before hfilled after =>
      rw [hm] at hmantissa
      exact hfilled (List.append_eq_nil_iff.mp hmantissa).1
  | fraction after hfilled =>
      rw [hm] at hmantissa
      cases hmantissa

end Gazetteer.Number
