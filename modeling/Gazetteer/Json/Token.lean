/-!
Tokens of interchange text.  The text is cut by a machine that takes one character at a time; a
word that is neither a numeral nor one of the three literals is no token.
-/

namespace Gazetteer.Json

/-- A numeral as it is written: its sign, the digits before the point, those after it, and the
exponent's sign and digits. -/
structure Figures where
  negative : Bool
  before : List Char
  after : Option (List Char)
  power : Option (Bool × List Char)
deriving DecidableEq, Repr

inductive Token
  | openList
  | closeList
  | openRecord
  | closeRecord
  | comma
  | colon
  | null
  | bool (value : Bool)
  | number (figures : Figures)
  /-- Quoted text; nothing if an escape names half of a surrogate pair on its own. -/
  | text (value : Option String)
deriving DecidableEq, Repr

/-- The text between quotes as far as it has been taken, backwards. -/
structure Quoted where
  taken : List Char
  /-- The first half of a surrogate pair whose second half must follow at once. -/
  half : Option Nat
  whole : Bool

namespace Quoted

def start : Quoted :=
  ⟨[], none, true⟩

def push (q : Quoted) (c : Char) : Quoted :=
  ⟨c :: q.taken, none, q.whole && q.half.isNone⟩

/-- Takes a sixteen-bit unit that an escape names. -/
def pushUnit (q : Quoted) (unit : Nat) : Quoted :=
  if 0xD800 ≤ unit ∧ unit < 0xDC00 then ⟨q.taken, some unit, q.whole && q.half.isNone⟩
  else if 0xDC00 ≤ unit ∧ unit < 0xE000 then
    match q.half with
    | some first =>
        ⟨Char.ofNat (0x10000 + (first - 0xD800) * 0x400 + (unit - 0xDC00)) :: q.taken, none,
          q.whole⟩
    | none => ⟨q.taken, none, false⟩
  else q.push (Char.ofNat unit)

def value (q : Quoted) : Option String :=
  if q.whole && q.half.isNone then some (String.ofList q.taken.reverse) else none

end Quoted

inductive Lexing
  | ground
  /-- Inside a word, whose characters are held backwards. -/
  | word (taken : List Char)
  | quoted (q : Quoted)
  | escape (q : Quoted)
  /-- Inside an escape that names a unit: the digits still to come, and the value so far. -/
  | unit (q : Quoted) (left value : Nat)

private def splitDigits (cs : List Char) : List Char × List Char :=
  (cs.takeWhile Char.isDigit, cs.dropWhile Char.isDigit)

private def power? : List Char → Option (Option (Bool × List Char))
  | [] => some none
  | c :: cs =>
      if c = 'e' ∨ c = 'E' then
        let (negative, digits) :=
          match cs with
          | '-' :: rest => (true, rest)
          | '+' :: rest => (false, rest)
          | rest => (false, rest)
        if digits.isEmpty || !digits.all Char.isDigit then none else some (some (negative, digits))
      else none

/-- The figures of a numeral: no zero before another digit, and digits on both sides of a point. -/
def figures? (cs : List Char) : Option Figures :=
  let (negative, body) :=
    match cs with
    | '-' :: rest => (true, rest)
    | rest => (false, rest)
  let (before, tail) := splitDigits body
  let lead : Bool :=
    match before with
    | [] => false
    | c :: rest => c != '0' || rest.isEmpty
  if !lead then none
  else
    match tail with
    | '.' :: rest =>
        let (after, tail) := splitDigits rest
        if after.isEmpty then none
        else (power? tail).map fun power => ⟨negative, before, some after, power⟩
    | tail => (power? tail).map fun power => ⟨negative, before, none, power⟩

def wordToken? (cs : List Char) : Option Token :=
  if cs = ['n', 'u', 'l', 'l'] then some .null
  else if cs = ['t', 'r', 'u', 'e'] then some (.bool true)
  else if cs = ['f', 'a', 'l', 's', 'e'] then some (.bool false)
  else (figures? cs).map .number

def isSpace (c : Char) : Bool :=
  c == ' ' || c == '\n' || c == '\r' || c == '\t'

def punctuation? (c : Char) : Option Token :=
  if c = '[' then some .openList
  else if c = ']' then some .closeList
  else if c = Char.ofNat 0x7B then some .openRecord
  else if c = Char.ofNat 0x7D then some .closeRecord
  else if c = ',' then some .comma
  else if c = ':' then some .colon
  else none

def escaped? (c : Char) : Option Char :=
  if c = '"' ∨ c = '\\' ∨ c = '/' then some c
  else if c = 'n' then some '\n'
  else if c = 'r' then some '\r'
  else if c = 't' then some '\t'
  else if c = 'b' then some (Char.ofNat 0x08)
  else if c = 'f' then some (Char.ofNat 0x0C)
  else none

def hexValue? (c : Char) : Option Nat :=
  if c.isDigit then some (c.toNat - '0'.toNat)
  else if 'a' ≤ c ∧ c ≤ 'f' then some (c.toNat - 'a'.toNat + 10)
  else if 'A' ≤ c ∧ c ≤ 'F' then some (c.toNat - 'A'.toNat + 10)
  else none

/-- What a character between tokens leads to: the next state, and the token it completes. -/
def Lexing.begin (c : Char) : Lexing × List Token :=
  if isSpace c then (.ground, [])
  else if c = '"' then (.quoted .start, [])
  else
    match punctuation? c with
    | some token => (.ground, [token])
    | none => (.word [c], [])

/-- One character further: the next state and the tokens completed by it. -/
def Lexing.step : Lexing → Char → Option (Lexing × List Token)
  | .ground, c => some (begin c)
  | .word taken, c =>
      if isSpace c || c = '"' || (punctuation? c).isSome then
        (wordToken? taken.reverse).map fun token => ((begin c).1, token :: (begin c).2)
      else some (.word (c :: taken), [])
  | .quoted q, c =>
      if c = '"' then some (.ground, [.text q.value])
      else if c = '\\' then some (.escape q, [])
      else if c.toNat < 0x20 then none
      else some (.quoted (q.push c), [])
  | .escape q, c =>
      if c = 'u' then some (.unit q 3 0, [])
      else (escaped? c).map fun e => (.quoted (q.push e), [])
  | .unit q left value, c =>
      (hexValue? c).map fun digit =>
        match left with
        | 0 => (.quoted (q.pushUnit (16 * value + digit)), [])
        | left + 1 => (.unit q left (16 * value + digit), [])

def Lexing.finish : Lexing → Option (List Token)
  | .ground => some []
  | .word taken => (wordToken? taken.reverse).map ([·])
  | _ => none

def Lexing.run : Lexing → List Char → Option (List Token)
  | state, [] => state.finish
  | state, c :: cs =>
      match state.step c with
      | none => none
      | some (next, tokens) => (next.run cs).map (tokens ++ ·)

def tokens? (cs : List Char) : Option (List Token) :=
  Lexing.ground.run cs

end Gazetteer.Json
