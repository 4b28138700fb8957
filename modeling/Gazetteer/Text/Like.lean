/-!
Wildcard patterns: a percent sign stands for any run of characters, an underscore for any one, a
backslash makes the next character stand for itself, and letters A to Z match in either case.
Patterns and texts end at a NUL.
-/

namespace Gazetteer.Text

inductive Wildcard
  | run
  | one
  | char (c : Char)
deriving DecidableEq, Repr

/-- The items of a pattern; nothing if its last character is a backslash that escapes nothing. -/
def wildcards? : List Char → Option (List Wildcard)
  | [] => some []
  | '\\' :: [] => none
  | '\\' :: c :: cs => (wildcards? cs).map (.char c :: ·)
  | '%' :: cs => (wildcards? cs).map (.run :: ·)
  | '_' :: cs => (wildcards? cs).map (.one :: ·)
  | c :: cs => (wildcards? cs).map (.char c :: ·)

/-- The text itself and everything that is left of it after some characters. -/
def suffixes {α : Type} : List α → List (List α)
  | [] => [[]]
  | c :: cs => (c :: cs) :: suffixes cs

def matchesItems : List Wildcard → List Char → Bool
  | [], cs => cs.isEmpty
  | .run :: rest, cs => (suffixes cs).any fun tail => matchesItems rest tail
  | .one :: rest, cs =>
      match cs with
      | [] => false
      | _ :: tail => matchesItems rest tail
  | .char a :: rest, cs =>
      match cs with
      | [] => false
      | c :: tail => a.toLower == c.toLower && matchesItems rest tail

def upToNul (cs : List Char) : List Char :=
  cs.takeWhile fun c => c.toNat != 0

def isLike (pattern text : List Char) : Bool :=
  match wildcards? (upToNul pattern) with
  | none => false
  | some items => matchesItems items (upToNul text)

def escapeWildcards (cs : List Char) : List Char :=
  cs.flatMap fun c => if c = '\\' ∨ c = '%' ∨ c = '_' then ['\\', c] else [c]

def containing (term : List Char) : List Char :=
  '%' :: (escapeWildcards term ++ ['%'])

end Gazetteer.Text
