import Gazetteer.Store.Cell
/-!
Query text with the values that stand for its question marks, in their order.  Values never become
part of the text.
-/

namespace Gazetteer

structure Fragment where
  sql : String
  params : List Cell
deriving DecidableEq, Inhabited

namespace Fragment

def truth : Fragment :=
  ⟨"1=1", []⟩

def isTruth (f : Fragment) : Bool :=
  f.sql == "1=1"

/-- All of the conditions at once, each in brackets. -/
def conjunction (parts : List Fragment) : Fragment :=
  if parts.isEmpty then truth
  else
    ⟨String.intercalate " AND " (parts.map fun part => "(" ++ part.sql ++ ")"),
      parts.flatMap Fragment.params⟩

def placeholders (count : Nat) : String :=
  String.intercalate ", " (List.replicate count "?")

end Fragment

def scalarColumn (field : String) : String :=
  "r.\"" ++ field ++ "\""

end Gazetteer
