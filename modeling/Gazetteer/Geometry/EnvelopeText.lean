import Gazetteer.Geometry.Box
import Gazetteer.Number.Shortest
import Gazetteer.Text.Blank
/-!
The text of an envelope: `ENVELOPE(west,east,north,south)`, in any letter case and with blanks
around the word and the numbers.  Planar envelopes only: the west edge is not east of the east
edge, and the south edge not north of the north edge.
-/

namespace Gazetteer.Envelope

open Gazetteer.Text Gazetteer.Number

def keyword : List Char :=
  ['e', 'n', 'v', 'e', 'l', 'o', 'p', 'e']

/-- The text between the brackets, if the text has the outer form of an envelope. -/
def inside? (text : List Char) : Option (List Char) :=
  let body := trimEnds isBlank text
  if (body.take 8).map Char.toLower = keyword then
    match (body.drop 8).dropWhile isBlank with
    | '(' :: rest => if rest.getLast? = some ')' then some rest.dropLast else none
    | _ => none
  else none

/-- The finite numbers between commas, blanks around each of them not counting. -/
def numbers? (text : List Char) : Option (List Float) :=
  (pieces (· == ',') text).mapM fun piece => finite? (trimEnds isBlank piece)

def ofEdges? (west east north south : Float) : Option Envelope :=
  if east < west || north < south then none else some ⟨west, south, east, north⟩

def parseList? (text : List Char) : Option Envelope :=
  match (inside? text).bind numbers? with
  | some [west, east, north, south] => ofEdges? west east north south
  | _ => none

def parse? (text : String) : Option Envelope :=
  parseList? text.toList

def text (e : Envelope) : String :=
  let number := Layout.plain.text
  "ENVELOPE(" ++ number e.minX ++ "," ++ number e.maxX ++ "," ++ number e.maxY ++ "," ++
    number e.minY ++ ")"

/-- How much a stored envelope and a query box overlap; nothing if an edge is missing. -/
def overlapOfEdges (stored query : Option Float × Option Float × Option Float × Option Float) :
    Option Float :=
  let box? : Option Float × Option Float × Option Float × Option Float → Option Envelope
    | (some a, some b, some c, some d) => some ⟨a, b, c, d⟩
    | _ => none
  (box? stored).bind fun a => (box? query).map fun b => a.overlap b

end Gazetteer.Envelope
