import Gazetteer.Json.Token
/-!
Syntax trees of interchange text.  A tree keeps numerals as they are written and fields in the
order and number in which they stand, so that a reader may pass over parts of it unread.
-/

namespace Gazetteer.Json

inductive Tree
  | null
  | bool (value : Bool)
  | number (figures : Figures)
  | text (value : Option String)
  | list (items : List Tree)
  | record (fields : List (Option String × Tree))
deriving Inhabited

/-- A list or record whose end has not been reached; its parts are held backwards. -/
inductive Frame
  | list (items : List Tree)
  | record (fields : List (Option String × Tree)) (name : Option String)

inductive Awaited
  | value
  | valueOrEnd
  | nameOrEnd (fields : List (Option String × Tree))
  | name (fields : List (Option String × Tree))
  | colon
  /-- After a value inside a frame: a comma, or the end of the frame. -/
  | next
  | nothing (result : Tree)

structure Builder where
  awaited : Awaited
  frames : List Frame

namespace Builder

def start : Builder :=
  ⟨.value, []⟩

def put (frames : List Frame) (value : Tree) : Builder :=
  match frames with
  | [] => ⟨.nothing value, []⟩
  | .list items :: rest => ⟨.next, .list (value :: items) :: rest⟩
  | .record fields name :: rest => ⟨.next, .record ((name, value) :: fields) none :: rest⟩

def open? (frames : List Frame) : Token → Option Builder
  | .openList => some ⟨.valueOrEnd, .list [] :: frames⟩
  | .openRecord => some ⟨.nameOrEnd [], frames⟩
  | .null => some (put frames .null)
  | .bool value => some (put frames (.bool value))
  | .number figures => some (put frames (.number figures))
  | .text value => some (put frames (.text value))
  | _ => none

def step? (b : Builder) (token : Token) : Option Builder :=
  match b.awaited, token, b.frames with
  | .value, token, frames => open? frames token
  | .valueOrEnd, .closeList, .list items :: rest => some (put rest (.list items.reverse))
  | .valueOrEnd, token, frames => open? frames token
  | .nameOrEnd fields, .closeRecord, frames => some (put frames (.record fields.reverse))
  | .nameOrEnd fields, .text name, frames => some ⟨.colon, .record fields name :: frames⟩
  | .name fields, .text name, frames => some ⟨.colon, .record fields name :: frames⟩
  | .colon, .colon, frames => some ⟨.value, frames⟩
  | .next, .comma, .list items :: rest => some ⟨.value, .list items :: rest⟩
  | .next, .comma, .record fields _ :: rest => some ⟨.name fields, rest⟩
  | .next, .closeList, .list items :: rest => some (put rest (.list items.reverse))
  | .next, .closeRecord, .record fields _ :: rest => some (put rest (.record fields.reverse))
  | _, _, _ => none

def run : Builder → List Token → Option Builder
  | b, [] => some b
  | b, token :: rest => (b.step? token).bind fun next => next.run rest

def result? (b : Builder) : Option Tree :=
  match b.awaited with
  | .nothing result => some result
  | _ => none

end Builder

/-- The tree of a text that is one value and nothing else. -/
def Tree.ofText? (s : String) : Option Tree :=
  (tokens? s.toList).bind fun tokens => (Builder.start.run tokens).bind Builder.result?

end Gazetteer.Json
