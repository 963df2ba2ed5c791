import DiscGraphics.Json.Token

/-!
Reading a JSON value from its tokens, one token at a time. Values that are still open are kept in a
list, the innermost first, so that nesting costs no depth.
-/
namespace DiscGraphics.Json

/-- An array or object that is still open, its contents last first. -/
inductive Open where
  | array (items : List Json)
  | object (members : List (Option String × Json)) (key : Option String)

/-- What may come next, and what is still open around it. -/
inductive Reader where
  | value (outer : List Open)
  | arrayStart (outer : List Open)
  | objectStart (outer : List Open)
  | key (members : List (Option String × Json)) (outer : List Open)
  | colon (members : List (Option String × Json)) (key : Option String) (outer : List Open)
  | complete (value : Json) (outer : List Open)

namespace Reader

def start : Reader := .value []

def opening (outer : List Open) : Token → Option Reader
  | .openArray => some (.arrayStart outer)
  | .openObject => some (.objectStart outer)
  | .atom v => some (.complete v outer)
  | _ => none

/-- A token after a complete value, by what is open around it. -/
def closing (v : Json) : List Open → Token → Option Reader
  | .array items :: outer, .comma => some (.value (.array (v :: items) :: outer))
  | .array items :: outer, .closeArray => some (.complete (.array (v :: items).reverse) outer)
  | .object members k :: outer, .comma => some (.key ((k, v) :: members) outer)
  | .object members k :: outer, .closeObject =>
    some (.complete (.object ((k, v) :: members).reverse) outer)
  | _, _ => none

def step : Reader → Token → Option Reader
  | .value outer, t => opening outer t
  | .arrayStart outer, .closeArray => some (.complete (.array []) outer)
  | .arrayStart outer, t => opening (.array [] :: outer) t
  | .objectStart outer, .closeObject => some (.complete (.object []) outer)
  | .objectStart outer, .atom (.text k) => some (.colon [] k outer)
  | .key members outer, .atom (.text k) => some (.colon members k outer)
  | .colon members k outer, .colon => some (.value (.object members k :: outer))
  | .complete v outer, t => closing v outer t
  | _, _ => none

def run : Reader → List Token → Option Reader
  | r, [] => some r
  | r, t :: ts =>
    match r.step t with
    | some r => r.run ts
    | none => none

end Reader

/-- The value that a text holds, if it holds exactly one. -/
def parse? (text : String) : Option Json :=
  match tokens [] text.toList with
  | none => none
  | some ts =>
    match Reader.start.run ts with
    | some (.complete v []) => some v
    | _ => none

end DiscGraphics.Json
