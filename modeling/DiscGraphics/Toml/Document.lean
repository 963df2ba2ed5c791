import DiscGraphics.Toml.Date

/-!
TOML values and documents. A table remembers how it came about, because that decides what may still
be added to it: a table with a header of its own is not opened again, and one written out inside
braces is closed for good.
-/
namespace DiscGraphics

inductive Toml.Origin where
  /-- On the way to the table of a header. -/
  | passed
  | header
  /-- From a key of several parts. -/
  | dotted
  | inline
  deriving DecidableEq, Repr

inductive Toml where
  | text (s : String)
  | integer (n : Int)
  | boolean (b : Bool)
  /-- A fractional number or a date. -/
  | other
  /-- A number that is well formed and has no value. -/
  | valueless
  | array (items : List Toml)
  /-- The tables of repeated headers, the last one first. -/
  | tables (last : List (String × Toml)) (earlier : List Toml)
  | table (origin : Toml.Origin) (entries : List (String × Toml))
  deriving Repr, Inhabited

namespace Toml

/-- The entries of a table, no two of one key. Their order tells nothing. -/
abbrev Entries := List (String × Toml)

def replace (entries : Entries) (key : String) (v : Toml) : Entries :=
  entries.map fun e => if e.1 == key then (key, v) else e

/-- Give a key of several parts a value. Tables on the way are made or extended, as long as they
have no header of their own; of the tables that repeated headers made, the last one is on the way.
The table of the last part must come from keys alone, and the last part must be new in it. -/
def assign (v : Toml) : List String → Entries → Option Entries
  | [], _ => none
  | [key], entries =>
    match entries.lookup key with
    | none => some ((key, v) :: entries)
    | some _ => none
  | key :: rest, entries =>
    match entries.lookup key with
    | none => (assign v rest []).map fun sub => (key, .table .dotted sub) :: entries
    | some (.table .dotted sub) =>
      (assign v rest sub).map fun sub => replace entries key (.table .dotted sub)
    | some (.table .passed sub) =>
      if rest.length = 1 then none
      else (assign v rest sub).map fun sub => replace entries key (.table .passed sub)
    | some (.tables last earlier) =>
      if rest.length = 1 then none
      else (assign v rest last).map fun last => replace entries key (.tables last earlier)
    | some _ => none

/-- Apply a change to the table that a path leads to through the tables of other headers. -/
def descend (change : Entries → Option Entries) : List String → Entries → Option Entries
  | [], entries => change entries
  | key :: rest, entries =>
    match entries.lookup key with
    | none => (descend change rest []).map fun sub => (key, .table .passed sub) :: entries
    | some (.table origin sub) =>
      if origin = .inline then none
      else (descend change rest sub).map fun sub => replace entries key (.table origin sub)
    | some (.tables last earlier) =>
      (descend change rest last).map fun last => replace entries key (.tables last earlier)
    | some _ => none

/-- Open the table of a header: a new one, or one that was only passed so far. -/
def openTable (key : String) (entries : Entries) : Option Entries :=
  match entries.lookup key with
  | none => some ((key, .table .header []) :: entries)
  | some (.table .passed sub) => some (replace entries key (.table .header sub))
  | some _ => none

/-- Begin another of the tables that repeated headers make. -/
def openRepeated (key : String) (entries : Entries) : Option Entries :=
  match entries.lookup key with
  | none => some ((key, .tables [] []) :: entries)
  | some (.tables last earlier) =>
    some (replace entries key (.tables [] (.table .header last :: earlier)))
  | some _ => none

/-- The value of a run of word characters. -/
def ofWord? (cs : List Char) : Option Toml :=
  if cs = ['t', 'r', 'u', 'e'] then some (.boolean true)
  else if cs = ['f', 'a', 'l', 's', 'e'] then some (.boolean false)
  else if isDateTime cs then some .other
  else
    match numeral? cs with
    | some (.whole n) => some (.integer n)
    | some .fractional => some .other
    | some .valueless => some .valueless
    | none => none

/-- What follows the equals sign of a member in braces and the lines around it. -/
def assignment? (cs : List Char) : Option (List Char) :=
  match skipLines cs with
  | some ('=' :: rest) => skipLines rest
  | _ => none

mutual

/-- A value of any kind. `fuel` bounds the text read, `depth` the nesting that is left. -/
def value? (depth : Nat) : Nat → List Char → Taken Toml
  | 0, _ => none
  | fuel + 1, cs =>
    match cs with
    | '[' :: rest => if depth = 0 then none else items? (depth - 1) [] fuel rest
    | '\x7b' :: rest => if depth = 0 then none else members? (depth - 1) [] fuel rest
    | c :: _ =>
      if c = '"' ∨ c = '\'' then (string? cs).map fun (s, rest) => (.text s, rest)
      else
        let (run, rest) := word cs
        (ofWord? run).map (·, rest)
    | [] => none

/-- The items of an array from here on, those before kept last first. -/
def items? (depth : Nat) (done : List Toml) : Nat → List Char → Taken Toml
  | 0, _ => none
  | fuel + 1, cs =>
    match skipLines cs with
    | none => none
    | some (']' :: rest) => some (.array done.reverse, rest)
    | some rest =>
      match value? depth fuel rest with
      | none => none
      | some (v, rest) =>
        match skipLines rest with
        | some (',' :: rest) => items? depth (v :: done) fuel rest
        | some (']' :: rest) => some (.array (v :: done).reverse, rest)
        | _ => none

/-- The members of a table in braces from here on, after those given. Lines may end anywhere but
inside a key. -/
def members? (depth : Nat) (entries : Entries) : Nat → List Char → Taken Toml
  | 0, _ => none
  | fuel + 1, cs =>
    match skipLines cs with
    | none => none
    | some ('\x7d' :: rest) => some (.table .inline entries, rest)
    | some rest =>
      match key? rest with
      | none => none
      | some (key, rest) =>
        match assignment? rest with
        | none => none
        | some rest =>
          match value? depth fuel rest with
          | none => none
          | some (v, rest) =>
            match assign v key entries, skipLines rest with
            | some entries, some (',' :: rest) => members? depth entries fuel rest
            | some entries, some ('\x7d' :: rest) => some (.table .inline entries, rest)
            | _, _ => none

end

/-- A document under construction: its entries and the path of the table that lines belong to. -/
structure Document where
  entries : Entries
  current : List String

namespace Document

/-- The line of a header in single or double brackets. -/
def header? (d : Document) (cs : List Char) : Taken Document :=
  let finish (key : List String) (change : String → Entries → Option Entries) : Option Document :=
    match key.getLast? with
    | none => none
    | some last => (descend (change last) key.dropLast d.entries).map (⟨·, key⟩)
  match cs with
  | '[' :: '[' :: rest =>
    match key? rest with
    | some (key, ']' :: ']' :: rest) => (finish key openRepeated).map (·, rest)
    | _ => none
  | '[' :: rest =>
    match key? rest with
    | some (key, ']' :: rest) => (finish key openTable).map (·, rest)
    | _ => none
  | _ => none

/-- The line of a key and its value. `fuel` bounds the text read. -/
def member? (d : Document) (fuel : Nat) (cs : List Char) : Taken Document :=
  match key? cs with
  | some (key, '=' :: rest) =>
    match value? maxDepth fuel (skipBlanks rest) with
    | none => none
    | some (v, rest) =>
      (descend (assign v key) d.current d.entries).map fun entries => ({ d with entries }, rest)
  | _ => none

/-- All lines from here on. `fuel` bounds the text read. -/
def lines? (d : Document) : Nat → List Char → Option Document
  | 0, _ => none
  | fuel + 1, cs =>
    match skipLines cs with
    | none => none
    | some [] => some d
    | some rest =>
      let line := match rest with
        | '[' :: _ => d.header? rest
        | _ => d.member? fuel rest
      match line with
      | none => none
      | some (d, rest) =>
        match endOfLine rest with
        | none => none
        | some rest => lines? d fuel rest

end Document

/-- The table that a text describes. A mark of the byte order may stand before it. -/
def parse? (text : String) : Option Toml :=
  let cs := match text.toList with
    | '\ufeff' :: rest => rest
    | cs => cs
  (Document.lines? ⟨[], []⟩ (cs.length + 1) cs).map fun d => .table .header d.entries

mutual

def hasValue : Toml → Bool
  | .valueless => false
  | .array items => allHaveValues items
  | .tables last earlier => membersHaveValues last && allHaveValues earlier
  | .table _ entries => membersHaveValues entries
  | _ => true

def allHaveValues : List Toml → Bool
  | [] => true
  | t :: rest => t.hasValue && allHaveValues rest

def membersHaveValues : List (String × Toml) → Bool
  | [] => true
  | (_, t) :: rest => t.hasValue && membersHaveValues rest

end

/-- The fields of a structure by name. What else is in the table must have a value. An array may
stand for the table that begins with all fields in order; nobody looks at the rest of it. -/
def fields? (names : List String) : Toml → Option (List (Option Toml))
  | .table _ entries =>
    if membersHaveValues (entries.filter fun e => !names.contains e.1) then
      some (names.map fun name => entries.lookup name)
    else none
  | .array items =>
    if names.length ≤ items.length then some ((items.take names.length).map some) else none
  | .tables last earlier =>
    let items := (earlier.reverse ++ [.table .header last])
    if names.length ≤ items.length then some ((items.take names.length).map some) else none
  | _ => none

end Toml
end DiscGraphics
