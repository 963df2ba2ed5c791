import DiscGraphics.Toml.Scalar

/-! Writing a text as a TOML string. -/
namespace DiscGraphics.Toml

/-- A character that stands for itself in double quotes, or its escape. -/
def escapeChar (c : Char) : List Char :=
  if c = '"' then ['\\', '"']
  else if c = '\\' then ['\\', '\\']
  else if c = '\x08' then ['\\', 'b']
  else if c = '\t' then ['\\', 't']
  else if c = '\n' then ['\\', 'n']
  else if c = '\x0c' then ['\\', 'f']
  else if c = '\r' then ['\\', 'r']
  else if isControl c then
    let digit (n : Nat) : Char := (Nat.digitChar n).toUpper
    ['\\', 'u', '0', '0', digit (c.toNat / 16), digit (c.toNat % 16)]
  else [c]

/-- The body of a string of several lines in double quotes. Line ends stand for themselves, and so
do double quotes, of which no three may follow each other; `run` counts those just written. -/
def escapeLines (run : Nat) : List Char → List Char
  | [] => []
  | c :: rest =>
    if c = '\n' then c :: escapeLines 0 rest
    else if c = '"' ∧ run < 2 then c :: escapeLines (run + 1) rest
    else escapeChar c ++ escapeLines 0 rest

def longestRun (c : Char) (cs : List Char) : Nat :=
  (cs.foldl (fun (longest, run) d =>
    let run := if d = c then run + 1 else 0
    (max longest run, run)) (0, 0)).1

inductive QuoteStyle where
  | basic
  | literal
  | basicLines
  | literalLines
  deriving DecidableEq, Repr

/-- The first kind that takes a text as it is, but for tabs; failing all, one with escapes. -/
def quoteStyle (cs : List Char) : QuoteStyle :=
  let lines := cs.contains '\n'
  let control := cs.any fun c => c != '\n' && isControl c
  let slash := cs.contains '\\'
  let double := longestRun '"' cs
  let single := longestRun '\'' cs
  if !control && !slash && double == 0 && !lines then .basic
  else if !control && single == 0 && !lines then .literal
  else if !control && !slash && double ≤ 2 then .basicLines
  else if !control && single ≤ 2 then .literalLines
  else if lines then .basicLines
  else .basic

/-- A text as a string. One of several lines begins on a line of its own. -/
def quote (s : String) : String :=
  let cs := s.toList
  let opening := if cs.contains '\n' then "\n" else ""
  match quoteStyle cs with
  | .basic => "\"" ++ String.ofList (cs.flatMap escapeChar) ++ "\""
  | .literal => "'" ++ s ++ "'"
  | .basicLines => "\"\"\"" ++ opening ++ String.ofList (escapeLines 0 cs) ++ "\"\"\""
  | .literalLines => "'''" ++ opening ++ s ++ "'''"

end DiscGraphics.Toml
