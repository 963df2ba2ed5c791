import DiscGraphics.Toml.Number

/-! The dates and times of TOML. Only their form matters here. -/
namespace DiscGraphics.Toml

def fixed? (n : Nat) (cs : List Char) : Taken Nat :=
  let digits := cs.take n
  if digits.length = n ∧ digits.all Char.isDigit then some (valueOf 10 digits, cs.drop n) else none

def daysIn (year month : Nat) : Nat :=
  if month = 2 then if (year % 4 = 0 ∧ year % 100 ≠ 0) ∨ year % 400 = 0 then 29 else 28
  else if month = 4 ∨ month = 6 ∨ month = 9 ∨ month = 11 then 30
  else 31

def date? (cs : List Char) : Option (List Char) := do
  let (year, cs) ← fixed? 4 cs
  let cs ← if cs.head? = some '-' then some (cs.drop 1) else none
  let (month, cs) ← fixed? 2 cs
  let cs ← if cs.head? = some '-' then some (cs.drop 1) else none
  let (day, cs) ← fixed? 2 cs
  if 1 ≤ month ∧ month ≤ 12 ∧ 1 ≤ day ∧ day ≤ daysIn year month then some cs else none

def hours? (cs : List Char) : Option (List Char) := do
  let (hour, cs) ← fixed? 2 cs
  let cs ← if cs.head? = some ':' then some (cs.drop 1) else none
  let (minute, cs) ← fixed? 2 cs
  if hour ≤ 23 ∧ minute ≤ 59 then some cs else none

/-- What follows seconds, which may have a fraction. The sixtieth can be a leap second. -/
def seconds? (cs : List Char) : Option (List Char) := do
  let (second, cs) ← fixed? 2 cs
  if 60 < second then none
  else
    match cs with
    | '.' :: rest =>
      if (rest.takeWhile Char.isDigit).isEmpty then none else some (rest.dropWhile Char.isDigit)
    | rest => some rest

/-- What follows a time of day, which may have seconds. -/
def time? (cs : List Char) : Option (List Char) := do
  match ← hours? cs with
  | ':' :: rest => seconds? rest
  | rest => some rest

/-- Whether nothing or a distance from universal time is left. -/
def isZone : List Char → Bool
  | [] => true
  | ['Z'] => true
  | ['z'] => true
  | '+' :: rest => hours? rest == some []
  | '-' :: rest => hours? rest == some []
  | _ => false

/-- A date, a time of day, or both with or without a zone. -/
def isDateTime (cs : List Char) : Bool :=
  time? cs == some [] ||
    match date? cs with
    | some [] => true
    | some (c :: rest) =>
      (c == 'T' || c == 't' || c == ' ') &&
        match time? rest with
        | some zone => isZone zone
        | none => false
    | none => false

/-- A character that ends a word outside quotes. -/
def endsWord (c : Char) : Bool :=
  isBlank c || c == '\r' || c == '\n' || c == '#' || c == ',' || c == '=' || c == '[' || c == ']' ||
    c == '\x7b' || c == '\x7d'

/-- A word; one blank may stand between a date and a time. -/
def word (cs : List Char) : List Char × List Char :=
  let first := cs.takeWhile (!endsWord ·)
  match cs.drop first.length with
  | ' ' :: rest =>
    if date? first = some [] ∧ rest.head?.any Char.isDigit then
      (first ++ ' ' :: rest.takeWhile (!endsWord ·), rest.dropWhile (!endsWord ·))
    else (first, ' ' :: rest)
  | rest => (first, rest)

end DiscGraphics.Toml
