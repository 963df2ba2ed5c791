/-!
The values of JSON and the tokens a JSON text is made of. Of a number only a whole one of at most
twenty digits is kept, and no string in which half of a surrogate pair is escaped.
-/
namespace DiscGraphics

inductive Json where
  | null
  | bool (b : Bool)
  | natural (n : Nat)
  | otherNumber
  | text (t : Option String)
  | array (items : List Json)
  | object (members : List (Option String × Json))
  deriving Repr, Inhabited

namespace Json

inductive Token where
  | openArray
  | closeArray
  | openObject
  | closeObject
  | comma
  | colon
  /-- A value that is neither an array nor an object. -/
  | atom (value : Json)
  deriving Repr

def isBlank (c : Char) : Bool := c == ' ' || c == '\t' || c == '\n' || c == '\r'

def punctuation? : Char → Option Token
  | '[' => some .openArray
  | ']' => some .closeArray
  | '\x7b' => some .openObject
  | '\x7d' => some .closeObject
  | ',' => some .comma
  | ':' => some .colon
  | _ => none

def hexDigit? (c : Char) : Option Nat :=
  if '0' ≤ c ∧ c ≤ '9' then some (c.toNat - 48)
  else if 'a' ≤ c ∧ c ≤ 'f' then some (c.toNat - 87)
  else if 'A' ≤ c ∧ c ≤ 'F' then some (c.toNat - 55)
  else none

def hexWord? (a b c d : Char) : Option Nat := do
  let a ← hexDigit? a
  let b ← hexDigit? b
  let c ← hexDigit? c
  let d ← hexDigit? d
  some (((a * 16 + b) * 16 + c) * 16 + d)

/-- The character an escape of one letter stands for. -/
def escaped? : Char → Option Char
  | '"' => some '"'
  | '\\' => some '\\'
  | '/' => some '/'
  | 'b' => some '\x08'
  | 'f' => some '\x0c'
  | 'n' => some '\n'
  | 'r' => some '\r'
  | 't' => some '\t'
  | _ => none

/-- The text between the quotes as it is written, and what follows the closing quote. Control
characters may not stand in a string. -/
def quoted (body : List Char) : List Char → Option (List Char × List Char)
  | [] => none
  | '"' :: rest => some (body.reverse, rest)
  | '\\' :: c :: rest => quoted (c :: '\\' :: body) rest
  | c :: rest => if c.toNat < 32 then none else quoted (c :: body) rest

def joinHalves (high low : Nat) : Char :=
  Char.ofNat (0x10000 + (high - 0xD800) * 0x400 + (low - 0xDC00))

/-- What a written string stands for. The outer answer is missing if an escape is not one, the inner
one if an escape names half a pair. `high` is the first half of a pair that was just read. -/
def unescape (out : List Char) (whole : Bool) (high : Option Nat) :
    List Char → Option (Option String)
  | [] => some (if whole && high.isNone then some (String.ofList out.reverse) else none)
  | '\\' :: 'u' :: a :: b :: c :: d :: rest =>
    match hexWord? a b c d with
    | none => none
    | some n =>
      if 0xD800 ≤ n ∧ n < 0xDC00 then unescape out (whole && high.isNone) (some n) rest
      else if 0xDC00 ≤ n ∧ n < 0xE000 then
        match high with
        | some h => unescape (joinHalves h n :: out) whole none rest
        | none => unescape out false none rest
      else unescape (Char.ofNat n :: out) (whole && high.isNone) none rest
  | '\\' :: c :: rest =>
    match escaped? c with
    | some c => unescape (c :: out) (whole && high.isNone) none rest
    | none => none
  | c :: rest => unescape (c :: out) (whole && high.isNone) none rest

def unescape? (body : List Char) : Option (Option String) := unescape [] true none body

/-- The digits of a whole number: no zero stands before others. -/
def isWhole (digits : List Char) : Bool :=
  match digits with
  | [] => false
  | ['0'] => true
  | c :: rest => c != '0' && c.isDigit && rest.all Char.isDigit

def isDigits (cs : List Char) : Bool := !cs.isEmpty && cs.all Char.isDigit

/-- Nothing, or an exponent with or without a sign. -/
def isExponent : List Char → Bool
  | [] => true
  | c :: rest =>
    (c == 'e' || c == 'E') &&
      match rest with
      | '+' :: digits | '-' :: digits => isDigits digits
      | digits => isDigits digits

def isTail : List Char → Bool
  | '.' :: rest =>
    !(rest.takeWhile Char.isDigit).isEmpty && isExponent (rest.dropWhile Char.isDigit)
  | rest => isExponent rest

/-- The number that a run of its characters spells. -/
def number? (cs : List Char) : Option Json :=
  if isWhole cs then
    some (if cs.length ≤ 20 then .natural (Nat.ofDigitChars 10 cs 0) else .otherNumber)
  else
    let cs := match cs with
      | '-' :: rest => rest
      | all => all
    if isWhole (cs.takeWhile Char.isDigit) && isTail (cs.dropWhile Char.isDigit) then
      some .otherNumber
    else none

def inNumber (c : Char) : Bool :=
  c.isDigit || c == '-' || c == '+' || c == '.' || c == 'e' || c == 'E'

def word? (cs : List Char) : Option Json :=
  match cs with
  | ['n', 'u', 'l', 'l'] => some .null
  | ['t', 'r', 'u', 'e'] => some (.bool true)
  | ['f', 'a', 'l', 's', 'e'] => some (.bool false)
  | _ => none

theorem length_of_quoted {body cs out rest : List Char} (h : quoted body cs = some (out, rest)) :
    rest.length < cs.length := by
  fun_induction quoted body cs with
  | case1 => cases h
  | case2 =>
    cases h
    simp
  | case3 _ _ _ ih =>
    have := ih h
    simp only [List.length_cons]
    omega
  | case4 => cases h
  | case5 _ _ _ _ _ _ ih =>
    have := ih h
    simp only [List.length_cons]
    omega

theorem length_dropWhile_le {p : Char → Bool} (cs : List Char) :
    (cs.dropWhile p).length ≤ cs.length :=
  (List.dropWhile_sublist p).length_le

/-- The tokens of a text, after those already found, which are kept last first. -/
def tokens (found : List Token) (cs : List Char) : Option (List Token) :=
  match cs with
  | [] => some found.reverse
  | c :: rest =>
    if isBlank c then tokens found rest
    else
      match punctuation? c with
      | some t => tokens (t :: found) rest
      | none =>
        if c = '"' then
          match _h : quoted [] rest with
          | none => none
          | some (body, rest') =>
            match unescape? body with
            | none => none
            | some t => tokens (.atom (.text t) :: found) rest'
        else if inNumber c then
          match number? (c :: rest.takeWhile inNumber) with
          | none => none
          | some v => tokens (.atom v :: found) (rest.dropWhile inNumber)
        else
          match word? (c :: rest.takeWhile Char.isLower) with
          | none => none
          | some v => tokens (.atom v :: found) (rest.dropWhile Char.isLower)
termination_by cs.length
decreasing_by
  · simp
  · simp
  · exact Nat.lt_trans (length_of_quoted (by assumption)) (by simp)
  · exact Nat.lt_of_le_of_lt (length_dropWhile_le rest) (by simp)
  · exact Nat.lt_of_le_of_lt (length_dropWhile_le rest) (by simp)

end Json
end DiscGraphics
