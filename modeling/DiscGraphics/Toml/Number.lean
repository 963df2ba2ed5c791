import DiscGraphics.Toml.Scalar

/-!
The numbers of TOML. The form of a number is settled where it stands, its value only when somebody
asks for it, so there are numbers without a value.
-/
namespace DiscGraphics.Toml

/-- What a well-formed number amounts to. -/
inductive Numeral where
  | whole (n : Int)
  | fractional
  | valueless
  deriving DecidableEq, Repr

def valueOf (base : Nat) (digits : List Char) : Nat :=
  digits.foldl (fun n c => n * base + (hexDigit? c).getD 0) 0

def isDigitOf (base : Nat) (c : Char) : Bool := (hexDigit? c).any (· < base)

/-- Every underscore stands between two digits. `before` tells whether a digit was just passed. -/
def spaced (isDigit : Char → Bool) (before : Bool) : List Char → Bool
  | [] => true
  | c :: rest =>
    if c = '_' then before && rest.head?.any isDigit && spaced isDigit false rest
    else spaced isDigit (isDigit c) rest

def withoutUnderscores (cs : List Char) : List Char := cs.filter (· != '_')

def zeroLed (cs : List Char) : Bool := cs.head? == some '0' && cs.length != 1

def withoutLeadingZeros (cs : List Char) : List Char := cs.dropWhile (· == '0')

/-- A whole number has 128 bits, one of them for its sign if it is negative. No base has a number
of more than 128 digits among them. -/
def ofDigits (base : Nat) (negative : Bool) (cs : List Char) : Numeral :=
  let digits := withoutUnderscores cs
  let leading := withoutLeadingZeros digits
  let size := valueOf base (leading.take 129)
  if digits.isEmpty || !digits.all (isDigitOf base) || 128 < leading.length then .valueless
  else if negative then if size ≤ Nat.pow 2 127 then .whole (-size) else .valueless
  else if size < Nat.pow 2 128 then .whole size else .valueless

/-- A whole number in a base that is written in front of it. -/
def based? (base : Nat) (cs : List Char) : Option Numeral :=
  if cs.all (fun c => c == '_' || isDigitOf base c) && spaced (isDigitOf base) false cs then
    some (ofDigits base false cs)
  else none

/-- A whole number in base 10. What follows an underscore is only looked at up to the next one. -/
def decimal? (negative : Bool) (cs : List Char) : Option Numeral :=
  if zeroLed cs || !spaced (isDigitOf 16) false cs then none
  else some (ofDigits 10 negative cs)

/-- Decimal digits, single underscores allowed between two of them. -/
def digits? (cs : List Char) : Option (List Char) :=
  let digits := withoutUnderscores cs
  if !digits.isEmpty && digits.all Char.isDigit && spaced Char.isDigit false cs then some digits
  else none

/-- The least number that is rounded to infinity in 64 bits: it lies halfway between `2 ^ 1024` and
the largest number of 53 binary digits below. -/
def infinityBound : Nat := Nat.pow 2 1024 - Nat.pow 2 970

/-- Whether decimal digits, the last of which counts as much as a power of ten, are too large a
number. Numbers of 309 digits before the point need a closer look, the others do not; what stands
after the point cannot matter, because the bound is whole. -/
def overflows (digits : List Char) (power : Int) : Bool :=
  let digits := withoutLeadingZeros digits
  let leading : Int := digits.length + power
  if digits.isEmpty || leading < 309 then false
  else if 309 < leading then true
  else decide (infinityBound ≤ valueOf 10 (digits.take 309) * Nat.pow 10 (309 - digits.length))

def unsigned : List Char → List Char
  | '+' :: rest => rest
  | '-' :: rest => rest
  | cs => cs

/-- The size of a power of ten. Its digits are read until they make `2 ^ 16` or more; those left are
passed over. -/
def powerOf (digits : List Char) : Nat :=
  digits.foldl (fun n c => if n < UInt16.size then n * 10 + (hexDigit? c).getD 0 else n) 0

/-- The power of ten after its mark. No mark means the power zero. -/
def exponent? : List Char → Option Int
  | [] => some 0
  | _ :: cs => (digits? (unsigned cs)).map fun ds =>
    if cs.head? = some '-' then -(powerOf ds : Int) else powerOf ds

/-- The digits after the point. No point means no digits. -/
def fraction? : List Char → Option (List Char)
  | [] => some []
  | _ :: cs => digits? cs

def isMark (c : Char) : Bool := c == 'e' || c == 'E'

/-- A number with a point, an exponent or both. -/
def fractional? (cs : List Char) : Option Numeral := do
  let mantissa := cs.takeWhile (!isMark ·)
  let whole := mantissa.takeWhile (· != '.')
  let digits ← digits? whole
  let fraction ← fraction? (mantissa.drop whole.length)
  let power ← exponent? (cs.drop mantissa.length)
  if zeroLed digits then none
  else if overflows (digits ++ fraction) (power - fraction.length) then some .valueless
  else some .fractional

/-- A number without its sign. A base is only named for a number without one. -/
def unsignedNumeral? (signed negative : Bool) (cs : List Char) : Option Numeral :=
  match cs with
  | ['i', 'n', 'f'] | ['n', 'a', 'n'] => some .fractional
  | '0' :: 'x' :: rest => if signed then none else based? 16 rest
  | '0' :: 'o' :: rest => if signed then none else based? 8 rest
  | '0' :: 'b' :: rest => if signed then none else based? 2 rest
  | _ =>
    let rest := cs.dropWhile Char.isDigit
    if !cs.head?.any Char.isDigit then none
    else if rest.any fun c => c == '.' || isMark c then fractional? cs
    else if rest.isEmpty || rest.head? == some '_' then decimal? negative cs
    else none

def numeral? (cs : List Char) : Option Numeral :=
  let body := unsigned cs
  unsignedNumeral? (body.length != cs.length) (cs.head? == some '-') body

end DiscGraphics.Toml
