/-!
The parts of a TOML text between its values, and those in quotes: blanks, comments, strings, keys.
Each reader takes what it can from the front of a text and gives back the rest.
-/
namespace DiscGraphics.Toml

/-- What a reader of a part answers: the part and the rest of the text. -/
abbrev Taken (α : Type) := Option (α × List Char)

def isBlank (c : Char) : Bool := c == ' ' || c == '\t'

def isControl (c : Char) : Bool := (c.toNat < 32 && c != '\t') || c.toNat == 127

def skipBlanks (cs : List Char) : List Char := cs.dropWhile isBlank

theorem length_skipBlanks_le (cs : List Char) : (skipBlanks cs).length ≤ cs.length :=
  (List.dropWhile_sublist _).length_le

def newline? : List Char → Option (List Char)
  | '\n' :: rest => some rest
  | '\r' :: '\n' :: rest => some rest
  | _ => none

theorem length_lt_of_newline {cs rest : List Char} (h : newline? cs = some rest) :
    rest.length < cs.length := by
  unfold newline? at h
  split at h
  · cases h
    simp
  · cases h
    simp only [List.length_cons]
    omega
  · cases h

def comment? : List Char → Option (List Char)
  | '#' :: rest =>
    let after := rest.dropWhile fun c => !isControl c
    match after with
    | [] => some []
    | _ => if (newline? after).isSome then some after else none
  | _ => none

/-- What follows blanks and perhaps a comment; no other control character may stand there. -/
def skipComment (cs : List Char) : Option (List Char) :=
  match skipBlanks cs with
  | '#' :: rest => comment? ('#' :: rest)
  | rest => some rest

theorem length_le_of_comment {cs rest : List Char} (h : comment? cs = some rest) :
    rest.length ≤ cs.length := by
  unfold comment? at h
  split at h
  · next r =>
    have := (List.dropWhile_sublist (l := r) fun c => !isControl c).length_le
    dsimp only at h
    split at h
    · cases h
      simp
    · split at h
      · cases h
        simp only [List.length_cons]
        omega
      · cases h
  · cases h

theorem length_le_of_skipComment {cs rest : List Char} (h : skipComment cs = some rest) :
    rest.length ≤ cs.length := by
  have hb := length_skipBlanks_le cs
  unfold skipComment at h
  split at h
  · next e =>
    have := length_le_of_comment h
    rw [← e] at this
    omega
  · next e =>
    cases h
    exact hb

/-- What follows blanks, comments and line ends. -/
def skipLines (cs : List Char) : Option (List Char) :=
  match _h : skipComment cs with
  | none => none
  | some rest =>
    match _h' : newline? rest with
    | some rest' => skipLines rest'
    | none => some rest
termination_by cs.length
decreasing_by exact Nat.lt_of_lt_of_le (length_lt_of_newline _h') (length_le_of_skipComment _h)

/-- What follows the end of a line, which the end of the text is, too. -/
def endOfLine (cs : List Char) : Option (List Char) :=
  match skipComment cs with
  | none => none
  | some [] => some []
  | some rest => newline? rest

def isBare (c : Char) : Bool := c.isAlphanum || c == '_' || c == '-'

def hexDigit? (c : Char) : Option Nat :=
  if '0' ≤ c ∧ c ≤ '9' then some (c.toNat - 48)
  else if 'a' ≤ c ∧ c ≤ 'f' then some (c.toNat - 87)
  else if 'A' ≤ c ∧ c ≤ 'F' then some (c.toNat - 55)
  else none

/-- The character whose number is written in hexadecimal digits, if it is one. -/
def charOfHex? (digits : List Char) : Option Char := do
  let values ← digits.mapM hexDigit?
  let n := values.foldl (fun n d => n * 16 + d) 0
  if n < 0xD800 ∨ (0xDFFF < n ∧ n < 0x110000) then some (Char.ofNat n) else none

/-- The character that an escape stands for, without the backslash before it. -/
def escape? : List Char → Taken Char
  | 'b' :: rest => some ('\x08', rest)
  | 't' :: rest => some ('\t', rest)
  | 'n' :: rest => some ('\n', rest)
  | 'f' :: rest => some ('\x0c', rest)
  | 'r' :: rest => some ('\r', rest)
  | 'e' :: rest => some ('\x1b', rest)
  | '"' :: rest => some ('"', rest)
  | '\\' :: rest => some ('\\', rest)
  | 'x' :: a :: b :: rest => (charOfHex? [a, b]).map (·, rest)
  | 'u' :: a :: b :: c :: d :: rest => (charOfHex? [a, b, c, d]).map (·, rest)
  | 'U' :: a :: b :: c :: d :: e :: f :: g :: h :: rest =>
    (charOfHex? [a, b, c, d, e, f, g, h]).map (·, rest)
  | _ => none

theorem length_le_of_escape {cs rest : List Char} {c : Char} (h : escape? cs = some (c, rest)) :
    rest.length ≤ cs.length := by
  unfold escape? at h
  split at h
  case h_12 => cases h
  case h_9 | h_10 | h_11 =>
    obtain ⟨_, _, e⟩ := Option.map_eq_some_iff.mp h
    cases e
    simp only [List.length_cons]
    omega
  all_goals
    cases h
    simp

def skipSpace : List Char → List Char
  | '\n' :: rest => skipSpace rest
  | '\r' :: '\n' :: rest => skipSpace rest
  | ' ' :: rest => skipSpace rest
  | '\t' :: rest => skipSpace rest
  | rest => rest

theorem length_skipSpace_le (cs : List Char) : (skipSpace cs).length ≤ cs.length := by
  fun_induction skipSpace cs with
  | case1 | case2 | case3 | case4 =>
    simp only [List.length_cons]
    omega
  | case5 => exact Nat.le_refl _

/-- A string of one line in double quotes, after the first of them. -/
def basic (out cs : List Char) : Taken String :=
  match cs with
  | [] => none
  | '"' :: rest => some (String.ofList out.reverse, rest)
  | '\\' :: rest =>
    match _h : escape? rest with
    | some (c, rest') => basic (c :: out) rest'
    | none => none
  | c :: rest => if isControl c then none else basic (c :: out) rest
termination_by cs.length
decreasing_by
  · exact Nat.lt_succ_of_le (length_le_of_escape _h)
  · simp

/-- A string of one line in single quotes, after the first of them. -/
def literal (cs : List Char) : Taken String :=
  let body := cs.takeWhile fun c => c != '\'' && !isControl c
  match cs.drop body.length with
  | '\'' :: rest => some (String.ofList body, rest)
  | _ => none

/-- A run of quotes inside a string of several lines, after the first of them: fewer than three
belong to the text, and up to two may stand before the three that close it. -/
def quoteRun (quote : Char) (out cs : List Char) : Option (List Char × Bool × List Char) :=
  let more := (cs.takeWhile (· == quote)).length
  let rest := cs.drop more
  if more < 2 then some (List.replicate (more + 1) quote ++ out, false, rest)
  else if more ≤ 4 then some (List.replicate (more - 2) quote ++ out, true, rest)
  else none

theorem length_le_of_quoteRun {quote : Char} {out out' cs rest : List Char} {closed : Bool}
    (h : quoteRun quote out cs = some (out', closed, rest)) : rest.length ≤ cs.length := by
  unfold quoteRun at h
  dsimp only at h
  split at h
  · cases h
    simp
  · split at h
    · cases h
      simp
    · cases h

/-- A backslash at the end of a line takes the line end and all blanks after it away. -/
def lineContinuation? (cs : List Char) : Option (List Char) :=
  (newline? (skipBlanks cs)).map skipSpace

theorem length_le_of_lineContinuation {cs rest : List Char}
    (h : lineContinuation? cs = some rest) : rest.length ≤ cs.length := by
  obtain ⟨r, hr, rfl⟩ := Option.map_eq_some_iff.mp h
  have h₁ := length_skipSpace_le r
  have h₂ := length_lt_of_newline hr
  have h₃ := length_skipBlanks_le cs
  omega

/-- A string of several lines after the quotes that open it. -/
def multiline (quote : Char) (out cs : List Char) : Taken String :=
  match cs with
  | [] => none
  | '\r' :: '\n' :: rest => multiline quote ('\n' :: '\r' :: out) rest
  | c :: rest =>
    if c = quote then
      match _h : quoteRun quote out rest with
      | some (out', true, rest') => some (String.ofList out'.reverse, rest')
      | some (out', false, rest') => multiline quote out' rest'
      | none => none
    else if c = '\\' ∧ quote = '"' then
      match _h : lineContinuation? rest with
      | some rest' => multiline quote out rest'
      | none =>
        match _h' : escape? rest with
        | some (c, rest') => multiline quote (c :: out) rest'
        | none => none
    else if c = '\n' ∨ !isControl c then multiline quote (c :: out) rest
    else none
termination_by cs.length
decreasing_by
  · simp only [List.length_cons]
    omega
  · exact Nat.lt_succ_of_le (length_le_of_quoteRun _h)
  · exact Nat.lt_succ_of_le (length_le_of_lineContinuation _h)
  · exact Nat.lt_succ_of_le (length_le_of_escape _h')
  · simp

/-- A line end right after the opening quotes is not part of the text. -/
def trimFirst (cs : List Char) : List Char := (newline? cs).getD cs

def string? (cs : List Char) : Taken String :=
  match cs with
  | '"' :: '"' :: '"' :: rest => multiline '"' [] (trimFirst rest)
  | '\'' :: '\'' :: '\'' :: rest => multiline '\'' [] (trimFirst rest)
  | '"' :: rest => basic [] rest
  | '\'' :: rest => literal rest
  | _ => none

/-- One part of a key: bare, or a string of one line. -/
def simpleKey? (cs : List Char) : Taken String :=
  match cs with
  | '"' :: rest => basic [] rest
  | '\'' :: rest => literal rest
  | _ =>
    match cs.takeWhile isBare with
    | [] => none
    | name => some (String.ofList name, cs.dropWhile isBare)

/-- At most so many parts of a key with dots between them, blanks allowed around each. -/
def keyParts? : Nat → List Char → Taken (List String)
  | 0, _ => none
  | limit + 1, cs =>
    match simpleKey? (skipBlanks cs) with
    | none => none
    | some (part, rest) =>
      match skipBlanks rest with
      | '.' :: rest => (keyParts? limit rest).map fun (parts, rest) => (part :: parts, rest)
      | rest => some ([part], rest)

/-- Nothing may be nested deeper: neither arrays and tables in braces nor the tables of one key. -/
def maxDepth : Nat := 80

def key? (cs : List Char) : Taken (List String) := keyParts? maxDepth cs

end DiscGraphics.Toml
