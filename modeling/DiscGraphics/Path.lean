/-!
File paths as texts. A path is read as a list of steps between slashes: blank steps and the step `.`
count for nothing, except a `.` that opens a relative path.
-/
namespace DiscGraphics.Path

/-- The pieces of a text between the occurrences of a character. -/
def pieces (sep : Char) : List Char → List (List Char)
  | [] => [[]]
  | c :: cs =>
    if c = sep then [] :: pieces sep cs
    else
      match pieces sep cs with
      | [] => [[c]]
      | p :: ps => (c :: p) :: ps

def isAbsolute (p : String) : Bool := p.toList.head? == some '/'

/-- Whether a path holds a zero character, which no name may. -/
def hasZero (p : String) : Bool := p.toList.contains (Char.ofNat 0)

def leads (step : String) : Bool := step != "" && step != "."

/-- All texts between the slashes of a path. -/
def split (p : String) : List String := (pieces '/' p.toList).map String.ofList

def steps (p : String) : List String :=
  match split p with
  | [] => []
  | s :: rest => (if s == "" then [] else [s]) ++ rest.filter leads

/-- The path that leads to where a path's last step begins, if it has a step. -/
def parent? (p : String) : Option String :=
  match steps p with
  | [] => none
  | all => some ((if isAbsolute p then "/" else "") ++ "/".intercalate all.dropLast)

/-- The name that a path ends in. A path that ends in `.` or `..` has none. -/
def fileName? (p : String) : Option String :=
  match (steps p).getLast? with
  | none => none
  | some name => if name = "." ∨ name = ".." then none else some name

/-- A name without its extension: what stands before the last dot, if anything does. -/
def stem (name : String) : String :=
  let before := ((name.toList.reverse.dropWhile (· != '.')).drop 1).reverse
  if before = [] then name else String.ofList before

def fileStem? (p : String) : Option String := (fileName? p).map stem

/-- A path followed from another one. An absolute path needs no start. -/
def join (base p : String) : String :=
  if isAbsolute p then p
  else if base.toList.getLast?.all (· == '/') then base ++ p
  else base ++ "/" ++ p

end DiscGraphics.Path
