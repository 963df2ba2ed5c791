/-!
The words that a development task is asked for with: the name of a task, then its flags, options and
operands in any order. After a lone `--` every word is an operand.
-/
namespace DiscGraphics.Tasks

structure Usage where
  flags : List String := []
  hasOutput : Bool := false
  hasPath : Bool := false
  deriving DecidableEq, Repr

structure Said where
  flags : List String := []
  output : Option String := none
  path : Option String := none
  deriving DecidableEq, Repr

namespace Said

def flag (s : Said) (name : String) : Bool := s.flags.contains name

end Said

/-- Why no task is run. -/
inductive Refusal where
  | misuse
  | help
  deriving DecidableEq, Repr

/-- A word that could begin an option stands for no value. -/
def isOption (word : List Char) : Bool :=
  match word with
  | '-' :: _ :: _ => true
  | _ => false

def takeOperand (u : Usage) (s : Said) (word : List Char) : Except Refusal Said :=
  if u.hasPath && s.path.isNone then .ok { s with path := some (String.ofList word) }
  else .error .misuse

def takeOutput (u : Usage) (s : Said) (value : List Char) : Except Refusal Said :=
  if u.hasOutput && s.output.isNone then .ok { s with output := some (String.ofList value) }
  else .error .misuse

/-- Take a flag, which may be given once. -/
def takeFlag (u : Usage) (s : Said) (name : List Char) : Except Refusal Said :=
  let name := String.ofList name
  if u.flags.contains name && !s.flag name then .ok { s with flags := s.flags ++ [name] }
  else .error .misuse

/-- Take words in order; the last argument but one tells whether `--` has come. -/
def takeWords (u : Usage) (s : Said) (operandsOnly : Bool) :
    List (List Char) → Except Refusal Said
  | [] => .ok s
  | word :: rest =>
    if operandsOnly then do
      let s ← takeOperand u s word
      takeWords u s true rest
    else if word == ['-', '-'] then takeWords u s true rest
    else
      match word with
      | '-' :: '-' :: long =>
        let name := long.takeWhile (· != '=')
        match long.drop name.length with
        | '=' :: value =>
          if name == "output".toList then do
            let s ← takeOutput u s value
            takeWords u s false rest
          else .error .misuse
        | _ =>
          if name == "help".toList then .error .help
          else if name == "output".toList && u.hasOutput then takeValue u s rest
          else do
            let s ← takeFlag u s name
            takeWords u s false rest
      | '-' :: 'h' :: _ => .error .help
      | ['-', 'o'] => takeValue u s rest
      | '-' :: 'o' :: '=' :: value => do
        let s ← takeOutput u s value
        takeWords u s false rest
      | '-' :: 'o' :: value => do
        let s ← takeOutput u s value
        takeWords u s false rest
      | word =>
        if isOption word then .error .misuse
        else do
          let s ← takeOperand u s word
          takeWords u s false rest
where
  /-- The output option's value is the next word. -/
  takeValue (u : Usage) (s : Said) : List (List Char) → Except Refusal Said
    | [] => .error .misuse
    | value :: rest =>
      if isOption value then .error .misuse
      else do
        let s ← takeOutput u s value
        takeWords u s false rest

inductive Task where
  | ci (verbose : Bool)
  | check (verbose : Bool)
  | format (check : Bool)
  | lint (fix : Bool)
  | build (release : Bool)
  | test (doc ignored : Bool) (modules : List (String × String))
  | bench
  | decode (path : String) (output : Option String) (release : Bool)
  | preCommit
  | installHooks
  deriving DecidableEq, Repr

/-- What each task understands, by its name. -/
def usages : List (String × Usage) :=
  [("ci", { flags := ["verbose"] }),
    ("check", { flags := ["verbose"] }),
    ("fmt", { flags := ["check"] }),
    ("clippy", { flags := ["fix"] }),
    ("build", { flags := ["release"] }),
    ("test", { flags := ["doc", "ignored", "packet", "canvas", "instructions", "decoder"] }),
    ("bench", {}),
    ("decode", { flags := ["release"], hasOutput := true, hasPath := true }),
    ("pre-commit", {}),
    ("install-hooks", {})]

/-- The parts of the library that can be tested alone: their flag and their title. -/
def testModules : List (String × String) :=
  [("packet", "Packet"), ("canvas", "Canvas"), ("instructions", "Instruction"),
    ("decoder", "Decoder")]

/-- The task of a name, from what was said. -/
def taskOf (name : String) (s : Said) : Except Refusal Task :=
  match name with
  | "ci" => .ok (.ci (s.flag "verbose"))
  | "check" => .ok (.check (s.flag "verbose"))
  | "fmt" => .ok (.format (s.flag "check"))
  | "clippy" => .ok (.lint (s.flag "fix"))
  | "build" => .ok (.build (s.flag "release"))
  | "test" =>
    .ok (.test (s.flag "doc") (s.flag "ignored") (testModules.filter fun m => s.flag m.1))
  | "bench" => .ok .bench
  | "decode" =>
    match s.path with
    | some path => .ok (.decode path s.output (s.flag "release"))
    | none => .error .misuse
  | "pre-commit" => .ok .preCommit
  | "install-hooks" => .ok .installHooks
  | _ => .error .misuse

def parse (words : List String) : Except Refusal Task :=
  match words with
  | [] => .error .misuse
  | name :: rest =>
    if name = "-h" ∨ name = "--help" then .error .help
    else if name = "help" then
      match rest with
      | [] => .error .help
      | topic :: more =>
        if more.isEmpty && (topic == "help" || (usages.lookup topic).isSome) then .error .help
        else .error .misuse
    else
      match usages.lookup name with
      | none => .error .misuse
      | some u =>
        match takeWords u {} false (rest.map String.toList) with
        | .error e => .error e
        | .ok s => taskOf name s

end DiscGraphics.Tasks
