import DiscGraphics.CommandLine
import DiscGraphics.Tasks.Arguments

/-!
Running development tasks: each starts the build tool with arguments, says how it went and ends with
the first failure.
-/
namespace DiscGraphics

class BuildTool (m : Type → Type) where
  start : List String → m (Except HostError Nat)

class Stopwatch (m : Type → Type) where
  milliseconds : m Nat

namespace Tasks

inductive Failure where
  | command (status : Nat)
  | decode (status : Nat)
  | modules (names : List String)
  | missingFile
  | host (error : HostError)
  deriving DecidableEq, Repr

def Failure.message : Failure → String
  | .command status => s!"Command failed with exit code: exit status: {status}"
  | .decode status => s!"Decode failed with exit code: exit status: {status}"
  | .modules names => "Module tests failed: " ++ ", ".intercalate names
  | .missingFile => "CD+G file not found"
  | .host e => e.message

variable {m : Type → Type} [Monad m] [Console m] [Files m] [BuildTool m] [Stopwatch m]

abbrev Outcome := Except Failure Unit

def say (line : String) : m Unit := Console.print (line ++ "\n")

/-- Go on after a success only. -/
def andThen (first next : m Outcome) : m Outcome := do
  match ← first with
  | .ok () => next
  | .error e => pure (.error e)

def seconds (ms : Nat) : String :=
  let hundredths := (ms + 5) / 10
  s!"{hundredths / 100}.{padNumber 2 (hundredths % 100)}s"

def execute (args : List String) : m Outcome := do
  match ← BuildTool.start args with
  | .error e => pure (.error (.host e))
  | .ok status => pure (if status = 0 then .ok () else .error (.command status))

def format (check : Bool) : m Outcome :=
  execute (["fmt", "--all"] ++ if check then ["--", "--check"] else [])

def lint (fix : Bool) : m Outcome :=
  execute (["clippy", "--workspace", "--all-targets"]
    ++ if fix then ["--fix"] else ["--", "-D", "warnings"])

def build (release : Bool) : m Outcome :=
  execute (["build"] ++ if release then ["--release"] else [])

/-- Run tests, with the arguments that select them. -/
def runTests (ignored : Bool) (selection : List String) : m Outcome :=
  execute (["test"] ++ selection ++ if ignored then ["--", "--ignored"] else [])

/-- Test parts one after the other, and collect the titles of those that fail. -/
def testEach (ignored : Bool) : List (String × String) → m (List (String × Failure))
  | [] => pure []
  | (name, title) :: rest => do
    say s!"→ Running {title} tests..."
    let outcome ← runTests ignored ["--lib", s!"{name}::"]
    let failed ← match outcome with
      | .ok () => do
        say s!"✓ {title} tests passed\n"
        pure []
      | .error e => do
        say s!"✗ {title} tests failed\n"
        pure [(title, e)]
    let more ← testEach ignored rest
    pure (failed ++ more)

/-- Run the documentation's tests, the tests of some parts, or all tests. A part tested alone fails
with its own failure. -/
def test (doc ignored : Bool) (modules : List (String × String)) : m Outcome := do
  if doc then runTests ignored ["--doc"]
  else if modules.isEmpty then runTests ignored []
  else
    let failed ← testEach ignored modules
    match modules, failed with
    | _, [] => pure (.ok ())
    | [_], (_, e) :: _ => pure (.error e)
    | _, failed => pure (.error (.modules (failed.map (·.1))))

/-- Run a task as a step, and say how it went. -/
def step (title : String) (verbose : Bool) (task : m Outcome) : m Outcome := do
  Console.print s!"→ {title} ... "
  let start ← Stopwatch.milliseconds
  match ← task with
  | .ok () =>
    let stop ← Stopwatch.milliseconds
    say (if verbose then s!"✓ ({seconds (stop - start)})" else "✓ ")
    pure (.ok ())
  | .error e =>
    say "✗"
    pure (.error e)

/-- Run steps in order between a headline and a closing line. -/
def pipeline (headline closing : String) (verbose : Bool) (steps : List (String × m Outcome)) :
    m Outcome := do
  say headline
  let start ← Stopwatch.milliseconds
  andThen (steps.foldr (fun s rest => andThen (step s.1 verbose s.2) rest) (pure (.ok ()))) do
    let stop ← Stopwatch.milliseconds
    say s!"\n{closing} {seconds (stop - start)}"
    pure (.ok ())

def ci (verbose : Bool) : m Outcome :=
  pipeline "=== Running CI Pipeline ===" "✓ CI passed in" verbose
    [("Format Check", format true), ("Clippy", lint false), ("Build", build false),
      ("Test", test false false []), ("Doc Test", test true false [])]

def check (verbose : Bool) : m Outcome :=
  pipeline "=== Running Quick Checks ===" "✓ Checks passed in" verbose
    [("Format Check", format true), ("Clippy", lint false)]

def preCommit : m Outcome :=
  pipeline "=== Pre-commit Checks ===" "✓ Pre-commit checks passed in" false
    [("Format Check", format true), ("Clippy", lint false), ("Test", test false false [])]

/-- Whether a path has the extension of a stream file, in whatever case. -/
def hasExtension (path : String) : Bool :=
  (path.toList.map Char.toLower).reverse.take 4 == ".cdg".toList.reverse

/-- Decode a file with the program, after a look at the file. -/
def decode (path : String) (output : Option String) (release : Bool) : m Outcome := do
  say "=== Decode ==="
  match ← Files.size path with
  | .error _ =>
    say s!"✗ CD+G file not found: {path}"
    pure (.error .missingFile)
  | .ok size =>
    if !hasExtension path then
      say "⚠ File does not have .cdg extension"
    if size % 24 ≠ 0 then
      say s!"⚠ File size {size} is not a multiple of 24; the tail will be ignored"
    say s!"✓ CD+G file: {path}"
    say s!"→ Packets: {size / 24}"
    say ("→ Build mode: " ++ if release then "release" else "debug")
    say ""
    let start ← Stopwatch.milliseconds
    let args := ["run", "--bin", "cdg-rs"] ++ (if release then ["--release"] else [])
      ++ ["--", path] ++ output.toList
    match ← BuildTool.start args with
    | .error e => pure (.error (.host e))
    | .ok status =>
      if status = 0 then
        let stop ← Stopwatch.milliseconds
        say s!"\n✓ Decoded in {seconds (stop - start)}"
        pure (.ok ())
      else
        say "\n✗ Decode failed"
        pure (.error (.decode status))

def hook : String :=
  "#!/bin/sh\n# Auto-generated by cargo x install-hooks\nset -e\n\n"
    ++ "echo \"Running pre-commit checks...\"\ncargo x pre-commit\n"

/-- Write the hook to its place and make it executable. -/
def installHooks : m Outcome := do
  let path := ".git/hooks/pre-commit"
  say "Installing git hooks..."
  match ← Files.makeDirectories ".git/hooks" with
  | .error e => pure (.error (.host e))
  | .ok () =>
    match ← Files.store path hook.toUTF8 with
    | .error e => pure (.error (.host e))
    | .ok () =>
      match ← Files.setMode path 0o755 with
      | .error e => pure (.error (.host e))
      | .ok () =>
        say "✓ Git hooks installed"
        say "  Pre-commit hook will run: fmt, clippy, test"
        pure (.ok ())

def Task.run : Task → m Outcome
  | .ci verbose => Tasks.ci verbose
  | .check verbose => Tasks.check verbose
  | .format only => Tasks.format only
  | .lint fix => Tasks.lint fix
  | .build release => Tasks.build release
  | .test doc ignored modules => Tasks.test doc ignored modules
  | .bench => execute ["bench"]
  | .decode path output release => Tasks.decode path output release
  | .preCommit => Tasks.preCommit
  | .installHooks => Tasks.installHooks

/-- A line on how tasks are asked for. -/
def usage : String := "Usage: x <task> [options]; tasks: " ++ ", ".intercalate (usages.map (·.1))

/-- Run the task that a command line asks for and answer the exit code. -/
def run (words : List String) : m UInt32 := do
  match parse words with
  | .error .help =>
    say usage
    pure 0
  | .error .misuse =>
    Console.complain (usage ++ "\n")
    pure 2
  | .ok task =>
    match ← task.run with
    | .ok () => pure 0
    | .error e =>
      Console.complain s!"Error: {e.message}\n"
      pure 1

end Tasks
end DiscGraphics
