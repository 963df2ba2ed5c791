/-! What the programs ask of the place their files are in, and how it may refuse. -/
namespace DiscGraphics

/-- A refusal: its kind, its words and the number the host gave it. A name that no host could know
is refused without asking it, and so without a number. -/
structure HostError where
  code : Option Nat
  kind : String
  text : String
  deriving DecidableEq, Repr

namespace HostError

def message (e : HostError) : String :=
  match e.code with
  | some code => s!"{e.text} (os error {code})"
  | none => e.text

def report (e : HostError) : String :=
  match e.code with
  | some code => s!"Os \x7b code: {code}, kind: {e.kind}, message: \"{e.text}\" \x7d"
  | none => s!"Error \x7b kind: {e.kind}, message: \"{e.text}\" \x7d"

def notFound : HostError := ⟨some 2, "NotFound", "No such file or directory"⟩
def alreadyExists : HostError := ⟨some 17, "AlreadyExists", "File exists"⟩
def badHandle : HostError := ⟨some 9, "Uncategorized", "Bad file descriptor"⟩
def notADirectory : HostError := ⟨some 20, "NotADirectory", "Not a directory"⟩
def isADirectory : HostError := ⟨some 21, "IsADirectory", "Is a directory"⟩
def invalidArgument : HostError := ⟨some 22, "InvalidInput", "Invalid argument"⟩
def notEmpty : HostError := ⟨some 39, "DirectoryNotEmpty", "Directory not empty"⟩
def nameTooLong : HostError := ⟨some 36, "InvalidFilename", "File name too long"⟩

/-- Whether a request was cut short and is to be made again. -/
def isInterruption (e : HostError) : Bool := e.kind == "Interrupted"

/-- A zero character ends a name for the host, so none may stand inside it. -/
def zeroInName : HostError :=
  ⟨none, "InvalidInput", "file name contained an unexpected NUL byte"⟩

end HostError

inductive IoError where
  | host (error : HostError)
  /-- The bytes of a text are not UTF-8. -/
  | invalidText
  /-- The stream itself reported a failure. -/
  | stream (text : String)
  deriving DecidableEq, Repr

namespace IoError

def message : IoError → String
  | .host e => e.message
  | .invalidText => "stream did not contain valid UTF-8"
  | .stream text => text

def report : IoError → String
  | .host e => e.report
  | .invalidText =>
    "Error \x7b kind: InvalidData, message: \"stream did not contain valid UTF-8\" \x7d"
  | .stream text => s!"Custom \x7b kind: Other, error: \"{text}\" \x7d"

end IoError

/-- An open file, by the number its store knows it under. -/
structure FileHandle where
  number : Nat
  deriving DecidableEq, Repr

/-- The files a program reads and writes. Paths are relative to where the program runs. -/
class Files (m : Type → Type) where
  /-- Open a file, then read all of it. Either may be refused. -/
  load : String → m (Except HostError (Except HostError ByteArray))
  /-- Replace what a file holds, and make the file if there is none. -/
  store : String → ByteArray → m (Except HostError Unit)
  makeDirectories : String → m (Except HostError Unit)
  /-- Empty a file, or make it, and keep it open. -/
  create : String → m (Except HostError FileHandle)
  /-- Write to an open file. A refusal is ignored. -/
  append : FileHandle → String → m Unit
  /-- Write all of some bytes to an open file, in as many goes as that takes. A refusal says how
  many were taken before it. -/
  write : FileHandle → ByteArray → m (Except (HostError × Nat) Unit)
  size : String → m (Except HostError Nat)
  openToRead : String → m (Except HostError FileHandle)
  /-- Up to so many of the bytes that come next in an open file; none at its end. -/
  readPortion : FileHandle → Nat → m (Except HostError ByteArray)
  setMode : String → Nat → m (Except HostError Unit)

namespace Files

variable {m : Type → Type} [Monad m] [Files m]

/-- All of a file, however it is refused. -/
def read (path : String) : m (Except IoError ByteArray) := do
  match ← Files.load path with
  | .ok (.ok data) => pure (.ok data)
  | .ok (.error e) | .error e => pure (.error (.host e))

def readText (path : String) : m (Except IoError String) := do
  match ← read path with
  | .ok data =>
    match String.fromUTF8? data with
    | some text => pure (.ok text)
    | none => pure (.error .invalidText)
  | .error e => pure (.error e)

def writeText (path text : String) : m (Except IoError Unit) := do
  match ← Files.store path text.toUTF8 with
  | .ok () => pure (.ok ())
  | .error e => pure (.error (.host e))

end Files
end DiscGraphics
