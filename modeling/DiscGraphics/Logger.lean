import DiscGraphics.Files
import DiscGraphics.Trace

/-!
The trace of a decoder: a bounded list of entries, each of which is written to the log file that is
open when it is accepted.
-/
namespace DiscGraphics

/-- What is traced, and the trace so far. A capacity of zero sets no bound. -/
structure Logger where
  level : LogLevel := .none
  packetTrace : Bool := false
  entries : Array TraceEntry := #[]
  capacity : Nat := 10000
  output : Option FileHandle := none
  /-- The writes that accepting the latest entries has led to, in order: a line a write, each with
  the file that was open at the time. -/
  writes : List (FileHandle × String) := []
  deriving DecidableEq, Repr

namespace Logger

def silent : Logger := {}

instance : Inhabited Logger := ⟨silent⟩

/-- Whether messages of a level are accepted. No message has level `none`. -/
def enabled (l : Logger) (level : LogLevel) : Bool :=
  level != .none && decide (level ≤ l.level)

/-- Packets are traced when that is switched on and the level is the most talkative one. -/
def tracesPackets (l : Logger) : Bool :=
  l.packetTrace && decide (LogLevel.trace ≤ l.level)

/-- The last `n` entries, or all if there are fewer. -/
def last (l : Logger) (n : Nat) : Array TraceEntry :=
  l.entries.extract (l.entries.size - n) l.entries.size

/-- Set the bound and drop the oldest entries beyond it. -/
def setCapacity (l : Logger) (n : Nat) : Logger :=
  if 0 < n ∧ n < l.entries.size then { l with capacity := n, entries := l.last n }
  else { l with capacity := n }

/-- Accept an entry, and give up the oldest one if that breaks the bound. -/
def push (l : Logger) (e : TraceEntry) : Logger :=
  let entries := l.entries.push e
  { l with
    entries :=
      if 0 < l.capacity ∧ l.capacity < entries.size then entries.extract 1 entries.size
      else entries
    writes := l.writes ++ l.output.toList.map fun file => (file, e.render ++ "\n") }

def logPacket (l : Logger) (t : PacketTrace) : Logger :=
  if l.tracesPackets then l.push (.packet t) else l

def logScroll (l : Logger) (t : ScrollTrace) : Logger :=
  if l.enabled .debug then l.push (.scroll t) else l

def logMessage (l : Logger) (level : LogLevel) (text : String) : Logger :=
  if l.enabled level then l.push (.message level text) else l

def clear (l : Logger) : Logger := { l with entries := #[] }

/-- Write the entries accepted from now on to a file as well. -/
def openOutput (l : Logger) (file : FileHandle) : Logger := { l with output := some file }

def closeOutput (l : Logger) : Logger := { l with output := none }

def render (l : Logger) : String :=
  String.join (l.entries.toList.map fun e => e.render ++ "\n")

variable {m : Type → Type} [Monad m] [Files m]

def writeLines : List (FileHandle × String) → m Unit
  | [] => pure ()
  | (file, line) :: rest => do
    Files.append file line
    writeLines rest

/-- Carry out the writes of the latest entries. -/
def flush (l : Logger) : m Logger := do
  writeLines l.writes
  pure { l with writes := [] }

end Logger
end DiscGraphics
