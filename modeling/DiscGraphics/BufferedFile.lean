import DiscGraphics.Files

/-! Writing to an open file through a buffer, which passes bytes on only once it is full. -/
namespace DiscGraphics

/-- An open file and the bytes that have yet to be written to it. -/
structure BufferedFile where
  handle : FileHandle
  waiting : ByteArray := .empty

namespace BufferedFile

/-- How many bytes may wait. -/
def capacity : Nat := 8192

variable {m : Type → Type} [Monad m] [Files m]

/-- Write what is waiting. If that is refused, what was not taken goes on waiting. -/
def flush (b : BufferedFile) : m (Except HostError Unit × BufferedFile) := do
  if b.waiting.size = 0 then pure (.ok (), b)
  else
    match ← Files.write b.handle b.waiting with
    | .ok () => pure (.ok (), { b with waiting := .empty })
    | .error (e, taken) =>
      pure (.error e, { b with waiting := b.waiting.extract taken b.waiting.size })

/-- Write what is waiting, unless there is room for more. -/
def makeRoom (b : BufferedFile) (bytes : Nat) : m (Except HostError Unit × BufferedFile) :=
  if b.waiting.size + bytes ≤ capacity then pure (.ok (), b) else b.flush

/-- Let bytes wait until there are enough. So many that they would fill the buffer by themselves do
not go through it. -/
def write (b : BufferedFile) (data : ByteArray) : m (Except HostError Unit × BufferedFile) := do
  match ← b.makeRoom data.size with
  | (.error e, b) => pure (.error e, b)
  | (.ok (), b) =>
    if data.size < capacity then pure (.ok (), { b with waiting := b.waiting ++ data })
    else
      match ← Files.write b.handle data with
      | .ok () => pure (.ok (), b)
      | .error (e, _) => pure (.error e, b)

/-- Write some pieces in turn, up to the first that is refused. -/
def writeAll (b : BufferedFile) : List ByteArray → m (Except HostError Unit × BufferedFile)
  | [] => pure (.ok (), b)
  | data :: rest => do
    match ← b.write data with
    | (.error e, b) => pure (.error e, b)
    | (.ok (), b) => b.writeAll rest

/-- Write what is waiting for the last time. Nobody learns if that is refused. -/
def close (b : BufferedFile) : m Unit := discard b.flush

end BufferedFile
end DiscGraphics
