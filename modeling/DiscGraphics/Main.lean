import DiscGraphics.CommandLine
import DiscGraphics.Picture.Png
import Std.Time

/-! The program on the machine it runs on: its files, its console and its clock. -/
namespace DiscGraphics.Machine

/-- Actions of the machine, with the files that are open. -/
abbrev Action := StateT (Array IO.FS.Handle) IO

/-- What the machine says of a refusal. -/
def hostError : IO.Error → HostError
  | .noFileOrDirectory _ code text => ⟨some code.toNat, "NotFound", text⟩
  | .alreadyExists _ code text => ⟨some code.toNat, "AlreadyExists", text⟩
  | .permissionDenied _ code text => ⟨some code.toNat, "PermissionDenied", text⟩
  | .invalidArgument _ code text => ⟨some code.toNat, "InvalidInput", text⟩
  | .interrupted _ code text => ⟨some code.toNat, "Interrupted", text⟩
  | .inappropriateType _ code text =>
    ⟨some code.toNat, if code.toNat = 21 then "IsADirectory" else "NotADirectory", text⟩
  | .resourceExhausted _ code text | .noSuchThing _ code text => ⟨some code.toNat, "Other", text⟩
  | .otherError code text | .resourceBusy code text | .resourceVanished code text
  | .unsupportedOperation code text | .hardwareFault code text
  | .unsatisfiedConstraints code text | .illegalOperation code text | .protocolError code text
  | .timeExpired code text => ⟨some code.toNat, "Other", text⟩
  | .unexpectedEof => ⟨none, "UnexpectedEof", "end of file"⟩
  | .userError text => ⟨none, "Other", text⟩

/-- An action whose refusal is an answer. -/
def attempt {β : Type} (action : IO β) : Action (Except HostError β) := do
  match ← (action.toBaseIO : BaseIO (Except IO.Error β)) with
  | .ok b => pure (.ok b)
  | .error e => pure (.error (hostError e))

/-- An action on a path, which is refused at once if no file can have that name. -/
def attemptAt {β : Type} (path : String) (action : IO β) : Action (Except HostError β) :=
  if Path.hasZero path then pure (.error .zeroInName) else attempt action

def store (path : String) (data : ByteArray) : Action (Except HostError Unit) :=
  attemptAt path (IO.FS.writeBinFile path data)

def openFile (path : String) (mode : IO.FS.Mode) : Action (Except HostError FileHandle) := do
  match ← attemptAt path (IO.FS.Handle.mk path mode) with
  | .error e => pure (.error e)
  | .ok handle =>
    let handles ← get
    set (handles.push handle)
    pure (.ok ⟨handles.size⟩)

/-- Permission to read, write and execute, from an octal digit. -/
def accessRight (bits : Nat) : IO.AccessRight :=
  ⟨bits.testBit 2, bits.testBit 1, bits.testBit 0⟩

instance : Files Action where
  load path := do
    match ← attemptAt path (IO.FS.Handle.mk path .read) with
    | .error e => pure (.error e)
    | .ok handle => return .ok (← attempt handle.readBinToEnd)
  store := store
  makeDirectories path := attemptAt path (IO.FS.createDirAll path)
  create path := openFile path .write
  append h text := do
    match (← get)[h.number]? with
    | none => pure ()
    | some handle => discard (attempt (handle.putStr text *> handle.flush))
  write h data := do
    match (← get)[h.number]? with
    | none => pure (.error (.badHandle, 0))
    | some handle =>
      return (← attempt (handle.write data *> handle.flush)).mapError fun e => (e, 0)
  openToRead path := openFile path .read
  readPortion h size := do
    match (← get)[h.number]? with
    | none => pure (.ok .empty)
    | some handle => attempt (handle.read size.toUSize)
  size path := attemptAt path do
    let file ← IO.FS.realPath path
    return (← file.metadata).byteSize.toNat
  setMode path mode := attemptAt path <|
    IO.setAccessRights path ⟨accessRight (mode / 64), accessRight (mode / 8), accessRight mode⟩

instance : Console Action where
  print text := do (← IO.getStdout).putStr text
  complain text := do (← IO.getStderr).putStr text

instance : Clock Action where
  now := do
    let now ← Std.Time.DateTime.now
    let nanoseconds := now.toTimestamp.toNanosecondsSinceUnixEpoch.val.toNat
    return {
      seconds := nanoseconds / 1000000000
      nanoseconds := ⟨nanoseconds % 1000000000, Nat.mod_lt _ (Nat.zero_lt_succ _)⟩
      offset := now.timezone.offset.second.val }

instance : PngEncoder := .storing

end DiscGraphics.Machine

/-- More reads than the longest file takes. -/
def DiscGraphics.Machine.patience : Nat := UInt64.size

/-- Play the file that the first argument names, into the directory that the second one names. -/
def main (args : List String) : IO UInt32 := do
  let program : DiscGraphics.Machine.Action (Option UInt32) :=
    DiscGraphics.CommandLine.run .ample DiscGraphics.Machine.patience "cdg-rs" args
  let (code, _) ← program.run #[]
  pure (code.getD 1)
