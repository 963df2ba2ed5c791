import DiscGraphics.BufferedFile
import DiscGraphics.Clock
import DiscGraphics.Config
import DiscGraphics.Path
import DiscGraphics.Picture

/-!
Writing frames to picture files, each source into a directory of its own. The first failure that is
noticed ends the writing and is what an exporter reports.
-/
namespace DiscGraphics

inductive ExportError where
  | io (error : IoError)
  /-- A file was made, but it would not take what the encoder wrote. -/
  | pngEncoding (error : IoError)
  deriving DecidableEq, Repr

namespace ExportError

def message : ExportError → String
  | .io e => s!"I/O error: {e.message}"
  | .pngEncoding e => s!"PNG encoding error: {e.message}"

def report : ExportError → String
  | .io e => s!"Io({e.report})"
  | .pngEncoding e => s!"PngEncoding(IoError({e.report}))"

end ExportError

/-- Where the pictures of a source go. A source without a name counts as `default`. -/
def exportDirectory (base : String) (source : Option String) : String :=
  Path.join base ((source.bind Path.fileStem?).getD "default")

def frameName (n : Nat) : String := s!"frame_{padNumber 8 n}.png"

variable {m : Type → Type} [Monad m] [Files m] [PngEncoder]

/-- Write a picture to an open file. The answer is that of the pieces made of the picture. The
ending is written and the buffer emptied when both are given up, and no refusal of that is heard
of. -/
def Picture.encode (p : Picture) (file : FileHandle) : m (Except ExportError Unit) := do
  let (answer, b) ← BufferedFile.writeAll ⟨file, .empty⟩ (PngEncoder.pieces p)
  let (_, b) ← b.writeAll PngEncoder.ending
  b.close
  pure (answer.mapError fun e => .pngEncoding (.host e))

def Frame.save (f : Frame) (path : String) (crop : Bool) : m (Except ExportError Unit) := do
  match ← Files.create path with
  | .error e => pure (.error (.io (.host e)))
  | .ok file => (f.picture crop).encode file

def ExportConfig.finalName [Clock m] (config : ExportConfig) : m String := do
  if config.includeTimestamp then
    let now ← Clock.now
    pure s!"final_{now.stamp}.png"
  else pure "final.png"

/-- Write a frame as the final one of a source, and say where it went. -/
def Frame.saveFinal [Clock m] (f : Frame) (source : Option String) (config : ExportConfig) :
    m (Except ExportError String) := do
  let directory := exportDirectory config.outputDirectory source
  match ← Files.makeDirectories directory with
  | .error e => pure (.error (.io (.host e)))
  | .ok () =>
    let name ← config.finalName
    let path := Path.join directory name
    let answer ← f.save path config.cropBorder
    pure (answer.map fun _ => path)

structure FrameExporter where
  directory : String
  /-- Every how many frames one is written; zero for none. -/
  interval : UInt64
  cropBorder : Bool
  framesSeen : UInt64 := 0
  written : Array String := #[]
  failure : Option ExportError := none
  deriving DecidableEq, Repr

namespace FrameExporter

/-- An exporter for a source, whose directory is made at once. -/
def open? (config : ExportConfig) (source : Option String) :
    m (Except ExportError FrameExporter) := do
  let directory := exportDirectory config.outputDirectory source
  match ← Files.makeDirectories directory with
  | .error e => pure (.error (.io (.host e)))
  | .ok () => pure (.ok ⟨directory, config.frameInterval, config.cropBorder, 0, #[], none⟩)

def Wanted (e : FrameExporter) (n : UInt64) : Prop :=
  0 < e.interval ∧ e.failure = none ∧ n % e.interval = 0

instance (e : FrameExporter) (n : UInt64) : Decidable (e.Wanted n) :=
  inferInstanceAs (Decidable (_ ∧ _ ∧ _))

def onFrame (e : FrameExporter) (f : Frame) : m FrameExporter := do
  let n := e.framesSeen + 1
  let e := { e with framesSeen := n }
  if e.Wanted n then
    let path := Path.join e.directory (frameName n.toNat)
    match ← f.save path e.cropBorder with
    | .ok () => pure { e with written := e.written.push path }
    | .error error => pure { e with failure := some error }
  else pure e

/-- The files written, or the first failure. -/
def finish (e : FrameExporter) : Except ExportError (Array String) :=
  match e.failure with
  | some error => .error error
  | none => .ok e.written

end FrameExporter
end DiscGraphics
