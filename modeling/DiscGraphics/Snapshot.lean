import DiscGraphics.Decoder
import DiscGraphics.Files

/-!
A snapshot is the state of a decoder without its row padding. It may hold anything; only a snapshot
of the right version and sizes is restored, and all is checked before the decoder changes.
-/
namespace DiscGraphics

inductive SnapshotError where
  | io (error : IoError)
  | serialization (text : String)
  | versionMismatch (expected found : UInt32)
  | invalidLength (field : String) (expected found : Nat)
  deriving DecidableEq, Repr

namespace SnapshotError

def message : SnapshotError → String
  | .io e => s!"I/O error: {e.message}"
  | .serialization text => s!"Serialization error: {text}"
  | .versionMismatch expected found => s!"Version mismatch: expected {expected}, found {found}"
  | .invalidLength field expected found =>
    s!"Invalid {field} length: expected {expected}, found {found}"

def report : SnapshotError → String
  | .io e => s!"Io({e.report})"
  | .serialization text => s!"Serialization({text})"
  | .versionMismatch expected found =>
    s!"VersionMismatch \x7b expected: {expected}, found: {found} \x7d"
  | .invalidLength field expected found =>
    s!"InvalidLength \x7b field: \"{field}\", expected: {expected}, found: {found} \x7d"

end SnapshotError

structure Snapshot where
  version : UInt32
  timestamp : String
  packetsDecoded : UInt64
  horizontal : UInt8
  vertical : UInt8
  palette : Array UInt32
  paletteChanged : Bool
  pixels : Array UInt8
  deriving DecidableEq, Repr

def Palette.ofColors (colors : Array UInt32) : Palette :=
  ⟨Vector.ofFn fun i => (colors.getD i.val 0) &&& 0xFFFFFF⟩

/-- The canvas with a whole picture painted on it, row after row. -/
def Canvas.paintAll (c : Canvas) (pixels : Array UInt8) : Canvas :=
  c.paint 0 0 width height fun i j _ => nibble (pixels.getD (width * j + i) 0)

namespace Snapshot

/-- The version of the snapshots that are taken and restored. -/
def currentVersion : UInt32 := 1

variable {α : Type}

def ofDecoder (d : Decoder α) (timestamp : String) : Snapshot where
  version := currentVersion
  timestamp := timestamp
  packetsDecoded := d.packetsDecoded
  horizontal := d.canvas.offset.horizontal
  vertical := d.canvas.offset.vertical
  palette := d.canvas.palette.colors.toArray
  paletteChanged := d.canvas.paletteChanged
  pixels := d.frame.packedPixels

/-- What is wrong with a snapshot first. -/
def problem? (s : Snapshot) : Option SnapshotError :=
  if s.version ≠ currentVersion then some (.versionMismatch currentVersion s.version)
  else if s.palette.size ≠ 16 then some (.invalidLength "palette" 16 s.palette.size)
  else if s.pixels.size ≠ width * height then
    some (.invalidLength "pixels" (width * height) s.pixels.size)
  else none

/-- The canvas of a sound snapshot, on the rows of another canvas. -/
def draw (s : Snapshot) (c : Canvas) : Canvas :=
  { (c.paintAll s.pixels).setOffset s.horizontal s.vertical with
    palette := .ofColors s.palette
    paletteChanged := s.paletteChanged }

/-- Put a decoder into the state of a snapshot. -/
def restore (s : Snapshot) (d : Decoder α) : Except SnapshotError (Decoder α) :=
  match s.problem? with
  | some e => .error e
  | none => .ok { d with canvas := s.draw d.canvas, packetsDecoded := s.packetsDecoded }

end Snapshot
end DiscGraphics
