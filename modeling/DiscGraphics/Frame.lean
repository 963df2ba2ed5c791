import DiscGraphics.Canvas.Paint

/-!
A frame is the canvas as it leaves the decoder. Its views drop the row padding: the picture whole,
the picture without its left and top border, and the picture with the colours looked up, either in
bytes of its own or written over the start of a buffer.
-/
namespace DiscGraphics

/-- Writing to a buffer. A fault leaves in the buffer what was written before it. -/
abbrev Writing := EStateM Fault (Array UInt8)

namespace Writing

/-- A buffer with some of its bytes, from a position on, replaced by others. -/
def overlay (start : Nat) (bytes out : Array UInt8) : Array UInt8 :=
  paintRun start bytes.size (fun i _ => bytes.getD i 0) out

/-- Replace the bytes from a position on, if there are enough of them. -/
def overwrite (start : Nat) (bytes : Array UInt8) : Writing Unit := fun out =>
  if start + bytes.size ≤ out.size then .ok () (overlay start bytes out)
  else .error .outsideBuffer out

/-- Write the opaque channels of some pixels one after the other, and say where they end. -/
def expand (p : Palette) (start : Nat) (indices : List UInt8) : Writing Nat :=
  indices.foldlM (fun offset i => do
    overwrite offset (opaqueChannels (p.get i))
    pure (offset + 4)) start

end Writing

/-- The canvas right after one decoding step. -/
structure Frame where
  canvas : Canvas
  deriving DecidableEq

namespace Frame

def packedPixels (f : Frame) : Array UInt8 :=
  (Array.range height).flatMap f.canvas.row

def visiblePixels (f : Frame) : Array UInt8 :=
  (Array.range displayHeight).flatMap fun y =>
    (f.canvas.row (borderHeight + y)).extract borderWidth (borderWidth + displayWidth)

def rgb (f : Frame) : Array UInt8 := f.canvas.palette.expand f.packedPixels

def opaqueSize : Nat := width * height * 4

/-- Write the opaque channels of the whole picture to the start of a buffer, row by row. -/
def writeRows (f : Frame) : Writing Unit := do
  if (← get).size < opaqueSize then throw .outputTooSmall
  discard <| (List.range height).foldlM (fun offset y =>
    Writing.expand f.canvas.palette offset (f.canvas.row y).toList) 0

/-- A buffer with its start overwritten by the opaque channels of the whole picture. -/
def writeOpaque (f : Frame) (out : Array UInt8) : Except Fault (Array UInt8) :=
  match f.writeRows.run out with
  | .ok () out => .ok out
  | .error fault _ => .error fault

end Frame
end DiscGraphics
