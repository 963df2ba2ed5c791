import DiscGraphics.Frame

/-!
A picture as it is kept in a file: palette indices, one a byte, and the palette's channels. What
bytes they become is left to an encoder.
-/
namespace DiscGraphics

/-- A picture of one byte an index, row after row without padding. -/
structure Picture where
  width : Nat
  height : Nat
  /-- Three channels an entry. -/
  palette : Array UInt8
  indices : ByteArray

def Palette.channelTable (p : Palette) : Array UInt8 :=
  p.colors.toArray.flatMap channels

def Frame.picture (f : Frame) (crop : Bool) : Picture :=
  let palette := f.canvas.palette.channelTable
  if crop then ⟨displayWidth, displayHeight, palette, ⟨f.visiblePixels⟩⟩
  else ⟨width, height, palette, ⟨f.packedPixels⟩⟩

/-- A way to write pictures as PNG files. The pieces of a file are written one by one. -/
class PngEncoder where
  /-- All of a file that depends on the picture. -/
  pieces : Picture → List ByteArray
  /-- The pieces at the end of every file. -/
  ending : List ByteArray

end DiscGraphics
