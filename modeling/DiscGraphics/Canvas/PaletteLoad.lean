import DiscGraphics.Canvas.Basic

/-!
Loading the palette. A packet carries eight colours of twelve bits, each spread over the low six
bits of two bytes.
-/
namespace DiscGraphics

/-- The eight entries that a palette packet writes. -/
inductive PaletteHalf where
  | low
  | high
  deriving DecidableEq, Repr

def PaletteHalf.base : PaletteHalf → Nat
  | .low => 0
  | .high => 8

/-- The 12-bit colour that two bytes of a palette packet carry. -/
def packedColor (data : Payload) (i : Fin 8) : UInt16 :=
  ((sixBits data[2 * i.val]).toUInt16 <<< 6) ||| (sixBits data[2 * i.val + 1]).toUInt16

def Palette.load (p : Palette) (data : Payload) (half : PaletteHalf) : Palette :=
  (List.finRange 8).foldl
    (fun p i => p.set (UInt8.ofNat (half.base + i.val)) (expandColor (packedColor data i))) p

def Canvas.loadPalette (c : Canvas) (data : Payload) (half : PaletteHalf) : Canvas :=
  (c.setPalette (c.palette.load data half)).markPaletteChanged

end DiscGraphics
