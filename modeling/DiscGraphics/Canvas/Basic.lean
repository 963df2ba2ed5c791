import DiscGraphics.Memory
import DiscGraphics.Palette

/-!
The canvas: 300 by 216 palette indices, one a byte, in rows that may be padded, with its palette and
the fine offset that later tiles are shifted by. A canvas holds exactly the bytes its stride calls
for, and its fine offset is always in range.
-/
namespace DiscGraphics

abbrev width : Nat := 300

abbrev height : Nat := 216

/-- The width of a side border, which is that of a tile and of a coarse horizontal scroll. -/
abbrev borderWidth : Nat := 6

/-- The height of the top border, which is that of a tile and of a coarse vertical scroll. -/
abbrev borderHeight : Nat := 12

/-- The width of a cropped picture, which begins right of the left border. -/
abbrev displayWidth : Nat := 294

/-- The height of a cropped picture, which begins below the top border. -/
abbrev displayHeight : Nat := 204

/-- A bound that a drawing step broke. The step stops there and has drawn nothing. -/
inductive Fault where
  | columnOutOfBounds (x : Nat)
  | rowOutOfBounds (y : Nat)
  | rectangleTooWide
  | rectangleTooTall
  | strideDiffers
  | outputTooSmall
  | outsideBuffer
  | shiftTooLarge
  deriving DecidableEq, Repr

def Fault.message : Fault → Option String
  | .columnOutOfBounds x => some s!"X coordinate {x} out of bounds"
  | .rowOutOfBounds y => some s!"Y coordinate {y} out of bounds"
  | .rectangleTooWide => some "rectangle exceeds canvas width"
  | .rectangleTooTall => some "rectangle exceeds canvas height"
  | .strideDiffers => some "scroll target stride differs"
  | .outputTooSmall => some "Output buffer too small for RGBA conversion"
  | .outsideBuffer | .shiftTooLarge => none

/-- A fine scroll offset, less than a tile in either direction. -/
structure FineOffset where
  horizontal : UInt8
  vertical : UInt8
  horizontal_le : horizontal ≤ 5
  vertical_le : vertical ≤ 11
  deriving DecidableEq, Repr

namespace FineOffset

/-- The largest offset that exceeds the given one in neither direction. -/
def clamp (h v : UInt8) : FineOffset where
  horizontal := if h ≤ 5 then h else 5
  vertical := if v ≤ 11 then v else 11
  horizontal_le := by split <;> first | assumption | decide
  vertical_le := by split <;> first | assumption | decide

def zero : FineOffset := clamp 0 0

instance : Inhabited FineOffset := ⟨zero⟩

@[simp] theorem clamp_self (o : FineOffset) : clamp o.horizontal o.vertical = o := by
  obtain ⟨h, v, hh, hv⟩ := o
  simp [clamp, hh, hv]

end FineOffset

/-- A picture in the making. `stride` is the distance in bytes between the starts of two rows. -/
structure Canvas where
  stride : Nat
  pixels : Array UInt8
  palette : Palette
  /-- Whether a palette entry was written since a frame last went out. -/
  paletteChanged : Bool
  offset : FineOffset
  width_le_stride : width ≤ stride
  size_pixels : pixels.size = stride * height
  deriving DecidableEq

namespace Canvas

/-- Every byte zero, every colour black, no offset. -/
def blank (stride : Nat) (h : width ≤ stride) : Canvas where
  stride := stride
  pixels := Array.replicate (stride * height) 0
  palette := .black
  paletteChanged := false
  offset := .zero
  width_le_stride := h
  size_pixels := Array.size_replicate

def empty : Canvas := blank width (Nat.le_refl width)

instance : Inhabited Canvas := ⟨empty⟩

/-- The number of bytes an index type of 64 bits counts. -/
def addressSpace : Nat := UInt64.size

/-- A blank canvas of any stride, if its rows hold a picture and the host grants its buffer. -/
def ofStride (stride : Nat) (memory : Memory) : Except AllocationError Canvas × Memory :=
  if h : width ≤ stride then
    if stride * height < addressSpace then
      match memory.reserve (stride * height) with
      | (true, memory) => (.ok (blank stride h), memory)
      | (false, memory) => (.error (.outOfMemory (stride * height)), memory)
    else
      (.error (.outOfMemory (addressSpace - 1)), memory)
  else
    (.error (.invalidStride stride), memory)

def reset (c : Canvas) : Canvas := blank c.stride c.width_le_stride

def index (c : Canvas) (x y : Nat) : Nat := y * c.stride + x

def pixel (c : Canvas) (x y : Nat) : UInt8 := c.pixels.getD (c.index x y) 0

def getPixel (c : Canvas) (x y : Nat) : Except Fault UInt8 :=
  if x < width then
    if y < height then .ok (c.pixel x y) else .error (.rowOutOfBounds y)
  else
    .error (.columnOutOfBounds x)

/-- Write any byte of the buffer, row padding included. -/
def setByte (c : Canvas) (i : Nat) (v : UInt8) : Except Fault Canvas :=
  if i < c.pixels.size then
    .ok { c with
      pixels := c.pixels.setIfInBounds i v
      size_pixels := by simp [c.size_pixels] }
  else
    .error .outsideBuffer

/-- Change every byte of the buffer, row padding included, by a rule that sees its position. -/
def mapBytes (f : Nat → UInt8 → UInt8) (c : Canvas) : Canvas :=
  { c with
    pixels := c.pixels.mapIdx f
    size_pixels := by simp [c.size_pixels] }

/-- The bytes of a row of the picture, without its padding. -/
def row (c : Canvas) (y : Nat) : Array UInt8 :=
  c.pixels.extract (c.index 0 y) (c.index 0 y + width)

def getRow (c : Canvas) (y : Nat) : Except Fault (Array UInt8) :=
  if c.index 0 y + width ≤ c.pixels.size then .ok (c.row y) else .error .outsideBuffer

def setPalette (c : Canvas) (p : Palette) : Canvas := { c with palette := p }

def setColor (c : Canvas) (i : UInt8) (rgb : UInt32) : Canvas :=
  c.setPalette (c.palette.set i rgb)

def markPaletteChanged (c : Canvas) : Canvas := { c with paletteChanged := true }

def clearPaletteChanged (c : Canvas) : Canvas := { c with paletteChanged := false }

def copyPalette (c src : Canvas) : Canvas :=
  { c with palette := src.palette, paletteChanged := src.paletteChanged }

def setOffset (c : Canvas) (h v : UInt8) : Canvas := { c with offset := .clamp h v }

/-- A canvas in words: all but its pixels. -/
def describe (c : Canvas) : String :=
  let colors := ", ".intercalate (c.palette.colors.toList.map toString)
  s!"Canvas \x7b stride: {c.stride}, palette: Palette \x7b colors: [{colors}] \x7d, "
    ++ s!"palette_changed: {c.paletteChanged}, hscroll: {c.offset.horizontal}, "
    ++ s!"vscroll: {c.offset.vertical}, .. \x7d"

@[simp] theorem stride_blank (stride : Nat) (h : width ≤ stride) :
    (blank stride h).stride = stride := rfl

theorem stride_of_ofStride {stride : Nat} {memory : Memory} {c : Canvas}
    (h : (ofStride stride memory).1 = .ok c) : c.stride = stride := by
  unfold ofStride at h
  split at h
  · split at h
    · split at h
      · injection h with h
        rw [← h, stride_blank]
      · cases h
    · cases h
  · cases h

/-- A host that lends the buffer has a canvas. -/
theorem ofStride_eq_ok {stride : Nat} {memory : Memory} (h : width ≤ stride)
    (hm : memory.Lends (stride * height)) :
    ofStride stride memory = (.ok (blank stride h), (memory.reserve (stride * height)).2) := by
  have hspace : stride * height < addressSpace := Nat.lt_of_le_of_lt hm.size_le (by decide)
  have hgranted := hm.granted
  rw [ofStride, dif_pos h, if_pos hspace]
  generalize memory.reserve (stride * height) = answer at hgranted ⊢
  obtain ⟨granted, later⟩ := answer
  cases hgranted
  rfl

/-- What a host lends it lends after making a canvas as well. -/
theorem lends_ofStride {memory : Memory} {bytes : Nat} (h : memory.Lends bytes) (stride : Nat) :
    (ofStride stride memory).2.Lends bytes := by
  have hlater := h.reserve (stride * height)
  unfold ofStride
  split
  · split
    · split <;> simp_all
    · exact h
  · exact h

theorem ofStride_of_settled {memory : Memory} (h : memory.Settled) (stride : Nat) :
    (ofStride stride memory).2 = memory := by
  have hlater := h.reserve (stride * height)
  unfold ofStride
  split
  · split
    · split <;> simp_all
    · rfl
  · rfl

theorem getPixel_eq_ok (c : Canvas) {x y : Nat} (hx : x < width) (hy : y < height) :
    c.getPixel x y = .ok (c.pixel x y) := by
  rw [getPixel, if_pos hx, if_pos hy]

theorem index_lt_size (c : Canvas) {x y : Nat} (hx : x < width) (hy : y < height) :
    c.index x y < c.pixels.size := by
  have hs := c.width_le_stride
  have hm : (y + 1) * c.stride ≤ height * c.stride := Nat.mul_le_mul_right _ hy
  rw [c.size_pixels, index, Nat.mul_comm c.stride]
  rw [Nat.add_mul, Nat.one_mul] at hm
  omega

end Canvas
end DiscGraphics
