import DiscGraphics.Canvas.Rect

/-!
Scrolling, which draws the moved picture into a second canvas. The strip uncovered at a side is
drawn after the one above or below and owns the corners.
-/
namespace DiscGraphics

/-- How an uncovered strip is filled: with one colour, or with what left at the opposite edge. -/
inductive ScrollMode where
  | preset
  | copy
  deriving DecidableEq, Repr

def ScrollMode.name : ScrollMode → String
  | .preset => "Preset"
  | .copy => "Copy"

inductive HorizontalCommand where
  | none
  | right
  | left
  deriving DecidableEq, Repr

namespace HorizontalCommand

def ofBits (bits : UInt8) : HorizontalCommand :=
  if bits = 1 then .right else if bits = 2 then .left else .none

/-- The coarse step in pixels, to the right. -/
def step : HorizontalCommand → Int
  | .none => 0
  | .right => 6
  | .left => -6

def name : HorizontalCommand → String
  | .none => "None"
  | .right => "Right"
  | .left => "Left"

end HorizontalCommand

inductive VerticalCommand where
  | none
  | down
  | up
  deriving DecidableEq, Repr

namespace VerticalCommand

def ofBits (bits : UInt8) : VerticalCommand :=
  if bits = 1 then .down else if bits = 2 then .up else .none

def step : VerticalCommand → Int
  | .none => 0
  | .down => 12
  | .up => -12

def name : VerticalCommand → String
  | .none => "None"
  | .down => "Down"
  | .up => "Up"

end VerticalCommand

structure ScrollParams where
  color : UInt8
  horizontal : HorizontalCommand
  horizontalOffset : UInt8
  vertical : VerticalCommand
  verticalOffset : UInt8
  deriving DecidableEq, Repr

/-- Offsets off the wire are clamped into range. -/
def ScrollParams.ofPayload (data : Payload) : ScrollParams :=
  let h := sixBits data.second
  let v := sixBits data.third
  let fine := FineOffset.clamp (h &&& 0x07) (v &&& 0x0F)
  { color := nibble data.first
    horizontal := .ofBits ((h &&& 0x30) >>> 4)
    horizontalOffset := fine.horizontal
    vertical := .ofBits ((v &&& 0x30) >>> 4)
    verticalOffset := fine.vertical }

structure ScrollShift where
  dx : Int
  dy : Int
  deriving DecidableEq, Repr

def ScrollShift.isZero (s : ScrollShift) : Bool := s.dx == 0 && s.dy == 0

/-- The offset given up counts against the one taken. -/
def FineOffset.shift (o : FineOffset) (p : ScrollParams) : ScrollShift where
  dx := p.horizontal.step + p.horizontalOffset.toNat - o.horizontal.toNat
  dy := p.vertical.step + p.verticalOffset.toNat - o.vertical.toNat

namespace Canvas

/-- The distance back from an edge, which a longer shift would overrun. -/
def before (edge distance : Nat) : Except Fault Nat :=
  if distance ≤ edge then .ok (edge - distance) else .error .shiftTooLarge

def fillStrip (out src : Canvas) (mode : ScrollMode) (color : UInt8) (sx sy x y w h : Nat) :
    Except Fault Canvas :=
  match mode with
  | .copy => out.copyRect src sx sy x y w h
  | .preset => out.fillRect x y w h color

def shiftInto (src out : Canvas) (s : ScrollShift) : Except Fault Canvas :=
  let x₀ := max s.dx 0
  let x₁ := min (width + s.dx) width
  let y₀ := max s.dy 0
  let y₁ := min (height + s.dy) height
  if x₀ < x₁ ∧ y₀ < y₁ then
    out.copyRect src (x₀ - s.dx).toNat (y₀ - s.dy).toNat x₀.toNat y₀.toNat
      (x₁ - x₀).toNat (y₁ - y₀).toNat
  else
    .ok out

/-- Fill the strip that a vertical shift uncovers, across the whole picture. -/
def fillVertical (src out : Canvas) (dy : Int) (mode : ScrollMode) (color : UInt8) :
    Except Fault Canvas := do
  let d := dy.natAbs
  if dy > 0 then
    let start ← before height d
    out.fillStrip src mode color 0 start 0 0 width d
  else if dy < 0 then
    let stop ← before height d
    out.fillStrip src mode color 0 0 0 stop width d
  else
    .ok out

/-- Fill the strip that a horizontal shift uncovers, from top to bottom. -/
def fillHorizontal (src out : Canvas) (dx : Int) (mode : ScrollMode) (color : UInt8) :
    Except Fault Canvas := do
  let d := dx.natAbs
  if dx > 0 then
    let start ← before width d
    out.fillStrip src mode color start 0 0 0 d height
  else if dx < 0 then
    let stop ← before width d
    out.fillStrip src mode color 0 0 stop 0 d height
  else
    .ok out

/-- Draw a canvas, scrolled, into another of the same stride, which keeps its own fine offset. -/
def scrollInto (src out : Canvas) (s : ScrollShift) (color : UInt8) (mode : ScrollMode) :
    Except Fault Canvas :=
  if src.stride = out.stride then do
    let out ← src.shiftInto (out.copyPalette src) s
    let out ← src.fillVertical out s.dy mode color
    src.fillHorizontal out s.dx mode color
  else
    .error .strideDiffers

theorem before_eq_ok {edge distance : Nat} (h : distance ≤ edge) :
    before edge distance = .ok (edge - distance) := if_pos h

end Canvas

/-- A scroll off the wire moves the picture by less than two tiles. -/
theorem FineOffset.shift_ofPayload (o : FineOffset) (data : Payload) :
    (o.shift (.ofPayload data)).dx.natAbs ≤ 11 ∧ (o.shift (.ofPayload data)).dy.natAbs ≤ 23 := by
  have h₁ := UInt8.le_iff_toNat_le.mp o.horizontal_le
  have h₂ := UInt8.le_iff_toNat_le.mp o.vertical_le
  have h₃ (p q : UInt8) := UInt8.le_iff_toNat_le.mp (FineOffset.clamp p q).horizontal_le
  have h₄ (p q : UInt8) := UInt8.le_iff_toNat_le.mp (FineOffset.clamp p q).vertical_le
  have e₁ (c : HorizontalCommand) : -6 ≤ c.step ∧ c.step ≤ 6 := by cases c <;> decide
  have e₂ (c : VerticalCommand) : -12 ≤ c.step ∧ c.step ≤ 12 := by cases c <;> decide
  simp only [UInt8.reduceToNat] at h₁ h₂ h₃ h₄
  simp only [FineOffset.shift, ScrollParams.ofPayload]
  constructor
  · have := e₁ (.ofBits ((sixBits data.second &&& 0x30) >>> 4))
    have := h₃ (sixBits data.second &&& 0x07) (sixBits data.third &&& 0x0F)
    omega
  · have := e₂ (.ofBits ((sixBits data.third &&& 0x30) >>> 4))
    have := h₄ (sixBits data.second &&& 0x07) (sixBits data.third &&& 0x0F)
    omega

end DiscGraphics
