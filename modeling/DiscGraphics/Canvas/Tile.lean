import DiscGraphics.Canvas.Rect

/-!
A tile is a two-colour bitmap of 6 by 12 pixels on a grid of that size. The canvas's fine offset
moves it right and down; a tile that would then leave the picture is dropped whole.
-/
namespace DiscGraphics

inductive TileMode where
  | normal
  | xor
  deriving DecidableEq, Repr

def TileMode.combine : TileMode → UInt8 → UInt8 → UInt8
  | .normal, new, _ => new
  | .xor, new, old => new ^^^ old

/-- The payload of a tile. `row` and `column` are in pixels; bit 5 of a bitmap row is leftmost. -/
structure TileBlock where
  clear : UInt8
  marked : UInt8
  row : Nat
  column : Nat
  bitmap : Vector UInt8 12
  deriving DecidableEq, Repr

namespace TileBlock

def ofPayload (data : Payload) : TileBlock where
  clear := nibble data.first
  marked := nibble data.second
  row := (data.third &&& 0x1F).toNat * borderHeight
  column := (sixBits data.fourth).toNat * borderWidth
  bitmap := Vector.ofFn fun y => sixBits data[4 + y.val]

/-- Whether the bit for column `x` of row `y` is set. -/
def bit (t : TileBlock) (x y : Nat) : Bool :=
  (t.bitmap.toArray.getD y 0).toNat.testBit (borderWidth - 1 - x)

def colorAt (t : TileBlock) (x y : Nat) : UInt8 := if t.bit x y then t.marked else t.clear

def word (n : Nat) : Int :=
  let m := n % 4294967296
  if m < 2147483648 then m else m - 4294967296

/-- Whether a tile lies on the picture once shifted; its place is read as a word of 32 bits. -/
def fits (t : TileBlock) (h v : UInt8) : Bool :=
  let v : Int := v.toNat
  let h : Int := h.toNat
  decide (word t.row ≤ height - borderHeight - v ∧ 0 ≤ word t.row + v ∧
    word t.column ≤ width - borderWidth - h ∧ 0 ≤ word t.column + h)

theorem row_ofPayload_le (data : Payload) : (ofPayload data).row ≤ 372 := by
  have : (data.third &&& 0x1F).toNat ≤ 31 := by
    rw [UInt8.toNat_and]
    exact Nat.and_le_right
  simp only [ofPayload, borderHeight, borderWidth]
  omega

theorem column_ofPayload_le (data : Payload) : (ofPayload data).column ≤ 378 := by
  have : (sixBits data.fourth).toNat ≤ 63 := by
    rw [sixBits, UInt8.toNat_and]
    exact Nat.and_le_right
  simp only [ofPayload, borderHeight, borderWidth]
  omega

theorem word_eq {n : Nat} (h : n < 2147483648) : word n = n := by
  rw [word, Nat.mod_eq_of_lt (by omega), if_pos h]

/-- A tile off the wire fits exactly when all of it lies on the picture. -/
theorem fits_ofPayload (data : Payload) (h v : UInt8) :
    (ofPayload data).fits h v = true ↔
      (ofPayload data).column + h.toNat + borderWidth ≤ width ∧
        (ofPayload data).row + v.toNat + borderHeight ≤ height := by
  have hr := row_ofPayload_le data
  have hc := column_ofPayload_le data
  rw [fits, decide_eq_true_iff, word_eq (by omega), word_eq (by omega)]
  simp only [width, height, borderWidth, borderHeight]
  omega

end TileBlock

namespace Canvas

/-- Paint a tile, and say whether it was painted or dropped. -/
def tileBlock (c : Canvas) (data : Payload) (mode : TileMode) : Except Fault (Bool × Canvas) :=
  let tile := TileBlock.ofPayload data
  if tile.fits c.offset.horizontal c.offset.vertical then
    let left := tile.column + c.offset.horizontal.toNat
    let top := tile.row + c.offset.vertical.toNat
    if c.index (left + borderWidth - 1) (top + borderHeight - 1) < c.pixels.size then
      .ok (true, c.paint left top borderWidth borderHeight fun i j =>
        mode.combine (tile.colorAt i j))
    else
      .error .outsideBuffer
  else
    .ok (false, c)

/-- The canvas a tile leaves behind, whether it was dropped or not. -/
def tiled (c : Canvas) (data : Payload) (mode : TileMode) : Canvas :=
  let tile := TileBlock.ofPayload data
  if tile.fits c.offset.horizontal c.offset.vertical then
    c.paint (tile.column + c.offset.horizontal.toNat) (tile.row + c.offset.vertical.toNat)
      borderWidth borderHeight fun i j => mode.combine (tile.colorAt i j)
  else
    c

theorem tileBlock_eq_ok (c : Canvas) (data : Payload) (mode : TileMode) :
    c.tileBlock data mode =
      .ok ((TileBlock.ofPayload data).fits c.offset.horizontal c.offset.vertical,
        c.tiled data mode) := by
  by_cases h : (TileBlock.ofPayload data).fits c.offset.horizontal c.offset.vertical = true
  · have hb := (TileBlock.fits_ofPayload data _ _).mp h
    simp only [tileBlock, tiled, h, if_true]
    rw [if_pos]
    simp only [width, height, borderWidth, borderHeight] at hb ⊢
    exact c.index_lt_size (by simp only [width]; omega) (by simp only [height]; omega)
  · simp [tileBlock, tiled, h]

end Canvas
end DiscGraphics
