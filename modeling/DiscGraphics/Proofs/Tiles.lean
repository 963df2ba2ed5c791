import DiscGraphics.Proofs.Bytes

/-!
Tiles. One is painted exactly when its cell, moved by the fine offset, lies on the picture, and then
it changes the 72 pixels of the cell and no other byte.
-/
namespace DiscGraphics

/-- The row of the grid that a payload names. -/
def cellRow (data : Payload) : Nat := (data.third &&& 31).toNat

/-- The column of the grid that a payload names. -/
def cellColumn (data : Payload) : Nat := (data.fourth &&& 63).toNat

/-- The colour that a payload gives to a pixel of its tile; bit 5 of a row is leftmost. -/
def tileColor (data : Payload) (x y : Nat) : UInt8 :=
  if (data.toArray.getD (4 + y) 0).toNat.testBit (5 - x) then data.second &&& 15
  else data.first &&& 15

namespace TileBlock

theorem row_ofPayload (data : Payload) : (ofPayload data).row = 12 * cellRow data :=
  Nat.mul_comm _ _

theorem column_ofPayload (data : Payload) : (ofPayload data).column = 6 * cellColumn data :=
  Nat.mul_comm _ _

theorem testBit_sixBits (b : UInt8) {i : Nat} (h : i < 6) :
    (sixBits b).toNat.testBit i = b.toNat.testBit i := by
  have hmask : (0x3F : UInt8).toNat = 2 ^ 6 - 1 := rfl
  rw [sixBits, UInt8.toNat_and, hmask, Nat.testBit_and, Nat.testBit_two_pow_sub_one]
  simp [h]

theorem colorAt_ofPayload (data : Payload) {x y : Nat} (hx : x < 6) (hy : y < 12) :
    (ofPayload data).colorAt x y = tileColor data x y := by
  have hrow : (ofPayload data).bitmap.toArray.getD y 0 = sixBits (data.toArray.getD (4 + y) 0) := by
    simp [ofPayload, Array.getD, hy, Nat.add_lt_add_left hy 4]
  have hbit : (ofPayload data).bit x y = (data.toArray.getD (4 + y) 0).toNat.testBit (5 - x) := by
    have hplace : borderWidth - 1 - x = 5 - x := rfl
    rw [bit, hrow, hplace, testBit_sixBits _ (by omega)]
  rw [colorAt, hbit, tileColor]
  rfl

end TileBlock

namespace Canvas

/-- Whether the tile of a payload lies on the picture once it is moved by the fine offset. -/
def Fits (c : Canvas) (data : Payload) : Prop :=
  12 * cellRow data + c.offset.vertical.toNat + 12 ≤ 216 ∧
    6 * cellColumn data + c.offset.horizontal.toNat + 6 ≤ 300

instance (c : Canvas) (data : Payload) : Decidable (c.Fits data) :=
  inferInstanceAs (Decidable (_ ∧ _))

/-- The column of the first pixel of a tile. -/
def tileLeft (c : Canvas) (data : Payload) : Nat :=
  6 * cellColumn data + c.offset.horizontal.toNat

/-- The row of the first pixel of a tile. -/
def tileTop (c : Canvas) (data : Payload) : Nat :=
  12 * cellRow data + c.offset.vertical.toNat

theorem fits_iff (c : Canvas) (data : Payload) :
    (TileBlock.ofPayload data).fits c.offset.horizontal c.offset.vertical = true ↔
      c.Fits data := by
  rw [TileBlock.fits_ofPayload, TileBlock.row_ofPayload, TileBlock.column_ofPayload, Fits,
    and_comm]

theorem Fits.left {c : Canvas} {data : Payload} (h : c.Fits data) :
    c.tileLeft data + 6 ≤ width := h.2

theorem Fits.top {c : Canvas} {data : Payload} (h : c.Fits data) :
    c.tileTop data + 12 ≤ height := h.1

theorem tiled_of_fits {c : Canvas} {data : Payload} (h : c.Fits data) (mode : TileMode) :
    c.tiled data mode = c.paint (c.tileLeft data) (c.tileTop data) 6 12 fun i j =>
      mode.combine (tileColor data i j) := by
  rw [tiled, if_pos ((c.fits_iff data).mpr h), TileBlock.row_ofPayload,
    TileBlock.column_ofPayload]
  apply paint_congr
  intro i hi j hj
  rw [TileBlock.colorAt_ofPayload data hi hj]

theorem tiled_of_not_fits {c : Canvas} {data : Payload} (h : ¬ c.Fits data) (mode : TileMode) :
    c.tiled data mode = c :=
  if_neg (mt (c.fits_iff data).mp h)

/-- What a tile that is painted leaves behind: its pixels by its mode, all else as it was. -/
structure Tiled (c : Canvas) (data : Payload) (mode : TileMode) (c' : Canvas) : Prop where
  normal : mode = .normal → ∀ x < 6, ∀ y < 12,
    c'.pixel (c.tileLeft data + x) (c.tileTop data + y) = tileColor data x y
  xor : mode = .xor → ∀ x < 6, ∀ y < 12,
    c'.pixel (c.tileLeft data + x) (c.tileTop data + y) =
      c.pixel (c.tileLeft data + x) (c.tileTop data + y) ^^^ tileColor data x y
  byte : ∀ k, ¬ c.Covers (c.tileLeft data) (c.tileTop data) 6 12 k → c'.pixels[k]? = c.pixels[k]?
  frame : c'.SameFrame c

theorem tiled_spec {c : Canvas} {data : Payload} (h : c.Fits data) (mode : TileMode) :
    c.Tiled data mode (c.tiled data mode) := by
  have hw := h.left
  have hh := h.top
  have hpixel : ∀ x < 6, ∀ y < 12, (c.tiled data mode).pixel (c.tileLeft data + x)
      (c.tileTop data + y) = mode.combine (tileColor data x y)
        (c.pixel (c.tileLeft data + x) (c.tileTop data + y)) := by
    intro x hx y hy
    rw [tiled_of_fits h, pixel_paint c hw _ _ _ (by omega) (by omega),
      if_pos (by omega), Nat.add_sub_cancel_left, Nat.add_sub_cancel_left]
  constructor
  · rintro rfl x hx y hy
    exact hpixel x hx y hy
  · rintro rfl x hx y hy
    exact (hpixel x hx y hy).trans (UInt8.xor_comm _ _)
  · intro k hk
    rw [tiled_of_fits h]
    exact c.getElem?_paint_of_not_covers hw _ hk
  · exact c.sameFrame_tiled data mode

/-- A tile never fails. It is painted exactly when it lies on the picture, and then it changes its
own pixels only; a tile that is dropped changes nothing. -/
theorem tileBlock_paints_exactly (c : Canvas) (data : Payload) (mode : TileMode) :
    ∃ painted c', c.tileBlock data mode = .ok (painted, c') ∧
      (painted = true ↔ 12 * cellRow data + c.offset.vertical.toNat + 12 ≤ 216 ∧
        6 * cellColumn data + c.offset.horizontal.toNat + 6 ≤ 300) ∧
      (painted = true → c.Tiled data mode c') ∧ (painted = false → c' = c) := by
  refine ⟨_, _, c.tileBlock_eq_ok data mode, c.fits_iff data, ?_, ?_⟩
  · intro hpainted
    exact tiled_spec ((c.fits_iff data).mp hpainted) mode
  · intro hdropped
    apply tiled_of_not_fits
    rw [← c.fits_iff data, hdropped]
    exact Bool.false_ne_true

end Canvas
end DiscGraphics
