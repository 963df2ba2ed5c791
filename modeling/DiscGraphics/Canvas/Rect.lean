import DiscGraphics.Canvas.Paint

/-!
Filling and copying rectangles. What does not lie on the picture is refused before anything is
drawn.
-/
namespace DiscGraphics.Canvas

/-- Each row of a rectangle is a run of bytes of the buffer. -/
def Spans (c : Canvas) (x y w h : Nat) : Prop :=
  ∀ j < h, c.index x (y + j) + w ≤ c.pixels.size

instance (c : Canvas) (x y w h : Nat) : Decidable (c.Spans x y w h) :=
  inferInstanceAs (Decidable (∀ j < h, _))

theorem spans_of_le (c : Canvas) {x y w h : Nat} (hw : x + w ≤ width) (hh : y + h ≤ height) :
    c.Spans x y w h := by
  intro j hj
  have hs := c.width_le_stride
  have hm : (y + j + 1) * c.stride ≤ height * c.stride := Nat.mul_le_mul_right _ (by omega)
  rw [c.size_pixels, index, Nat.mul_comm c.stride]
  rw [Nat.add_mul, Nat.one_mul] at hm
  omega

def setPixel (c : Canvas) (x y : Nat) (color : UInt8) : Except Fault Canvas :=
  if x < width then
    if y < height then .ok (c.paint x y 1 1 fun _ _ _ => nibble color)
    else .error (.rowOutOfBounds y)
  else
    .error (.columnOutOfBounds x)

/-- Every byte becomes one colour, row padding included. -/
def fill (c : Canvas) (color : UInt8) : Canvas :=
  { c with
    pixels := Array.replicate (c.stride * height) (nibble color)
    size_pixels := Array.size_replicate }

def fillRect (c : Canvas) (x y w h : Nat) (color : UInt8) : Except Fault Canvas :=
  if x + w ≤ width then
    if y + h ≤ height then
      if c.Spans x y w h then .ok (c.paint x y w h fun _ _ _ => nibble color)
      else .error .outsideBuffer
    else
      .error .rectangleTooTall
  else
    .error .rectangleTooWide

def copyRect (c src : Canvas) (sx sy x y w h : Nat) : Except Fault Canvas :=
  if sx + w ≤ width ∧ x + w ≤ width then
    if sy + h ≤ height ∧ y + h ≤ height then
      if src.Spans sx sy w h ∧ c.Spans x y w h then
        .ok (c.paint x y w h fun i j _ => src.pixel (sx + i) (sy + j))
      else
        .error .outsideBuffer
    else
      .error .rectangleTooTall
  else
    .error .rectangleTooWide

theorem setPixel_eq_ok (c : Canvas) {x y : Nat} (hx : x < width) (hy : y < height)
    (color : UInt8) : c.setPixel x y color = .ok (c.paint x y 1 1 fun _ _ _ => nibble color) := by
  rw [setPixel, if_pos hx, if_pos hy]

theorem fillRect_eq_ok (c : Canvas) {x y w h : Nat} (hw : x + w ≤ width) (hh : y + h ≤ height)
    (color : UInt8) :
    c.fillRect x y w h color = .ok (c.paint x y w h fun _ _ _ => nibble color) := by
  rw [fillRect, if_pos hw, if_pos hh, if_pos (c.spans_of_le hw hh)]

theorem copyRect_eq_ok (c src : Canvas) {sx sy x y w h : Nat} (hsw : sx + w ≤ width)
    (hw : x + w ≤ width) (hsh : sy + h ≤ height) (hh : y + h ≤ height) :
    c.copyRect src sx sy x y w h =
      .ok (c.paint x y w h fun i j _ => src.pixel (sx + i) (sy + j)) := by
  rw [copyRect, if_pos ⟨hsw, hw⟩, if_pos ⟨hsh, hh⟩,
    if_pos ⟨src.spans_of_le hsw hsh, c.spans_of_le hw hh⟩]

end DiscGraphics.Canvas
