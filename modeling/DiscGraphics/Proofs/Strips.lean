import DiscGraphics.Proofs.Bytes

/-!
Where a scroll takes each pixel from, strip by strip. Each copy and each fill is a rectangle of the
picture, so the row padding of the target is not touched.
-/
namespace DiscGraphics

theorem eq_ok_of_bind_eq_ok {ε α β : Type} {x : Except ε α} {f : α → Except ε β} {b : β}
    (h : x >>= f = .ok b) : ∃ a, x = .ok a ∧ f a = .ok b := by
  cases x with
  | error e => cases h
  | ok a => exact ⟨a, rfl, h⟩

namespace Canvas

section Padding

variable {src out c : Canvas} {sx sy x y w h : Nat} {color : UInt8} {mode : ScrollMode}

theorem samePadding_of_copyRect (hok : out.copyRect src sx sy x y w h = .ok c) :
    c.SamePadding out := by
  unfold copyRect at hok
  split at hok
  · next hw =>
    split at hok
    · split at hok
      · cases hok
        exact samePadding_paint out hw.2 y h _
      · cases hok
    · cases hok
  · cases hok

theorem samePadding_of_fillRect (hok : out.fillRect x y w h color = .ok c) :
    c.SamePadding out := by
  unfold fillRect at hok
  split at hok
  · next hw =>
    split at hok
    · split at hok
      · cases hok
        exact samePadding_paint out hw y h _
      · cases hok
    · cases hok
  · cases hok

theorem samePadding_of_fillStrip (hok : out.fillStrip src mode color sx sy x y w h = .ok c) :
    c.SamePadding out := by
  cases mode with
  | preset => exact samePadding_of_fillRect hok
  | copy => exact samePadding_of_copyRect hok

theorem samePadding_of_shiftInto {s : ScrollShift} (hok : src.shiftInto out s = .ok c) :
    c.SamePadding out := by
  unfold shiftInto at hok
  dsimp only at hok
  split at hok
  · exact samePadding_of_copyRect hok
  · cases hok
    exact .refl out

theorem samePadding_of_fillVertical {dy : Int} (hok : src.fillVertical out dy mode color = .ok c) :
    c.SamePadding out := by
  unfold fillVertical at hok
  dsimp only at hok
  split at hok
  · obtain ⟨start, -, hfill⟩ := eq_ok_of_bind_eq_ok hok
    exact samePadding_of_fillStrip hfill
  · split at hok
    · obtain ⟨stop, -, hfill⟩ := eq_ok_of_bind_eq_ok hok
      exact samePadding_of_fillStrip hfill
    · cases hok
      exact .refl out

theorem samePadding_of_fillHorizontal {dx : Int}
    (hok : src.fillHorizontal out dx mode color = .ok c) : c.SamePadding out := by
  unfold fillHorizontal at hok
  dsimp only at hok
  split at hok
  · obtain ⟨start, -, hfill⟩ := eq_ok_of_bind_eq_ok hok
    exact samePadding_of_fillStrip hfill
  · split at hok
    · obtain ⟨stop, -, hfill⟩ := eq_ok_of_bind_eq_ok hok
      exact samePadding_of_fillStrip hfill
    · cases hok
      exact .refl out

/-- However far it moves the picture, a scroll that draws leaves the row padding alone. -/
theorem samePadding_of_scrollInto {s : ScrollShift}
    (hok : src.scrollInto out s color mode = .ok c) : c.SamePadding out := by
  unfold scrollInto at hok
  split at hok
  · obtain ⟨moved, hmoved, hrest⟩ := eq_ok_of_bind_eq_ok hok
    obtain ⟨filled, hfilled, hlast⟩ := eq_ok_of_bind_eq_ok hrest
    have hpalette : (out.copyPalette src).SamePadding out := ⟨rfl, fun _ _ => rfl⟩
    have hvertical := samePadding_of_fillVertical hfilled
    have hhorizontal := samePadding_of_fillHorizontal hlast
    exact hhorizontal.trans (hvertical.trans ((samePadding_of_shiftInto hmoved).trans hpalette))
  · cases hok

end Padding

/-- What a scroll shows at a pixel. A positive shift uncovers the strip at the left or above, a
negative one the strip at the right or below; the strip at a side owns the corners. -/
def stripPixel (c : Canvas) (s : ScrollShift) (color : UInt8) (mode : ScrollMode)
    (x y : Nat) : UInt8 :=
  if 0 < s.dx ∧ x < s.dx then mode.fill color (c.pixel (300 - s.dx + x).toNat y)
  else if s.dx < 0 ∧ 300 + s.dx ≤ x then mode.fill color (c.pixel (x - 300 - s.dx).toNat y)
  else if 0 < s.dy ∧ y < s.dy then mode.fill color (c.pixel x (216 - s.dy + y).toNat)
  else if s.dy < 0 ∧ 216 + s.dy ≤ y then mode.fill color (c.pixel x (y - 216 - s.dy).toNat)
  else c.pixel (x - s.dx).toNat (y - s.dy).toNat

/-- A shift of at most the picture's size wraps around at most once. -/
theorem scrolledPixel_eq_stripPixel (c : Canvas) {s : ScrollShift} (hdx : s.dx.natAbs ≤ 300)
    (hdy : s.dy.natAbs ≤ 216) (color : UInt8) (mode : ScrollMode) {x y : Nat} (hx : x < 300)
    (hy : y < 216) : c.scrolledPixel s color mode x y = c.stripPixel s color mode x y := by
  unfold scrolledPixel stripPixel
  simp only [width, height]
  by_cases hleft : 0 < s.dx ∧ x < s.dx
  · rw [if_pos hleft, if_neg (by omega)]
    congr 2
    omega
  rw [if_neg hleft]
  by_cases hright : s.dx < 0 ∧ 300 + s.dx ≤ x
  · rw [if_pos hright, if_neg (by omega)]
    congr 2
    omega
  rw [if_neg hright, if_pos (by omega)]
  by_cases htop : 0 < s.dy ∧ y < s.dy
  · rw [if_pos htop, if_neg (by omega)]
    congr 2
    omega
  rw [if_neg htop]
  by_cases hbottom : s.dy < 0 ∧ 216 + s.dy ≤ y
  · rw [if_pos hbottom, if_neg (by omega)]
    congr 2
    omega
  · rw [if_neg hbottom, if_pos (by omega)]

/-- A scroll by at most the picture's size, into a canvas with rows of the same length, succeeds. It
takes each pixel from where its strip says, and the colours and their flag from the source; the fine
offset and the row padding of the target stay. -/
theorem scrollInto_draws_strips (src out : Canvas) (s : ScrollShift) (color : UInt8)
    (mode : ScrollMode) (hs : src.stride = out.stride) (hdx : s.dx.natAbs ≤ 300)
    (hdy : s.dy.natAbs ≤ 216) :
    ∃ c, src.scrollInto out s color mode = .ok c ∧
      (∀ x < 300, ∀ y < 216, c.pixel x y = src.stripPixel s color mode x y) ∧
      c.palette = src.palette ∧ c.paletteChanged = src.paletteChanged ∧ c.offset = out.offset ∧
      c.SamePadding out := by
  obtain ⟨c, hok, hscrolled⟩ := scrollInto_spec src out hs hdx hdy color mode
  have hpixel : ∀ x < 300, ∀ y < 216, c.pixel x y = src.stripPixel s color mode x y := by
    intro x hx y hy
    rw [hscrolled.pixel hx hy, src.scrolledPixel_eq_stripPixel hdx hdy color mode hx hy]
  exact ⟨c, hok, hpixel, hscrolled.palette, hscrolled.paletteChanged, hscrolled.offset,
    samePadding_of_scrollInto hok⟩

/-- A black picture, but for the pixel at the right end of its top row. -/
def rightmost : Canvas := (blank 307 (by decide)).paint 299 0 1 1 fun _ _ _ => 9

/-- A canvas of the same stride, in one colour, row padding included. -/
def uniform : Canvas := (blank 307 (by decide)).fill 5

/-- A shift to the right and up brings the pixel at the right end to the left strip, at its own
height, and the padding beside it is still that of the target. -/
theorem scrollInto_wraps_rightmost :
    rightmost.stride = uniform.stride ∧ (6 : Int).natAbs ≤ 300 ∧ (-12 : Int).natAbs ≤ 216 ∧
      ∃ c, rightmost.scrollInto uniform ⟨6, -12⟩ 0 .copy = .ok c ∧ c.pixel 5 0 = 9 ∧
        c.pixels[303]? = some 5 := by
  refine ⟨rfl, by decide, by decide, ?_⟩
  obtain ⟨c, hok, hpixel, -, -, -, hpadding⟩ :=
    scrollInto_draws_strips rightmost uniform ⟨6, -12⟩ 0 .copy rfl (by decide) (by decide)
  refine ⟨c, hok, ?_, ?_⟩
  · have horigin : rightmost.stripPixel ⟨6, -12⟩ 0 .copy 5 0 = rightmost.pixel 299 0 := by
      simp [stripPixel, ScrollMode.fill]
    have hmark : rightmost.pixel 299 0 = 9 := by
      rw [rightmost, pixel_paint _ (by decide) _ _ _ (by decide) (by decide), if_pos (by decide)]
    rw [hpixel 5 (by decide) 0 (by decide), horigin, hmark]
  · have hbyte : uniform.pixels[303]? = some 5 := by
      simp only [uniform, fill, stride_blank, height, Array.getElem?_replicate]
      decide
    exact (hpadding.byte 303 (by decide)).trans hbyte

end Canvas
end DiscGraphics
