import DiscGraphics.Picture
import DiscGraphics.Proofs.Invariant

/-!
A picture beside the canvas it was taken of. On a clean canvas the two agree in the colour of every
pixel, whether the border is cut off or not.
-/
namespace DiscGraphics

theorem size_channels (rgb : UInt32) : (channels rgb).size = 3 := rfl

namespace Palette

theorem get_eq_getElem (p : Palette) {i : UInt8} (h : i < 16) :
    p.colors.toArray[i.toNat]? = some (p.get i) := by
  have hlt : i.toNat < 16 := UInt8.lt_iff_toNat_lt.mp h
  have hentry : (entry i).val = i.toNat := Nat.mod_eq_of_lt hlt
  rw [Array.getElem?_eq_getElem (by rw [p.colors.size_toArray]; exact hlt), get]
  simp only [Fin.getElem_fin, hentry, Vector.getElem_toArray]

/-- The table holds three channels an entry. -/
theorem getElem?_channelTable (p : Palette) {i : UInt8} (h : i < 16) {ch : Nat} (hch : ch < 3) :
    p.channelTable[3 * i.toNat + ch]? = (channels (p.get i))[ch]? := by
  rw [channelTable, getElem?_flatMap_of_size (fun rgb _ => size_channels rgb) hch,
    p.get_eq_getElem h, Option.bind_some]

theorem size_channelTable (p : Palette) : p.channelTable.size = 3 * 16 := by
  rw [channelTable, size_flatMap_of_size fun rgb _ => size_channels rgb, p.colors.size_toArray]

theorem getElem?_expand (p : Palette) {indices : Array UInt8} {k : Nat} {i : UInt8}
    (h : indices[k]? = some i) {ch : Nat} (hch : ch < 3) :
    (p.expand indices)[3 * k + ch]? = (channels (p.get i))[ch]? := by
  rw [expand, getElem?_flatMap_of_size (fun _ _ => size_channels _) hch, h, Option.bind_some]

end Palette

namespace Frame

theorem getElem?_rgb (f : Frame) {x y : Nat} (hx : x < 300) (hy : y < 216) {ch : Nat}
    (hch : ch < 3) :
    f.rgb[3 * (300 * y + x) + ch]? =
      (channels (f.canvas.palette.get (f.canvas.pixel x y)))[ch]? :=
  f.canvas.palette.getElem?_expand (f.getElem?_packedPixels hx hy) hch

theorem size_visibleRow (f : Frame) {y : Nat} (hy : y < displayHeight) :
    ((f.canvas.row (borderHeight + y)).extract borderWidth (borderWidth + displayWidth)).size =
      displayWidth := by
  have hrow : borderHeight + y < height := Nat.add_lt_add_left hy 12
  rw [Array.size_extract, f.canvas.size_row hrow]
  rfl

theorem size_visiblePixels (f : Frame) : f.visiblePixels.size = displayWidth * displayHeight :=
  size_flatMap_range fun _ hy => f.size_visibleRow hy

/-- The cropped picture begins right of and below the border. -/
theorem getElem?_visiblePixels (f : Frame) {x y : Nat} (hx : x < displayWidth)
    (hy : y < displayHeight) :
    f.visiblePixels[displayWidth * y + x]? =
      some (f.canvas.pixel (x + borderWidth) (y + borderHeight)) := by
  have hrow : borderHeight + y < height := Nat.add_lt_add_left hy 12
  have hcolumn : borderWidth + x < width := Nat.add_lt_add_left hx 6
  rw [visiblePixels, getElem?_flatMap_range (fun _ hi => f.size_visibleRow hi) hx hy,
    Array.getElem?_extract, if_pos (by rw [f.canvas.size_row hrow]; omega),
    Canvas.row_eq_ofFn f.canvas hrow, Array.getElem?_ofFn, dif_pos hcolumn, Nat.add_comm x,
    Nat.add_comm y]

end Frame

/-- A picture shows a canvas: it has the size asked for and sixteen colours, no index is past the
table, and each pixel, looked up there, has the colours that the canvas has at its place. -/
structure Picture.Shows (p : Picture) (c : Canvas) (crop : Bool) : Prop where
  width : p.width = if crop then 294 else 300
  height : p.height = if crop then 204 else 216
  size_palette : p.palette.size = 3 * 16
  size_indices : p.indices.size = p.width * p.height
  index_lt : ∀ i ∈ p.indices.data, i < 16
  color : ∀ x < p.width, ∀ y < p.height, ∀ ch < 3,
    ∃ i v, p.indices.data[p.width * y + x]? = some i ∧ p.palette[3 * i.toNat + ch]? = some v ∧
      (Frame.mk c).rgb[3 * (300 * (y + if crop then 12 else 0) + (x + if crop then 6 else 0)) +
        ch]? = some v

namespace Frame

/-- The indices of a picture are pixels of the canvas. -/
theorem getElem?_indices (f : Frame) (crop : Bool) {x y : Nat} (hx : x < (f.picture crop).width)
    (hy : y < (f.picture crop).height) :
    (f.picture crop).indices.data[(f.picture crop).width * y + x]? =
      some (f.canvas.pixel (x + if crop then 6 else 0) (y + if crop then 12 else 0)) := by
  cases crop with
  | false =>
    simp only [picture, Bool.false_eq_true, if_false, Nat.add_zero] at hx hy ⊢
    exact f.getElem?_packedPixels hx hy
  | true =>
    simp only [picture, if_true] at hx hy ⊢
    exact f.getElem?_visiblePixels hx hy

theorem size_indices (f : Frame) (crop : Bool) :
    (f.picture crop).indices.size = (f.picture crop).width * (f.picture crop).height := by
  cases crop with
  | false =>
    simp only [picture, Bool.false_eq_true, if_false, ByteArray.size]
    exact f.size_packedPixels
  | true =>
    simp only [picture, if_true, ByteArray.size]
    exact f.size_visiblePixels

/-- Wherever a pixel of a picture comes from, it is on the canvas. -/
theorem onCanvas_of_picture (f : Frame) (crop : Bool) {x y : Nat}
    (hx : x < (f.picture crop).width) (hy : y < (f.picture crop).height) :
    (x + if crop then 6 else 0) < 300 ∧ (y + if crop then 12 else 0) < 216 := by
  cases crop with
  | false =>
    simp only [picture, Bool.false_eq_true, if_false, Nat.add_zero] at hx hy ⊢
    exact ⟨hx, hy⟩
  | true =>
    simp only [picture, if_true, displayWidth, displayHeight] at hx hy ⊢
    omega

/-- What holds of every pixel of the canvas holds of every index of a picture. -/
theorem forall_mem_indices (f : Frame) (crop : Bool) {P : UInt8 → Prop}
    (h : ∀ x < 300, ∀ y < 216, P (f.canvas.pixel x y)) :
    ∀ i ∈ (f.picture crop).indices.data, P i := by
  intro i hi
  obtain ⟨k, hk⟩ := Array.mem_iff_getElem?.mp hi
  obtain ⟨hlt, -⟩ := Array.getElem?_eq_some_iff.mp hk
  replace hlt : k < (f.picture crop).width * (f.picture crop).height :=
    Nat.lt_of_lt_of_eq hlt (f.size_indices crop)
  have hwidth : 0 < (f.picture crop).width := Nat.pos_of_mul_pos_right (Nat.zero_lt_of_lt hlt)
  have hx := Nat.mod_lt k hwidth
  have hy := Nat.div_lt_of_lt_mul hlt
  obtain ⟨hcolumn, hrow⟩ := f.onCanvas_of_picture crop hx hy
  have hpixel := f.getElem?_indices crop hx hy
  rw [Nat.div_add_mod, hk] at hpixel
  rw [Option.some.inj hpixel]
  exact h _ hcolumn _ hrow

theorem palette_picture (f : Frame) (crop : Bool) :
    (f.picture crop).palette = f.canvas.palette.channelTable := by
  cases crop <;> rfl

/-- A picture taken of a clean canvas shows it. -/
theorem picture_shows {c : Canvas} (h : c.Clean) (crop : Bool) :
    ((Frame.mk c).picture crop).Shows c crop := by
  have hpalette := (Frame.mk c).palette_picture crop
  refine ⟨?_, ?_, ?_, (Frame.mk c).size_indices crop, ?_, ?_⟩
  · cases crop <;> rfl
  · cases crop <;> rfl
  · rw [hpalette, c.palette.size_channelTable]
  · exact (Frame.mk c).forall_mem_indices crop fun x hx y hy => h.pixel_lt hx hy
  · intro x hx y hy ch hch
    obtain ⟨hcolumn, hrow⟩ := (Frame.mk c).onCanvas_of_picture crop hx hy
    obtain ⟨v, hv⟩ : ∃ v, (channels (c.palette.get (c.pixel (x + if crop then 6 else 0)
        (y + if crop then 12 else 0))))[ch]? = some v := ⟨_, Array.getElem?_eq_getElem hch⟩
    refine ⟨_, v, (Frame.mk c).getElem?_indices crop hx hy, ?_, ?_⟩
    · rw [hpalette]
      exact (c.palette.getElem?_channelTable (h.pixel_lt hcolumn hrow) hch).trans hv
    · exact ((Frame.mk c).getElem?_rgb hcolumn hrow hch).trans hv

end Frame
end DiscGraphics
