import DiscGraphics.Canvas.PaletteLoad
import DiscGraphics.Canvas.Preset
import DiscGraphics.Canvas.Scrolled
import DiscGraphics.Canvas.Tile
import DiscGraphics.Frame

/-!
What shows of a canvas, whatever the length of its rows and whatever lies in the padding. Canvases
that show the same go on to show the same under every drawing step.
-/
namespace DiscGraphics
namespace Canvas

theorem stride_pos (c : Canvas) : 0 < c.stride :=
  Nat.lt_of_lt_of_le (by decide) c.width_le_stride

/-- Every byte of the buffer lies in one of the rows. -/
theorem div_stride_lt {c : Canvas} {k : Nat} (h : k < c.pixels.size) : k / c.stride < height := by
  rw [c.size_pixels] at h
  exact Nat.div_lt_of_lt_mul h

/-- Two canvases are equal if they agree in all but their pixels and in every byte of every row. -/
theorem ext_bytes {c d : Canvas} (h : c.SameFrame d)
    (hb : ∀ a < c.stride, ∀ b < height, c.pixels[b * c.stride + a]? = d.pixels[b * c.stride + a]?) :
    c = d := by
  have hpixels : c.pixels = d.pixels := by
    have hsize : c.pixels.size = d.pixels.size := by rw [c.size_pixels, d.size_pixels, h.stride]
    apply Array.ext_getElem?
    intro k
    by_cases hk : k < c.pixels.size
    · have hsplit := hb (k % c.stride) (Nat.mod_lt k c.stride_pos) (k / c.stride) (div_stride_lt hk)
      rwa [Nat.mul_comm, Nat.div_add_mod] at hsplit
    · rw [Array.getElem?_eq_none (by omega), Array.getElem?_eq_none (by omega)]
  obtain ⟨hs, hp, hf, ho⟩ := h
  cases c
  cases d
  cases hs
  cases hpixels
  cases hp
  cases hf
  cases ho
  rfl

theorem pixel_blank (stride : Nat) (h : width ≤ stride) (x y : Nat) :
    (blank stride h).pixel x y = 0 := by
  simp only [pixel, blank, Array.getD_eq_getD_getElem?, Array.getElem?_replicate]
  split <;> rfl

theorem pixel_fill (c : Canvas) (color : UInt8) {x y : Nat} (hx : x < width) (hy : y < height) :
    (c.fill color).pixel x y = nibble color := by
  have hlt : c.index x y < c.stride * height := c.size_pixels ▸ c.index_lt_size hx hy
  have hi : (c.fill color).index x y = c.index x y := rfl
  rw [pixel, hi, fill, Array.getD_eq_getD_getElem?, Array.getElem?_replicate, if_pos hlt]
  rfl

theorem sameFrame_fill (c : Canvas) (color : UInt8) : SameFrame (c.fill color) c :=
  ⟨rfl, rfl, rfl, rfl⟩

theorem sameFrame_memoryPreset (c : Canvas) (data : Payload) :
    SameFrame (c.memoryPreset data) c := by
  unfold memoryPreset
  split
  · exact c.sameFrame_fill _
  · exact .refl c

theorem sameFrame_paintBorder (c : Canvas) (color : UInt8) : SameFrame (c.paintBorder color) c :=
  (sameFrame_paint ..).trans <| (sameFrame_paint ..).trans <|
    (sameFrame_paint ..).trans (sameFrame_paint ..)

theorem sameFrame_tiled (c : Canvas) (data : Payload) (mode : TileMode) :
    SameFrame (c.tiled data mode) c := by
  unfold tiled
  dsimp only
  split
  · exact sameFrame_paint ..
  · exact .refl c

theorem row_eq_ofFn (c : Canvas) {y : Nat} (hy : y < height) :
    c.row y = Array.ofFn fun x : Fin width => c.pixel x y := by
  have hs : c.index 0 y + width ≤ c.pixels.size := c.spans_of_le (h := 1) (by simp) hy 0 (by simp)
  apply Array.ext
  · rw [row, Array.size_extract, Array.size_ofFn]
    omega
  · intro x hx₁ hx₂
    rw [Array.size_ofFn] at hx₂
    have hlt := c.index_lt_size hx₂ hy
    have hi : c.index 0 y + x = c.index x y := by simp only [index]; omega
    simp only [row, Array.getElem_extract, Array.getElem_ofFn, pixel, hi]
    rw [Array.getD_eq_getD_getElem?, Array.getElem?_eq_getElem hlt, Option.getD_some]

/-- Two canvases show the same picture, in the same colours and with the same fine offset. -/
structure Alike (c d : Canvas) : Prop where
  pixel : ∀ {x y : Nat}, x < width → y < height → c.pixel x y = d.pixel x y
  palette : c.palette = d.palette
  paletteChanged : c.paletteChanged = d.paletteChanged
  offset : c.offset = d.offset

namespace Alike

variable {c d : Canvas}

theorem blank {s t : Nat} (hs : width ≤ s) (ht : width ≤ t) :
    Alike (Canvas.blank s hs) (Canvas.blank t ht) :=
  ⟨fun _ _ => by rw [pixel_blank, pixel_blank], rfl, rfl, rfl⟩

theorem row (h : Alike c d) {y : Nat} (hy : y < height) : c.row y = d.row y := by
  rw [row_eq_ofFn c hy, row_eq_ofFn d hy]
  congr 1
  funext x
  exact h.pixel x.isLt hy

/-- One rule painted over one rectangle of the picture keeps two canvases alike. -/
theorem paint (h : Alike c d) {x w : Nat} (hw : x + w ≤ width) (y n : Nat)
    (f : Nat → Nat → UInt8 → UInt8) : Alike (c.paint x y w n f) (d.paint x y w n f) := by
  refine ⟨?_, h.palette, h.paletteChanged, h.offset⟩
  intro a b ha hb
  rw [pixel_paint c hw y n f ha hb, pixel_paint d hw y n f ha hb, h.pixel ha hb]

theorem fill (h : Alike c d) (color : UInt8) : Alike (c.fill color) (d.fill color) := by
  refine ⟨?_, h.palette, h.paletteChanged, h.offset⟩
  intro a b ha hb
  rw [pixel_fill c color ha hb, pixel_fill d color ha hb]

theorem memoryPreset (h : Alike c d) (data : Payload) :
    Alike (c.memoryPreset data) (d.memoryPreset data) := by
  unfold Canvas.memoryPreset
  split
  · exact h.fill _
  · exact h

theorem paintBorder (h : Alike c d) (color : UInt8) :
    Alike (c.paintBorder color) (d.paintBorder color) :=
  (((h.paint (by decide) _ _ _).paint (by decide) _ _ _).paint (by decide) _ _ _).paint
    (by decide) _ _ _

/-- Whether a tile fits depends on the fine offset alone, not on the rows. -/
theorem tiled (h : Alike c d) (data : Payload) (mode : TileMode) :
    Alike (c.tiled data mode) (d.tiled data mode) := by
  unfold Canvas.tiled
  rw [← h.offset]
  dsimp only
  split
  · next hfit =>
    have hc := (TileBlock.fits_ofPayload data _ _).mp hfit
    exact h.paint hc.1 _ _ _
  · exact h

theorem loadPalette (h : Alike c d) (data : Payload) (half : PaletteHalf) :
    Alike (c.loadPalette data half) (d.loadPalette data half) := by
  refine ⟨h.pixel, ?_, rfl, h.offset⟩
  change c.palette.load data half = d.palette.load data half
  rw [h.palette]

theorem setOffset (h : Alike c d) (hs vs : UInt8) :
    Alike (c.setOffset hs vs) (d.setOffset hs vs) :=
  ⟨h.pixel, h.palette, h.paletteChanged, rfl⟩

theorem clearPaletteChanged (h : Alike c d) :
    Alike c.clearPaletteChanged d.clearPaletteChanged :=
  ⟨h.pixel, h.palette, rfl, h.offset⟩

/-- What a scroll shows depends on what shows before. -/
theorem scrolledPixel (h : Alike c d) (s : ScrollShift) (color : UInt8) (mode : ScrollMode)
    {x y : Nat} (hx : x < width) (hy : y < height) :
    c.scrolledPixel s color mode x y = d.scrolledPixel s color mode x y := by
  simp only [width, height] at hx hy
  unfold Canvas.scrolledPixel
  dsimp only
  split
  · split
    · rw [h.pixel (by simp only [width] at *; omega) (by simp only [height] at *; omega)]
    · rw [h.pixel hx (by simp only [height]; omega)]
  · rw [h.pixel (by simp only [width]; omega) hy]

/-- Alike canvases, scrolled into any targets with one fine offset, are alike again. -/
theorem of_scrolled (h : Alike c d) {out out' c' d' : Canvas} {s : ScrollShift} {color : UInt8}
    {mode : ScrollMode} (hc : Scrolled c out s color mode c') (hd : Scrolled d out' s color mode d')
    (hs vs : UInt8) : Alike (c'.setOffset hs vs) (d'.setOffset hs vs) := by
  refine ⟨?_, ?_, ?_, rfl⟩
  · intro x y hx hy
    exact (hc.pixel hx hy).trans ((h.scrolledPixel s color mode hx hy).trans (hd.pixel hx hy).symm)
  · exact hc.palette.trans (h.palette.trans hd.palette.symm)
  · exact hc.paletteChanged.trans (h.paletteChanged.trans hd.paletteChanged.symm)

end Alike

theorem size_row (c : Canvas) {y : Nat} (hy : y < height) : (c.row y).size = width := by
  rw [row_eq_ofFn c hy, Array.size_ofFn]

end Canvas

theorem size_flatMap_of_size {α β : Type} {w : Nat} {g : α → Array β} {xs : Array α}
    (hg : ∀ a ∈ xs, (g a).size = w) : (xs.flatMap g).size = w * xs.size := by
  have hsizes : xs.toList.map (fun a => (g a).size) = List.replicate xs.size w := by
    rw [← Array.length_toList]
    exact List.map_eq_replicate_iff.mpr fun a ha => hg a (Array.mem_toList_iff.mp ha)
  rw [Array.size_flatMap, ← Array.sum_toList, Array.toList_map, hsizes, List.sum_replicate_nat,
    Nat.mul_comm]

/-- Of pieces of one length laid end to end, a byte is found by its piece and its place in it. -/
theorem getElem?_flatMap_of_size {α β : Type} {w : Nat} {g : α → Array β} {xs : Array α}
    (hg : ∀ a ∈ xs, (g a).size = w) {i j : Nat} (hj : j < w) :
    (xs.flatMap g)[w * i + j]? = xs[i]?.bind fun a => (g a)[j]? := by
  obtain ⟨pieces⟩ := xs
  rw [List.flatMap_toArray]
  simp only [List.getElem?_toArray]
  replace hg : ∀ a ∈ pieces, (g a).size = w := fun a ha => hg a (List.mem_toArray.mpr ha)
  induction pieces generalizing i with
  | nil => simp
  | cons a rest ih =>
    obtain ⟨ha, hrest⟩ := List.forall_mem_cons.mp hg
    have hlen : (g a).toList.length = w := by rw [Array.length_toList, ha]
    rw [List.flatMap_cons]
    cases i with
    | zero =>
      rw [Nat.mul_zero, Nat.zero_add, List.getElem?_append_left (by rw [hlen]; exact hj)]
      simp
    | succ i =>
      have hplace : w * (i + 1) + j = (g a).toList.length + (w * i + j) := by
        rw [hlen, Nat.mul_succ]
        omega
      rw [hplace, List.getElem?_append_right (Nat.le_add_right _ _), Nat.add_sub_cancel_left,
        List.getElem?_cons_succ]
      exact ih hrest

theorem size_flatMap_range {w n : Nat} {g : Nat → Array UInt8} (hg : ∀ i < n, (g i).size = w) :
    ((Array.range n).flatMap g).size = w * n := by
  rw [size_flatMap_of_size fun i hi => hg i (Array.mem_range.mp hi), Array.size_range]

theorem getElem?_flatMap_range {w n : Nat} {g : Nat → Array UInt8}
    (hg : ∀ i < n, (g i).size = w) {x y : Nat} (hx : x < w) (hy : y < n) :
    ((Array.range n).flatMap g)[w * y + x]? = (g y)[x]? := by
  rw [getElem?_flatMap_of_size (fun i hi => hg i (Array.mem_range.mp hi)) hx,
    Array.getElem?_range, if_pos hy, Option.bind_some]

namespace Frame

theorem size_packedPixels (f : Frame) : f.packedPixels.size = width * height :=
  size_flatMap_range fun _ hy => f.canvas.size_row hy

/-- The packed picture holds the pixels row after row. -/
theorem getElem?_packedPixels (f : Frame) {x y : Nat} (hx : x < width) (hy : y < height) :
    f.packedPixels[width * y + x]? = some (f.canvas.pixel x y) := by
  rw [packedPixels, getElem?_flatMap_range (fun _ hi => f.canvas.size_row hi) hx hy,
    Canvas.row_eq_ofFn f.canvas hy, Array.getElem?_ofFn, dif_pos hx]

variable {f g : Frame}

theorem packedPixels_congr (h : f.canvas.Alike g.canvas) : f.packedPixels = g.packedPixels := by
  rw [packedPixels, packedPixels, Array.flatMap_def, Array.flatMap_def]
  congr 1
  apply Array.map_congr_left
  intro y hy
  exact h.row (Array.mem_range.mp hy)

theorem visiblePixels_congr (h : f.canvas.Alike g.canvas) :
    f.visiblePixels = g.visiblePixels := by
  rw [visiblePixels, visiblePixels, Array.flatMap_def, Array.flatMap_def]
  congr 1
  apply Array.map_congr_left
  intro y hy
  have hlt : y < displayHeight := Array.mem_range.mp hy
  have hrow : borderHeight + y < height := by
    simp only [borderHeight, displayHeight, height] at hlt ⊢
    omega
  rw [h.row hrow]

theorem rgb_congr (h : f.canvas.Alike g.canvas) : f.rgb = g.rgb := by
  rw [rgb, rgb, h.palette, packedPixels_congr h]

end Frame
end DiscGraphics
