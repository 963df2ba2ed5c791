import DiscGraphics.Proofs.Palette
import DiscGraphics.Proofs.Picture
import DiscGraphics.Snapshot

/-!
What a snapshot draws, byte for byte. Drawing twice is drawing once, and a decoder that shows a
drawn snapshot is captured as one that draws the same.
-/
namespace DiscGraphics

namespace Palette

theorem get_ofColors (colors : Array UInt32) (i : Fin 16) :
    (ofColors colors).colors.get i = colors.getD i.val 0 &&& 0xFFFFFF := by
  change (ofColors colors).colors[i.val] = _
  rw [ofColors, Vector.getElem_ofFn]

theorem getD_colors (p : Palette) (i : Fin 16) :
    p.colors.toArray.getD i.val 0 = p.colors.get i := by
  change _ = p.colors[i.val]
  simp [Array.getD]

theorem ofColors_colors_ofColors (colors : Array UInt32) :
    ofColors (ofColors colors).colors.toArray = ofColors colors := by
  apply ext_colors
  intro i
  rw [get_ofColors, getD_colors, get_ofColors, UInt32.and_assoc, UInt32.and_self]

end Palette

namespace Canvas

/-- Give a canvas a palette, a mark for it and a fine offset. -/
def dress (c : Canvas) (p : Palette) (changed : Bool) (h v : UInt8) : Canvas :=
  { c.setOffset h v with palette := p, paletteChanged := changed }

section Dress

variable (c : Canvas) (p : Palette) (changed : Bool) (h v : UInt8)

theorem dress_eq :
    c.dress p changed h v = (if changed then (c.setPalette p).markPaletteChanged
      else (c.setPalette p).clearPaletteChanged).setOffset h v := by
  cases changed <;> rfl

@[simp] theorem stride_dress : (c.dress p changed h v).stride = c.stride := rfl

@[simp] theorem pixels_dress : (c.dress p changed h v).pixels = c.pixels := rfl

@[simp] theorem palette_dress : (c.dress p changed h v).palette = p := rfl

@[simp] theorem paletteChanged_dress : (c.dress p changed h v).paletteChanged = changed := rfl

@[simp] theorem offset_dress : (c.dress p changed h v).offset = .clamp h v := rfl

@[simp] theorem pixel_dress (x y : Nat) : (c.dress p changed h v).pixel x y = c.pixel x y := rfl

end Dress

theorem dress_congr (c : Canvas) (p : Palette) (changed : Bool) {h v h' v' : UInt8}
    (ho : FineOffset.clamp h v = .clamp h' v') :
    c.dress p changed h v = c.dress p changed h' v' := by
  simp only [dress, setOffset, ho]

theorem getElem?_paintAll (c : Canvas) (pixels : Array UInt8) {a : Nat} (ha : a < c.stride)
    {b : Nat} (hb : b < height) :
    (c.paintAll pixels).pixels[b * c.stride + a]? = c.pixels[b * c.stride + a]?.map fun v =>
      if a < width then nibble (pixels.getD (width * b + a) 0) else v := by
  have hin : (0 ≤ a ∧ a < 0 + width ∧ 0 ≤ b ∧ b < 0 + height) ↔ a < width := by omega
  have hrows := getElem?_paintRows (x := 0) (w := width) (by simpa using c.width_le_stride) 0 height
    (fun i j _ => nibble (pixels.getD (width * j + i) 0)) c.pixels ha b
  simp only [hin, Nat.sub_zero] at hrows
  rw [paintAll, paint, hrows]

theorem pixel_paintAll (c : Canvas) (pixels : Array UInt8) {x y : Nat} (hx : x < width)
    (hy : y < height) :
    (c.paintAll pixels).pixel x y = nibble (pixels.getD (width * y + x) 0) := by
  have hin : 0 ≤ x ∧ x < 0 + width ∧ 0 ≤ y ∧ y < 0 + height := by omega
  rw [paintAll, pixel_paint c (by simp) 0 height _ hx hy, if_pos hin, Nat.sub_zero, Nat.sub_zero]

theorem paintAll_congr (c : Canvas) {p q : Array UInt8}
    (h : ∀ i < width, ∀ j < height,
      nibble (p.getD (width * j + i) 0) = nibble (q.getD (width * j + i) 0)) :
    c.paintAll p = c.paintAll q := by
  rw [paintAll, paintAll]
  apply c.paint_congr 0 0
  intro i hi j hj
  funext v
  exact h i hi j hj

theorem sameFrame_paintAll (c : Canvas) (pixels : Array UInt8) : SameFrame (c.paintAll pixels) c :=
  sameFrame_paint ..

end Canvas

namespace Snapshot

variable {α : Type}

theorem draw_eq_dress (s : Snapshot) (c : Canvas) :
    s.draw c =
      (c.paintAll s.pixels).dress (.ofColors s.palette) s.paletteChanged s.horizontal s.vertical :=
  rfl

@[simp] theorem stride_draw (s : Snapshot) (c : Canvas) : (s.draw c).stride = c.stride := by
  rw [draw_eq_dress, Canvas.stride_dress, (c.sameFrame_paintAll s.pixels).stride]

@[simp] theorem palette_draw (s : Snapshot) (c : Canvas) :
    (s.draw c).palette = .ofColors s.palette := by
  rw [draw_eq_dress, Canvas.palette_dress]

@[simp] theorem paletteChanged_draw (s : Snapshot) (c : Canvas) :
    (s.draw c).paletteChanged = s.paletteChanged := by
  rw [draw_eq_dress, Canvas.paletteChanged_dress]

@[simp] theorem offset_draw (s : Snapshot) (c : Canvas) :
    (s.draw c).offset = .clamp s.horizontal s.vertical := by
  rw [draw_eq_dress, Canvas.offset_dress]

theorem getElem?_draw (s : Snapshot) (c : Canvas) {a : Nat} (ha : a < c.stride) {b : Nat}
    (hb : b < height) :
    (s.draw c).pixels[b * c.stride + a]? = c.pixels[b * c.stride + a]?.map fun v =>
      if a < width then nibble (s.pixels.getD (width * b + a) 0) else v := by
  rw [draw_eq_dress, Canvas.pixels_dress, c.getElem?_paintAll s.pixels ha hb]

theorem pixel_draw (s : Snapshot) (c : Canvas) {x y : Nat} (hx : x < width) (hy : y < height) :
    (s.draw c).pixel x y = nibble (s.pixels.getD (width * y + x) 0) := by
  rw [draw_eq_dress, Canvas.pixel_dress, c.pixel_paintAll s.pixels hx hy]

/-- Drawing a snapshot twice is drawing it once. -/
theorem draw_draw (s : Snapshot) (c : Canvas) : s.draw (s.draw c) = s.draw c := by
  have hframe : (s.draw (s.draw c)).SameFrame (s.draw c) := by
    constructor <;> simp only [stride_draw, palette_draw, paletteChanged_draw, offset_draw]
  apply Canvas.ext_bytes hframe
  intro a ha b hb
  have htwice := s.getElem?_draw (s.draw c) (hframe.stride ▸ ha) hb
  simp only [stride_draw] at ha htwice ⊢
  rw [htwice, s.getElem?_draw c ha hb, Option.map_map]
  refine congrFun (congrArg Option.map (funext fun v => ?_)) _
  by_cases hin : a < width <;> simp [hin]

theorem getElem?_draw_padding (s : Snapshot) (c : Canvas) {k : Nat} (hk : width ≤ k % c.stride) :
    (s.draw c).pixels[k]? = c.pixels[k]? := by
  have hsize : (s.draw c).pixels.size = c.pixels.size := by
    rw [(s.draw c).size_pixels, c.size_pixels, stride_draw]
  by_cases hlt : k < c.pixels.size
  · have hdraw := s.getElem?_draw c (Nat.mod_lt k c.stride_pos) (Canvas.div_stride_lt hlt)
    rw [Nat.mul_comm, Nat.div_add_mod] at hdraw
    rw [hdraw]
    simp only [if_neg (Nat.not_lt.mpr hk), Option.map_id_fun', id_eq]
  · rw [Array.getElem?_eq_none (by omega), Array.getElem?_eq_none (by omega)]

/-- A snapshot of a decoder that shows a drawn snapshot draws the same. -/
theorem draw_ofDecoder (s : Snapshot) {d : Decoder α} {c : Canvas} (h : d.canvas = s.draw c)
    (timestamp : String) (k : Canvas) : (ofDecoder d timestamp).draw k = s.draw k := by
  have hpainted : k.paintAll (ofDecoder d timestamp).pixels = k.paintAll s.pixels := by
    apply k.paintAll_congr
    intro i hi j hj
    have hpixel : d.frame.canvas.pixel i j = nibble (s.pixels.getD (width * j + i) 0) := by
      rw [Decoder.frame, h, s.pixel_draw c hi hj]
    rw [ofDecoder, Array.getD_eq_getD_getElem?, d.frame.getElem?_packedPixels hi hj,
      Option.getD_some, hpixel, nibble_nibble]
  have hcolors : Palette.ofColors (ofDecoder d timestamp).palette = .ofColors s.palette := by
    rw [ofDecoder, h, palette_draw, Palette.ofColors_colors_ofColors]
  have hoffset : FineOffset.clamp (ofDecoder d timestamp).horizontal
      (ofDecoder d timestamp).vertical = .clamp s.horizontal s.vertical := by
    rw [ofDecoder, h, offset_draw, FineOffset.clamp_self]
  have hchanged : (ofDecoder d timestamp).paletteChanged = s.paletteChanged := by
    rw [ofDecoder, h, paletteChanged_draw]
  rw [draw_eq_dress, draw_eq_dress, hpainted, hcolors, hchanged]
  exact Canvas.dress_congr _ _ _ hoffset

end Snapshot
end DiscGraphics
