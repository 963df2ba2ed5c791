import DiscGraphics.Proofs.ColorTable
import DiscGraphics.Proofs.Transcript

/-!
The views of a frame. All of them show the pixels of the canvas and know nothing of the row padding,
whether rows are packed first or written where the last one ended.
-/
namespace DiscGraphics

/-- The opaque channels of some pixels, four bytes each. -/
def Palette.expandOpaque (p : Palette) (indices : List UInt8) : Array UInt8 :=
  indices.toArray.flatMap fun i => opaqueChannels (p.get i)

theorem size_opaqueChannels (rgb : UInt32) : (opaqueChannels rgb).size = 4 := rfl

theorem getElem?_opaqueChannels (rgb : UInt32) {ch : Nat} (hch : ch < 3) :
    (opaqueChannels rgb)[ch]? = (channels rgb)[ch]? := by
  have hlast : ch ≠ (channels rgb).size := by
    rw [size_channels]
    exact Nat.ne_of_lt hch
  rw [opaqueChannels, Array.getElem?_push, if_neg hlast]

namespace Palette

theorem size_expand (p : Palette) (indices : Array UInt8) :
    (p.expand indices).size = 3 * indices.size :=
  size_flatMap_of_size fun _ _ => size_channels _

theorem expandOpaque_cons (p : Palette) (i : UInt8) (rest : List UInt8) :
    p.expandOpaque (i :: rest) = opaqueChannels (p.get i) ++ p.expandOpaque rest := by
  apply Array.toList_inj.mp
  simp [expandOpaque, List.flatMap_toArray]

theorem size_expandOpaque (p : Palette) (indices : List UInt8) :
    (p.expandOpaque indices).size = 4 * indices.length := by
  rw [expandOpaque, size_flatMap_of_size fun _ _ => size_opaqueChannels _, List.size_toArray]

theorem getElem?_expandOpaque (p : Palette) {indices : List UInt8} {k : Nat} {i : UInt8}
    (h : indices[k]? = some i) {ch : Nat} (hch : ch < 4) :
    (p.expandOpaque indices)[4 * k + ch]? = (opaqueChannels (p.get i))[ch]? := by
  rw [expandOpaque, getElem?_flatMap_of_size (fun _ _ => size_opaqueChannels _) hch,
    List.getElem?_toArray, h, Option.bind_some]

end Palette

namespace Writing

variable {start : Nat} {bytes out : Array UInt8}

theorem run_discard {α : Type} {x : Writing α} {a : α} {out' : Array UInt8}
    (h : x out = .ok a out') : (discard x).run out = .ok () out' := by
  change EStateM.map _ x out = _
  rw [EStateM.map, h]

theorem getElem?_overlay (k : Nat) :
    (overlay start bytes out)[k]? = out[k]?.map fun v =>
      if start ≤ k ∧ k < start + bytes.size then bytes.getD (k - start) 0 else v :=
  getElem?_paintRun ..

@[simp] theorem size_overlay : (overlay start bytes out).size = out.size := size_paintRun ..

/-- Two pieces laid over a buffer one behind the other are laid over it as one. -/
theorem overlay_overlay (start : Nat) (bytes more out : Array UInt8) :
    overlay (start + bytes.size) more (overlay start bytes out) =
      overlay start (bytes ++ more) out := by
  apply Array.ext_getElem?
  intro k
  rw [getElem?_overlay, getElem?_overlay, getElem?_overlay, Option.map_map, Array.size_append]
  refine congrFun (congrArg Option.map (funext fun v => ?_)) _
  simp only [Function.comp_apply, Array.getD_eq_getD_getElem?]
  by_cases hmore : start + bytes.size ≤ k ∧ k < start + bytes.size + more.size
  · rw [if_pos hmore, if_pos (by omega), Array.getElem?_append_right (by omega), Nat.sub_add_eq]
  · rw [if_neg hmore]
    by_cases hfirst : start ≤ k ∧ k < start + bytes.size
    · rw [if_pos hfirst, if_pos (by omega), Array.getElem?_append_left (by omega)]
    · rw [if_neg hfirst, if_neg (by omega)]

theorem overwrite_eq_ok (h : start + bytes.size ≤ out.size) :
    overwrite start bytes out = .ok () (overlay start bytes out) :=
  if_pos h

theorem expand_cons (p : Palette) (i : UInt8) (rest : List UInt8) :
    expand p start (i :: rest) =
      overwrite start (opaqueChannels (p.get i)) >>= fun _ => expand p (start + 4) rest := by
  simp only [expand, List.foldlM_cons, bind_assoc, pure_bind]

theorem expand_append (p : Palette) (first later : List UInt8) :
    expand p start (first ++ later) = expand p start first >>= (expand p · later) :=
  List.foldlM_append

/-- Where there is room for them, the pixels are laid over the buffer one behind the other. -/
theorem expand_eq_ok (p : Palette) {indices : List UInt8}
    (h : start + 4 * indices.length ≤ out.size) :
    expand p start indices out =
      .ok (start + 4 * indices.length) (overlay start (p.expandOpaque indices) out) := by
  induction indices generalizing start out with
  | nil =>
    have hnothing : overlay start (p.expandOpaque []) out = out := rfl
    rw [hnothing]
    rfl
  | cons i rest ih =>
    rw [List.length_cons] at h ⊢
    have hfirst : overwrite start (opaqueChannels (p.get i)) out =
        .ok () (overlay start (opaqueChannels (p.get i)) out) :=
      overwrite_eq_ok (by rw [size_opaqueChannels]; omega)
    have hroom : start + 4 + 4 * rest.length ≤
        (overlay start (opaqueChannels (p.get i)) out).size := by
      rw [size_overlay]
      omega
    have hboth := overlay_overlay start (opaqueChannels (p.get i)) (p.expandOpaque rest) out
    rw [size_opaqueChannels] at hboth
    rw [expand_cons, p.expandOpaque_cons, ← hboth]
    change EStateM.bind _ _ out = _
    rw [EStateM.bind, hfirst]
    refine (ih hroom).trans ?_
    congr 1
    omega

/-- Rows that are written one after the other are written as one. -/
theorem foldlM_expand (p : Palette) (rows : List (List UInt8)) :
    rows.foldlM (expand p) start = expand p start rows.flatten := by
  induction rows generalizing start with
  | nil => rfl
  | cons row rest ih =>
    rw [List.foldlM_cons, List.flatten_cons, expand_append]
    exact bind_congr fun _ => ih

end Writing

namespace Frame

theorem toList_packedPixels (f : Frame) :
    f.packedPixels.toList = ((List.range height).map fun y => (f.canvas.row y).toList).flatten := by
  rw [packedPixels, Array.toList_flatMap, Array.toList_range, List.flatMap_def]

/-- The rows come out as the packed picture would. -/
theorem writeRows_eq_ok (f : Frame) {out : Array UInt8} (h : 259200 ≤ out.size) :
    f.writeRows.run out =
      .ok () (Writing.overlay 0 (f.canvas.palette.expandOpaque f.packedPixels.toList) out) := by
  have hlength : 0 + 4 * f.packedPixels.toList.length ≤ out.size := by
    rw [Array.length_toList, f.size_packedPixels]
    omega
  have hrows : (List.range height).foldlM (fun offset y =>
      Writing.expand f.canvas.palette offset (f.canvas.row y).toList) 0 =
        Writing.expand f.canvas.palette 0 f.packedPixels.toList := by
    rw [toList_packedPixels, ← Writing.foldlM_expand, List.foldlM_map]
  have hroom : ¬ out.size < opaqueSize := Nat.not_lt.mpr h
  rw [writeRows, hrows]
  simp only [EStateM.run_bind, EStateM.run_get, hroom, if_false]
  exact Writing.run_discard (Writing.expand_eq_ok _ hlength)

/-- A buffer that is too short is not written to. -/
theorem writeRows_eq_error (f : Frame) {out : Array UInt8} (h : out.size < 259200) :
    f.writeRows.run out = .error .outputTooSmall out := by
  have hroom : out.size < opaqueSize := h
  rw [writeRows]
  simp only [EStateM.run_bind, EStateM.run_get, hroom, if_true]
  rfl

variable (f : Frame)

theorem size_rgb : f.rgb.size = 194400 := by
  rw [rgb, Palette.size_expand, f.size_packedPixels]
  rfl

theorem size_opaquePixels :
    (f.canvas.palette.expandOpaque f.packedPixels.toList).size = 259200 := by
  rw [Palette.size_expandOpaque, Array.length_toList, f.size_packedPixels]
  rfl

/-- What the views in bytes of their own show: the pixels of the canvas whole, the pixels within the
left and the top border, and the channels of the colours that the pixels stand for. -/
structure ShowsPixels : Prop where
  size_packed : f.packedPixels.size = 64800
  size_visible : f.visiblePixels.size = 59976
  size_rgb : f.rgb.size = 194400
  packed : ∀ x < 300, ∀ y < 216, ∃ v, f.canvas.getPixel x y = .ok v ∧
    f.packedPixels[300 * y + x]? = some v
  visible : ∀ x < 294, ∀ y < 204, ∃ v, f.canvas.getPixel (x + 6) (y + 12) = .ok v ∧
    f.visiblePixels[294 * y + x]? = some v
  rgb : ∀ x < 300, ∀ y < 216, ∃ v, f.canvas.getPixel x y = .ok v ∧
    ∀ ch < 3, f.rgb[3 * (300 * y + x) + ch]? = (channels (f.canvas.palette.get v))[ch]?

/-- What becomes of a buffer that the picture is written to: four bytes a pixel, its channels and
full opacity, and behind the picture all is as it was. -/
structure Written (out out' : Array UInt8) : Prop where
  size : out'.size = out.size
  pixel : ∀ x < 300, ∀ y < 216, ∃ v, f.canvas.getPixel x y = .ok v ∧
    (∀ ch < 3, out'[4 * (300 * y + x) + ch]? = (channels (f.canvas.palette.get v))[ch]?) ∧
    out'[4 * (300 * y + x) + 3]? = some 255
  rest : ∀ k, 259200 ≤ k → out'[k]? = out[k]?

/-- Two frames that look the same in every view, and write the same to every buffer. -/
structure SameViews (g : Frame) : Prop where
  packed : f.packedPixels = g.packedPixels
  visible : f.visiblePixels = g.visiblePixels
  rgb : f.rgb = g.rgb
  written : ∀ out, f.writeRows.run out = g.writeRows.run out

theorem showsPixels : f.ShowsPixels := by
  constructor
  · exact f.size_packedPixels
  · exact f.size_visiblePixels
  · exact f.size_rgb
  · intro x hx y hy
    exact ⟨_, f.canvas.getPixel_eq_ok hx hy, f.getElem?_packedPixels hx hy⟩
  · intro x hx y hy
    exact ⟨_, f.canvas.getPixel_eq_ok (Nat.add_lt_add_right hx 6) (Nat.add_lt_add_right hy 12),
      f.getElem?_visiblePixels hx hy⟩
  · intro x hx y hy
    exact ⟨_, f.canvas.getPixel_eq_ok hx hy, fun ch hch => f.getElem?_rgb hx hy hch⟩

/-- Of the buffer's bytes the picture takes the first 259200, four for each pixel. -/
theorem written_overlay {out : Array UInt8} (h : 259200 ≤ out.size) :
    f.Written out
      (Writing.overlay 0 (f.canvas.palette.expandOpaque f.packedPixels.toList) out) := by
  have hbytes := f.size_opaquePixels
  refine ⟨Writing.size_overlay, ?_, ?_⟩
  · intro x hx y hy
    have hbyte {ch : Nat} (hch : ch < 4) :
        (Writing.overlay 0 (f.canvas.palette.expandOpaque f.packedPixels.toList)
          out)[4 * (300 * y + x) + ch]? =
          (opaqueChannels (f.canvas.palette.get (f.canvas.pixel x y)))[ch]? := by
      have hpixel : f.packedPixels.toList[300 * y + x]? = some (f.canvas.pixel x y) := by
        rw [Array.getElem?_toList]
        exact f.getElem?_packedPixels hx hy
      have hchannel := f.canvas.palette.getElem?_expandOpaque hpixel hch
      have hin : 0 ≤ 4 * (300 * y + x) + ch ∧ 4 * (300 * y + x) + ch < 0 + 259200 := by omega
      rw [Writing.getElem?_overlay, hbytes, Array.getElem?_eq_getElem (by omega), Option.map_some,
        if_pos hin, Nat.sub_zero, Array.getD_eq_getD_getElem?, hchannel,
        Array.getElem?_eq_getElem hch, Option.getD_some]
    refine ⟨_, f.canvas.getPixel_eq_ok hx hy, fun ch hch => ?_, hbyte (by decide)⟩
    rw [hbyte (Nat.lt_succ_of_lt hch), getElem?_opaqueChannels _ hch]
  · intro k hk
    rw [Writing.getElem?_overlay, hbytes]
    have hout : ¬ (0 ≤ k ∧ k < 0 + 259200) := by omega
    simp only [if_neg hout, Option.map_id_fun', id_eq]

/-- Pixels and palette are all that shows. The rows may be padded in any way. -/
theorem sameViews {c d : Canvas} (hpalette : d.palette = c.palette)
    (hpixel : ∀ x < 300, ∀ y < 216, d.getPixel x y = c.getPixel x y) :
    (Frame.mk d).SameViews ⟨c⟩ := by
  -- What else a canvas holds shows in no view, so the other canvas's can stand in its place.
  let f : Frame := ⟨{ d with paletteChanged := c.paletteChanged, offset := c.offset }⟩
  have halike : f.canvas.Alike c := by
    refine ⟨fun {x y} hx hy => ?_, hpalette, rfl, rfl⟩
    have hboth := hpixel x hx y hy
    rw [d.getPixel_eq_ok hx hy, c.getPixel_eq_ok hx hy] at hboth
    exact Except.ok.inj hboth
  have hpacked : (Frame.mk d).packedPixels = (Frame.mk c).packedPixels :=
    packedPixels_congr (f := f) halike
  have hvisible : (Frame.mk d).visiblePixels = (Frame.mk c).visiblePixels :=
    visiblePixels_congr (f := f) halike
  have hrgb : (Frame.mk d).rgb = (Frame.mk c).rgb := rgb_congr (f := f) halike
  refine ⟨hpacked, hvisible, hrgb, fun out => ?_⟩
  by_cases hroom : out.size < 259200
  · rw [writeRows_eq_error _ hroom, writeRows_eq_error _ hroom]
  · have hsize := Nat.not_lt.mp hroom
    rw [writeRows_eq_ok _ hsize, writeRows_eq_ok _ hsize, hpacked, hpalette]

/-- The views of a frame agree. The packed picture, the cropped one, its colours and what is written
to a buffer with room for it all show the pixels of the canvas, whatever its stride and its bytes
are; behind the picture the buffer is as it was, and one that is too short is not written to at all.
No view depends on more than the palette and the pixels, so none on a byte of the row padding. -/
theorem views_agree (c : Canvas) :
    (Frame.mk c).ShowsPixels ∧
    (∀ out : Array UInt8, 259200 ≤ out.size →
      ∃ out', (Frame.mk c).writeRows.run out = .ok () out' ∧ (Frame.mk c).Written out out') ∧
    (∀ out : Array UInt8, out.size < 259200 →
      (Frame.mk c).writeRows.run out = .error .outputTooSmall out) ∧
    ∀ d : Canvas, d.palette = c.palette →
      (∀ x < 300, ∀ y < 216, d.getPixel x y = c.getPixel x y) → (Frame.mk d).SameViews ⟨c⟩ := by
  refine ⟨(Frame.mk c).showsPixels, ?_, ?_, fun _ => sameViews⟩
  · intro out hroom
    exact ⟨_, (Frame.mk c).writeRows_eq_ok hroom, (Frame.mk c).written_overlay hroom⟩
  · intro out hroom
    exact (Frame.mk c).writeRows_eq_error hroom

/-- A canvas with padded rows, all bits of its bytes and its row padding in use. -/
def noisy : Canvas := (Canvas.blank 313 (by decide)).mapBytes fun i _ => UInt8.ofNat (i + 17)

/-- The same picture with other padding. -/
def repadded : Canvas := noisy.mapBytes fun i v => if i % 313 < 300 then v else 0xEE

theorem alike_repadded : repadded.Alike noisy :=
  noisy.alike_mapBytes fun _ _ h => if_pos h

theorem views_agree_padded :
    (259200 ≤ (Array.replicate 259203 (0xAA : UInt8)).size ∧
      (Array.replicate 259199 (0xAA : UInt8)).size < 259200 ∧
      repadded.palette = noisy.palette ∧
      ∀ x < 300, ∀ y < 216, repadded.getPixel x y = noisy.getPixel x y) ∧
    (Frame.mk noisy).ShowsPixels ∧
    (∃ out', (Frame.mk noisy).writeRows.run (Array.replicate 259203 0xAA) = .ok () out' ∧
      (Frame.mk noisy).Written (Array.replicate 259203 0xAA) out' ∧ out'[259202]? = some 0xAA) ∧
    (Frame.mk noisy).writeRows.run (Array.replicate 259199 0xAA) =
      .error .outputTooSmall (Array.replicate 259199 0xAA) ∧
    (Frame.mk repadded).SameViews ⟨noisy⟩ := by
  have hlong : 259200 ≤ (Array.replicate 259203 (0xAA : UInt8)).size := by
    rw [Array.size_replicate]
    decide
  have hshort : (Array.replicate 259199 (0xAA : UInt8)).size < 259200 := by
    rw [Array.size_replicate]
    decide
  have hpalette := alike_repadded.palette
  have hpixel : ∀ x < 300, ∀ y < 216, repadded.getPixel x y = noisy.getPixel x y := by
    intro x hx y hy
    rw [repadded.getPixel_eq_ok hx hy, noisy.getPixel_eq_ok hx hy, alike_repadded.pixel hx hy]
  obtain ⟨hshows, hwrite, hrefuse, hsame⟩ := views_agree noisy
  obtain ⟨out', hok, hwritten⟩ := hwrite _ hlong
  refine ⟨⟨hlong, hshort, hpalette, hpixel⟩, hshows, ⟨out', hok, hwritten, ?_⟩, hrefuse _ hshort,
    hsame repadded hpalette hpixel⟩
  rw [hwritten.rest 259202 (by decide), Array.getElem?_replicate, if_pos (by decide)]

end Frame
end DiscGraphics
