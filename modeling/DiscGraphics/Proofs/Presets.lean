import DiscGraphics.Proofs.Tiles

/-!
Presets. A memory preset fills the whole buffer; the four bands of a border preset cover the border
and reach neither into the interior nor into the row padding.
-/
namespace DiscGraphics

/-- A rectangle of pixels. -/
structure Rectangle where
  left : Nat
  top : Nat
  columns : Nat
  rows : Nat
  deriving DecidableEq

namespace Rectangle

/-- Whether a pixel lies in a rectangle. -/
def Holds (r : Rectangle) (x y : Nat) : Prop :=
  r.left ≤ x ∧ x < r.left + r.columns ∧ r.top ≤ y ∧ y < r.top + r.rows

instance (r : Rectangle) (x y : Nat) : Decidable (r.Holds x y) :=
  inferInstanceAs (Decidable (_ ∧ _ ∧ _ ∧ _))

/-- Whether two rectangles have no pixel in common, as they lie side by side or one above the
other. -/
def Apart (r s : Rectangle) : Prop :=
  r.left + r.columns ≤ s.left ∨ s.left + s.columns ≤ r.left ∨ r.top + r.rows ≤ s.top ∨
    s.top + s.rows ≤ r.top

/-- The bands of the border: at the top, at the bottom, and at the sides between them. -/
def border : List Rectangle :=
  [⟨0, 0, 300, 12⟩, ⟨0, 204, 300, 12⟩, ⟨0, 12, 6, 192⟩, ⟨294, 12, 6, 192⟩]

theorem right_le_of_border {r : Rectangle} (h : r ∈ border) : r.left + r.columns ≤ width := by
  revert r
  decide

end Rectangle

namespace Canvas

/-- Fill some rectangles with one colour. -/
def fillAll (c : Canvas) (color : UInt8) (rs : List Rectangle) : Canvas :=
  rs.foldl (fun c r => c.paint r.left r.top r.columns r.rows fun _ _ _ => nibble color) c

theorem paintBorder_eq_fillAll (c : Canvas) (color : UInt8) :
    c.paintBorder color = c.fillAll color Rectangle.border := rfl

section Fill

variable {color : UInt8} {rs : List Rectangle}

/-- A byte within one of the rectangles takes on the colour, any other is as before. -/
theorem getElem?_fillAll (hrs : ∀ r ∈ rs, r.left + r.columns ≤ width) (c : Canvas)
    (color : UInt8) {a : Nat} (ha : a < c.stride) (b : Nat) :
    (c.fillAll color rs).pixels[c.index a b]? = c.pixels[c.index a b]?.map fun v =>
      if ∃ r ∈ rs, r.Holds a b then nibble color else v := by
  induction rs generalizing c with
  | nil => simp [fillAll]
  | cons r rest ih =>
    obtain ⟨hr, hrest⟩ := List.forall_mem_cons.mp hrs
    let d := c.paint r.left r.top r.columns r.rows fun _ _ _ => nibble color
    have hfirst : d.pixels[c.index a b]? = c.pixels[c.index a b]?.map fun v =>
        if r.Holds a b then nibble color else v := c.getElem?_paint hr r.top r.rows _ ha b
    have hlater : (d.fillAll color rest).pixels[c.index a b]? = d.pixels[c.index a b]?.map fun v =>
        if ∃ s ∈ rest, s.Holds a b then nibble color else v := ih hrest d ha
    have hholds : (∃ s ∈ r :: rest, s.Holds a b) ↔ r.Holds a b ∨ ∃ s ∈ rest, s.Holds a b := by
      simp only [List.mem_cons, exists_eq_or_imp]
    rw [fillAll, List.foldl_cons]
    refine hlater.trans ?_
    rw [hfirst, Option.map_map]
    refine congrFun (congrArg Option.map (funext fun v => ?_)) _
    simp only [Function.comp_apply, hholds]
    by_cases hin : r.Holds a b <;> simp [hin]

theorem samePadding_fillAll (hrs : ∀ r ∈ rs, r.left + r.columns ≤ width) (c : Canvas) :
    SamePadding (c.fillAll color rs) c := by
  induction rs generalizing c with
  | nil => exact .refl c
  | cons r rest ih =>
    obtain ⟨hr, hrest⟩ := List.forall_mem_cons.mp hrs
    exact (ih hrest _).trans (c.samePadding_paint hr ..)

/-- What lies apart from the rectangles can be painted before they are filled or after. -/
theorem paint_fillAll (hrs : ∀ r ∈ rs, r.left + r.columns ≤ width) (c : Canvas) {s : Rectangle}
    (hs : s.left + s.columns ≤ width) (hapart : ∀ r ∈ rs, r.Apart s)
    (f : Nat → Nat → UInt8 → UInt8) :
    (c.fillAll color rs).paint s.left s.top s.columns s.rows f =
      (c.paint s.left s.top s.columns s.rows f).fillAll color rs := by
  induction rs generalizing c with
  | nil => rfl
  | cons r rest ih =>
    obtain ⟨hr, hrest⟩ := List.forall_mem_cons.mp hrs
    obtain ⟨hfirst, hlater⟩ := List.forall_mem_cons.mp hapart
    rw [fillAll, List.foldl_cons]
    refine (ih hrest _ hlater).trans ?_
    rw [paint_comm c hr hs hfirst]
    rfl

end Fill

/-- Whether a pixel of the picture belongs to the border. -/
def OnBorder (x y : Nat) : Prop := x < 6 ∨ 294 ≤ x ∨ y < 12 ∨ 204 ≤ y

instance (x y : Nat) : Decidable (OnBorder x y) := inferInstanceAs (Decidable (_ ∨ _))

/-- The four bands together are the border, and nothing else is. -/
theorem holds_border_iff {x y : Nat} (hy : y < height) :
    (∃ r ∈ Rectangle.border, r.Holds x y) ↔ x < width ∧ OnBorder x y := by
  simp only [Rectangle.border, List.mem_cons, List.not_mem_nil, or_false, exists_eq_or_imp,
    exists_eq_left, Rectangle.Holds, OnBorder, width]
  simp only [height] at hy
  omega

/-- Whether the tile of a payload lies within the border once it is moved by the fine offset. -/
def FitsInside (c : Canvas) (data : Payload) : Prop :=
  (6 ≤ c.tileLeft data ∧ c.tileLeft data + 6 ≤ 294) ∧
    12 ≤ c.tileTop data ∧ c.tileTop data + 12 ≤ 204

instance (c : Canvas) (data : Payload) : Decidable (c.FitsInside data) :=
  inferInstanceAs (Decidable ((_ ∧ _) ∧ _ ∧ _))

theorem FitsInside.fits {c : Canvas} {data : Payload} (h : c.FitsInside data) : c.Fits data :=
  ⟨Nat.le_trans h.2.2 (by decide), Nat.le_trans h.1.2 (by decide)⟩

section Border

variable (c : Canvas) (color : UInt8)

theorem getElem?_paintBorder {a : Nat} (ha : a < c.stride) {b : Nat} (hb : b < height) :
    (c.paintBorder color).pixels[c.index a b]? = c.pixels[c.index a b]?.map fun v =>
      if a < width ∧ OnBorder a b then nibble color else v := by
  have hbyte := getElem?_fillAll (fun _ => Rectangle.right_le_of_border) c color ha b
  simp only [holds_border_iff hb] at hbyte
  exact hbyte

theorem pixel_paintBorder {x y : Nat} (hx : x < width) (hy : y < height) :
    (c.paintBorder color).pixel x y = if OnBorder x y then nibble color else c.pixel x y := by
  have hpixel := (c.paintBorder color).getElem?_index hx hy
  rw [index, (c.sameFrame_paintBorder color).stride, ← index,
    c.getElem?_paintBorder color (Nat.lt_of_lt_of_le hx c.width_le_stride) hy,
    c.getElem?_index hx hy] at hpixel
  simpa only [hx, true_and, Option.map_some, Option.some.injEq] using hpixel.symm

/-- Of two borders painted one after the other the second is left. -/
theorem paintBorder_paintBorder (later : UInt8) :
    (c.paintBorder color).paintBorder later = c.paintBorder later := by
  have hfirst := c.sameFrame_paintBorder color
  have hboth := ((c.paintBorder color).sameFrame_paintBorder later).trans hfirst
  apply ext_bytes (hboth.trans (c.sameFrame_paintBorder later).symm)
  intro a ha b hb
  rw [hboth.stride] at ha ⊢
  have hbyte := (c.paintBorder color).getElem?_paintBorder later
    (Nat.lt_of_lt_of_eq ha hfirst.stride.symm) hb
  rw [index, hfirst.stride, ← index, c.getElem?_paintBorder color ha hb] at hbyte
  refine hbyte.trans (Eq.trans ?_ (c.getElem?_paintBorder later ha hb).symm)
  rw [Option.map_map]
  refine congrFun (congrArg Option.map (funext fun v => ?_)) _
  simp only [Function.comp_apply]
  split <;> rfl

/-- A tile within the border does not meet it. -/
theorem tiled_paintBorder {c : Canvas} {data : Payload} (h : c.FitsInside data) (mode : TileMode) :
    (c.paintBorder color).tiled data mode = (c.tiled data mode).paintBorder color := by
  have hoffset := (c.sameFrame_paintBorder color).offset
  have hfits : (c.paintBorder color).Fits data := by
    rw [Fits, hoffset]
    exact h.fits
  rw [tiled_of_fits hfits, tiled_of_fits h.fits, tileLeft, tileTop, hoffset, ← tileLeft, ← tileTop,
    paintBorder_eq_fillAll, paintBorder_eq_fillAll]
  refine paint_fillAll (fun _ => Rectangle.right_le_of_border) c
    (s := ⟨c.tileLeft data, c.tileTop data, 6, 12⟩) h.fits.left ?_ _
  obtain ⟨⟨hleft, hright⟩, htop, hbottom⟩ := h
  intro r hr
  simp only [Rectangle.border, List.mem_cons, List.not_mem_nil, or_false] at hr
  simp only [Rectangle.Apart]
  rcases hr with rfl | rfl | rfl | rfl <;> simp only <;> omega

end Border

/-- What a border preset leaves behind: one colour on the border, and all else as it was, the row
padding included. -/
structure Bordered (c : Canvas) (color : UInt8) (c' : Canvas) : Prop where
  border : ∀ x < 300, ∀ y < 216, OnBorder x y → c'.pixel x y = color
  interior : ∀ x < 300, ∀ y < 216, ¬ OnBorder x y → c'.pixel x y = c.pixel x y
  padding : c'.SamePadding c
  frame : c'.SameFrame c

theorem bordered_paintBorder (c : Canvas) (color : UInt8) :
    c.Bordered (nibble color) (c.paintBorder color) := by
  refine ⟨?_, ?_, ?_, c.sameFrame_paintBorder color⟩
  · intro x hx y hy hborder
    rw [c.pixel_paintBorder color hx hy, if_pos hborder]
  · intro x hx y hy hinterior
    rw [c.pixel_paintBorder color hx hy, if_neg hinterior]
  · exact samePadding_fillAll (fun _ => Rectangle.right_le_of_border) c

/-- A border preset that is no repetition paints the border. -/
theorem borderPreset_of_repeat_zero (c : Canvas) {data : Payload} (h : data.second &&& 15 = 0) :
    c.borderPreset data = .ok (c.paintBorder (data.first &&& 15)) := by
  have hrepeat : (presetValues data).2 = 0 := h
  rw [borderPreset_eq_ok, if_pos hrepeat]
  rfl

theorem memoryPreset_of_repeat_zero (c : Canvas) {data : Payload} (h : data.second &&& 15 = 0) :
    c.memoryPreset data = c.fill (data.first &&& 15) :=
  if_pos h

/-- Presets fill exactly what they are to fill. A memory preset gives its colour to every byte of
the buffer, the row padding included; a border preset gives it to the pixels of the border and to
nothing else. Neither touches the palette, its mark or the fine offset. A border preset made twice
is made once, of two the later one is left, and a tile that lies within the border can be painted
before it or after. -/
theorem presets_fill_exactly (c : Canvas) {data : Payload} (h : data.second &&& 15 = 0) :
    ((c.memoryPreset data).pixels = Array.replicate (c.stride * 216) (data.first &&& 15) ∧
      (c.memoryPreset data).SameFrame c) ∧
    ∃ c', c.borderPreset data = .ok c' ∧ c.Bordered (data.first &&& 15) c' ∧
      c'.borderPreset data = .ok c' ∧
      (∀ later : Payload, later.second &&& 15 = 0 →
        c'.borderPreset later = c.borderPreset later) ∧
      ∀ tile mode, c.FitsInside tile → ∃ c₁ c₂, c.tileBlock tile mode = .ok (true, c₁) ∧
        c'.tileBlock tile mode = .ok (true, c₂) ∧ c₁.borderPreset data = .ok c₂ := by
  have hcolor : nibble (data.first &&& 15) = data.first &&& 15 := nibble_nibble data.first
  refine ⟨⟨?_, c.sameFrame_memoryPreset data⟩, _, c.borderPreset_of_repeat_zero h, ?_, ?_, ?_, ?_⟩
  · rw [c.memoryPreset_of_repeat_zero h]
    exact congrArg (Array.replicate (c.stride * height)) hcolor
  · have hborder := c.bordered_paintBorder (data.first &&& 15)
    rwa [hcolor] at hborder
  · rw [borderPreset_of_repeat_zero _ h, paintBorder_paintBorder]
  · intro later hlater
    rw [borderPreset_of_repeat_zero _ hlater, borderPreset_of_repeat_zero _ hlater,
      paintBorder_paintBorder]
  · intro tile mode hinside
    have hoffset := (c.sameFrame_paintBorder (data.first &&& 15)).offset
    have hfits := (c.fits_iff tile).mpr hinside.fits
    refine ⟨c.tiled tile mode, (c.paintBorder (data.first &&& 15)).tiled tile mode, ?_, ?_, ?_⟩
    · rw [tileBlock_eq_ok, hfits]
    · rw [tileBlock_eq_ok, hoffset, hfits]
    · rw [borderPreset_of_repeat_zero _ h, tiled_paintBorder _ hinside]

/-- A canvas with padded rows and the largest fine offset. -/
def shifted : Canvas := (blank 311 (by decide)).setOffset 5 11

/-- A preset in colour 11, its upper bits set. -/
def loudPreset : Payload := Vector.ofFn fun i => if i.val = 0 then 0x7B else 0xF0

/-- A preset in colour 4. -/
def laterPreset : Payload := Vector.ofFn fun i => if i.val = 0 then 4 else 0

/-- A tile that the largest fine offset moves next to the border, at the right and at the bottom. -/
def nearTile : Payload :=
  Vector.ofFn fun i => if i.val = 2 then 15 else if i.val = 3 then 47 else 0x2A

theorem presets_fill_shifted :
    (loudPreset.second &&& 15 = 0 ∧ laterPreset.second &&& 15 = 0 ∧ shifted.FitsInside nearTile) ∧
      (shifted.memoryPreset loudPreset).pixels = Array.replicate (311 * 216) 11 ∧
      ∃ c', shifted.borderPreset loudPreset = .ok c' ∧ shifted.Bordered 11 c' ∧
        c'.borderPreset laterPreset = shifted.borderPreset laterPreset ∧
        ∃ c₁ c₂, shifted.tileBlock nearTile .xor = .ok (true, c₁) ∧
          c'.tileBlock nearTile .xor = .ok (true, c₂) ∧ c₁.borderPreset loudPreset = .ok c₂ := by
  have hloud : loudPreset.second &&& 15 = 0 := by decide
  have hlater : laterPreset.second &&& 15 = 0 := by decide
  have hinside : shifted.FitsInside nearTile := by decide
  obtain ⟨⟨hfill, -⟩, c', hok, hborder, -, hwins, htile⟩ := presets_fill_exactly shifted hloud
  exact ⟨⟨hloud, hlater, hinside⟩, hfill, c', hok, hborder, hwins _ hlater, htile _ _ hinside⟩

end Canvas
end DiscGraphics
