import DiscGraphics.Canvas.Scroll

/-!
The picture that a scroll draws. Every visible pixel of the target is written, so only its rows and
its fine offset are left of it.
-/
namespace DiscGraphics

def ScrollMode.fill (mode : ScrollMode) (color wrapped : UInt8) : UInt8 :=
  match mode with
  | .preset => nibble color
  | .copy => wrapped

namespace Canvas

def scrolledPixel (c : Canvas) (s : ScrollShift) (color : UInt8) (mode : ScrollMode)
    (x y : Nat) : UInt8 :=
  let x₀ : Int := x - s.dx
  let y₀ : Int := y - s.dy
  if 0 ≤ x₀ ∧ x₀ < width then
    if 0 ≤ y₀ ∧ y₀ < height then c.pixel x₀.toNat y₀.toNat
    else mode.fill color (c.pixel x (y₀ % height).toNat)
  else mode.fill color (c.pixel (x₀ % width).toNat y)

/-- Only the pixels of two canvases may differ. -/
structure SameFrame (c d : Canvas) : Prop where
  stride : c.stride = d.stride
  palette : c.palette = d.palette
  paletteChanged : c.paletteChanged = d.paletteChanged
  offset : c.offset = d.offset

protected theorem SameFrame.refl (c : Canvas) : SameFrame c c := ⟨rfl, rfl, rfl, rfl⟩

protected theorem SameFrame.symm {c d : Canvas} (h : SameFrame c d) : SameFrame d c :=
  ⟨h.stride.symm, h.palette.symm, h.paletteChanged.symm, h.offset.symm⟩

protected theorem SameFrame.trans {c d e : Canvas} (h : SameFrame c d) (h' : SameFrame d e) :
    SameFrame c e :=
  ⟨h.stride.trans h'.stride, h.palette.trans h'.palette,
    h.paletteChanged.trans h'.paletteChanged, h.offset.trans h'.offset⟩

theorem sameFrame_paint (c : Canvas) (x y w h : Nat) (f : Nat → Nat → UInt8 → UInt8) :
    SameFrame (c.paint x y w h f) c := ⟨rfl, rfl, rfl, rfl⟩

theorem fillStrip_eq_ok (out src : Canvas) (mode : ScrollMode) (color : UInt8)
    {sx sy x y w h : Nat} (hsw : sx + w ≤ width) (hw : x + w ≤ width) (hsh : sy + h ≤ height)
    (hh : y + h ≤ height) :
    out.fillStrip src mode color sx sy x y w h =
      .ok (out.paint x y w h fun i j _ => mode.fill color (src.pixel (sx + i) (sy + j))) := by
  cases mode with
  | preset => exact fillRect_eq_ok out hw hh color
  | copy => exact copyRect_eq_ok out src hsw hw hsh hh

/-- The pixels whose origin lies on the picture are moved, the others are left for the strips. -/
theorem shiftInto_spec (src out : Canvas) (s : ScrollShift) :
    ∃ c, src.shiftInto out s = .ok c ∧ c.SameFrame out ∧ ∀ {x y : Nat}, x < width → y < height →
      c.pixel x y =
        if (0 ≤ (x : Int) - s.dx ∧ (x : Int) - s.dx < width) ∧
            (0 ≤ (y : Int) - s.dy ∧ (y : Int) - s.dy < height) then
          src.pixel ((x : Int) - s.dx).toNat ((y : Int) - s.dy).toNat
        else out.pixel x y := by
  unfold shiftInto
  simp only [width, height]
  split
  · refine ⟨_, copyRect_eq_ok out src (by simp only [width]; omega) (by simp only [width]; omega)
      (by simp only [height]; omega) (by simp only [height]; omega), sameFrame_paint .., ?_⟩
    intro x y hx hy
    rw [pixel_paint _ (by simp only [width]; omega) _ _ _ hx hy]
    split
    · rw [if_pos (by omega)]
      congr 1 <;> omega
    · rw [if_neg (by omega)]
  · refine ⟨out, rfl, .refl out, ?_⟩
    intro x y hx hy
    rw [if_neg (by omega)]

/-- A vertical strip holds the rows whose origin lies above or below the picture. -/
theorem fillVertical_spec (src out : Canvas) {dy : Int} (h : dy.natAbs ≤ height)
    (mode : ScrollMode) (color : UInt8) :
    ∃ c, src.fillVertical out dy mode color = .ok c ∧ c.SameFrame out ∧
      ∀ {x y : Nat}, x < width → y < height → c.pixel x y =
        if 0 ≤ (y : Int) - dy ∧ (y : Int) - dy < height then out.pixel x y
        else mode.fill color (src.pixel x (((y : Int) - dy) % height).toNat) := by
  simp only [height] at h
  unfold fillVertical
  dsimp only
  split
  · rw [before_eq_ok h]
    refine ⟨_, fillStrip_eq_ok out src mode color (by simp) (by simp)
      (by simp only [height]; omega) (by simp only [height]; omega), sameFrame_paint .., ?_⟩
    intro x y hx hy
    rw [pixel_paint _ (by simp) _ _ _ hx hy]
    simp only [width, height] at hx hy ⊢
    split
    · rw [if_neg (by omega)]
      congr 2 <;> omega
    · rw [if_pos (by omega)]
  · split
    · rw [before_eq_ok h]
      refine ⟨_, fillStrip_eq_ok out src mode color (by simp) (by simp)
        (by simp only [height]; omega) (by simp only [height]; omega), sameFrame_paint .., ?_⟩
      intro x y hx hy
      rw [pixel_paint _ (by simp) _ _ _ hx hy]
      simp only [width, height] at hx hy ⊢
      split
      · rw [if_neg (by omega)]
        congr 2 <;> omega
      · rw [if_pos (by omega)]
    · refine ⟨out, rfl, .refl out, ?_⟩
      intro x y hx hy
      simp only [height] at hy
      rw [if_pos (by simp only [height]; omega)]

/-- A horizontal strip holds the columns whose origin lies beside the picture. -/
theorem fillHorizontal_spec (src out : Canvas) {dx : Int} (h : dx.natAbs ≤ width)
    (mode : ScrollMode) (color : UInt8) :
    ∃ c, src.fillHorizontal out dx mode color = .ok c ∧ c.SameFrame out ∧
      ∀ {x y : Nat}, x < width → y < height → c.pixel x y =
        if 0 ≤ (x : Int) - dx ∧ (x : Int) - dx < width then out.pixel x y
        else mode.fill color (src.pixel (((x : Int) - dx) % width).toNat y) := by
  simp only [width] at h
  unfold fillHorizontal
  dsimp only
  split
  · rw [before_eq_ok h]
    refine ⟨_, fillStrip_eq_ok out src mode color (by simp only [width]; omega)
      (by simp only [width]; omega) (by simp) (by simp), sameFrame_paint .., ?_⟩
    intro x y hx hy
    rw [pixel_paint _ (by simp only [width]; omega) _ _ _ hx hy]
    simp only [width, height] at hx hy ⊢
    split
    · rw [if_neg (by omega)]
      congr 2 <;> omega
    · rw [if_pos (by omega)]
  · split
    · rw [before_eq_ok h]
      refine ⟨_, fillStrip_eq_ok out src mode color (by simp only [width]; omega)
        (by simp only [width]; omega) (by simp) (by simp), sameFrame_paint .., ?_⟩
      intro x y hx hy
      rw [pixel_paint _ (by simp only [width]; omega) _ _ _ hx hy]
      simp only [width, height] at hx hy ⊢
      split
      · rw [if_neg (by omega)]
        congr 2 <;> omega
      · rw [if_pos (by omega)]
    · refine ⟨out, rfl, .refl out, ?_⟩
      intro x y hx hy
      simp only [width] at hx
      rw [if_pos (by simp only [width]; omega)]

/-- A canvas holds another one scrolled, drawn over a third. -/
structure Scrolled (src out : Canvas) (s : ScrollShift) (color : UInt8) (mode : ScrollMode)
    (c : Canvas) : Prop where
  stride : c.stride = out.stride
  palette : c.palette = src.palette
  paletteChanged : c.paletteChanged = src.paletteChanged
  offset : c.offset = out.offset
  pixel : ∀ {x y : Nat}, x < width → y < height →
    c.pixel x y = src.scrolledPixel s color mode x y

/-- Whatever was on the target, none of it shows after a scroll. -/
theorem scrollInto_spec (src out : Canvas) (hs : src.stride = out.stride) {s : ScrollShift}
    (hx : s.dx.natAbs ≤ width) (hy : s.dy.natAbs ≤ height) (color : UInt8) (mode : ScrollMode) :
    ∃ c, src.scrollInto out s color mode = .ok c ∧ Scrolled src out s color mode c := by
  obtain ⟨c₁, h₁, f₁, p₁⟩ := shiftInto_spec src (out.copyPalette src) s
  obtain ⟨c₂, h₂, f₂, p₂⟩ := fillVertical_spec src c₁ hy mode color
  obtain ⟨c₃, h₃, f₃, p₃⟩ := fillHorizontal_spec src c₂ hx mode color
  have hok : src.scrollInto out s color mode = .ok c₃ := by
    rw [scrollInto, if_pos hs, h₁]
    change (src.fillVertical c₁ s.dy mode color >>= fun out =>
      src.fillHorizontal out s.dx mode color) = _
    rw [h₂]
    exact h₃
  have hf := f₃.trans (f₂.trans f₁)
  refine ⟨c₃, hok, hf.stride, hf.palette, hf.paletteChanged, hf.offset, ?_⟩
  intro x y hx hy
  -- The strip at a side is drawn last, so its test comes first.
  rw [p₃ hx hy, scrolledPixel]
  split
  · next hin =>
    rw [p₂ hx hy]
    split
    · next hin' => rw [p₁ hx hy, if_pos ⟨hin, hin'⟩]
    · rfl
  · rfl

end Canvas
end DiscGraphics
