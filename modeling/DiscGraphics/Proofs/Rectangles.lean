import DiscGraphics.Proofs.Bytes

/-!
Rectangles, drawn row by row, where a run of bytes that left the buffer would end the drawing
halfway. The bounds are checked first, so a rectangle is drawn to the last pixel or not at all.
-/
namespace DiscGraphics.Canvas

/-- The bytes of a run, if it lies in the buffer. -/
def readRun (c : Canvas) (x y w : Nat) : Except Fault (Nat → UInt8) :=
  if c.index x y + w ≤ c.pixels.size then .ok fun i => c.pixel (x + i) y
  else .error .outsideBuffer

/-- Write a run of bytes, if there is one and it lies in the buffer. A refusal comes with the canvas
as it is at that moment. -/
def writeRun (c : Canvas) (x y w : Nat) (run : Except Fault (Nat → UInt8)) :
    Except (Fault × Canvas) Canvas :=
  match run with
  | .error e => .error (e, c)
  | .ok run =>
    if c.index x y + w ≤ c.pixels.size then .ok (c.paint x y w 1 fun i _ _ => run i)
    else .error (.outsideBuffer, c)

/-- Write the rows of a rectangle one after the other. -/
def writeRuns (c : Canvas) (x y w h : Nat) (runs : Nat → Except Fault (Nat → UInt8)) :
    Except (Fault × Canvas) Canvas :=
  (List.range h).foldlM (fun c j => c.writeRun x (y + j) w (runs j)) c

def fillByRows (c : Canvas) (x y w h : Nat) (color : UInt8) : Except (Fault × Canvas) Canvas :=
  if x + w ≤ width then
    if y + h ≤ height then c.writeRuns x y w h fun _ => .ok fun _ => nibble color
    else .error (.rectangleTooTall, c)
  else
    .error (.rectangleTooWide, c)

def copyByRows (c src : Canvas) (sx sy x y w h : Nat) : Except (Fault × Canvas) Canvas :=
  if sx + w ≤ width ∧ x + w ≤ width then
    if sy + h ≤ height ∧ y + h ≤ height then
      c.writeRuns x y w h fun j => src.readRun sx (sy + j) w
    else
      .error (.rectangleTooTall, c)
  else
    .error (.rectangleTooWide, c)

section Runs

variable (c : Canvas) {x y w h : Nat}

theorem readRun_eq_ok (hx : x + w ≤ width) (hy : y < height) :
    c.readRun x y w = .ok fun i => c.pixel (x + i) y :=
  if_pos (c.spans_of_le (h := 1) hx hy 0 Nat.one_pos)

theorem writeRun_eq_ok (hx : x + w ≤ width) (hy : y < height) (run : Nat → UInt8) :
    c.writeRun x y w (.ok run) = .ok (c.paint x y w 1 fun i _ _ => run i) :=
  if_pos (c.spans_of_le (h := 1) hx hy 0 Nat.one_pos)

/-- On the picture all rows are written, and together they are the rectangle. -/
theorem writeRuns_eq_ok (hx : x + w ≤ width) (hy : y + h ≤ height)
    {runs : Nat → Except Fault (Nat → UInt8)} {f : Nat → Nat → UInt8}
    (hruns : ∀ j < h, runs j = .ok fun i => f i j) :
    c.writeRuns x y w h runs = .ok (c.paint x y w h fun i j _ => f i j) := by
  induction h with
  | zero => rfl
  | succ h ih =>
    have habove := ih (by omega) fun j hj => hruns j (by omega)
    unfold writeRuns at habove ⊢
    rw [List.range_succ, List.foldlM_append, habove]
    change List.foldlM (fun (c : Canvas) j => c.writeRun x (y + j) w (runs j)) _ [h] = _
    rw [List.foldlM_cons, hruns h h.lt_succ_self, writeRun_eq_ok _ hx (by omega), paint_succ]
    rfl

end Runs

/-- A fill is refused on the untouched canvas or not at all. -/
theorem fillByRows_eq (c : Canvas) (x y w h : Nat) (color : UInt8) :
    c.fillByRows x y w h color = (c.fillRect x y w h color).mapError (·, c) := by
  unfold fillByRows
  split
  · next hx =>
    split
    · next hy =>
      rw [fillRect_eq_ok c hx hy, c.writeRuns_eq_ok hx hy fun _ _ => rfl]
      rfl
    · next hy => rw [fillRect, if_pos hx, if_neg hy]; rfl
  · next hx => rw [fillRect, if_neg hx]; rfl

/-- A copy is refused on the untouched canvas or not at all. -/
theorem copyByRows_eq (c src : Canvas) (sx sy x y w h : Nat) :
    c.copyByRows src sx sy x y w h = (c.copyRect src sx sy x y w h).mapError (·, c) := by
  unfold copyByRows
  split
  · next hx =>
    split
    · next hy =>
      have hruns : ∀ j < h, src.readRun sx (sy + j) w = .ok fun i => src.pixel (sx + i) (sy + j) :=
        fun j hj => src.readRun_eq_ok hx.1 (by omega)
      rw [copyRect_eq_ok c src hx.1 hx.2 hy.1 hy.2, c.writeRuns_eq_ok hx.2 hy.2 hruns]
      rfl
    · next hy => rw [copyRect, if_pos hx, if_neg hy]; rfl
  · next hx => rw [copyRect, if_neg hx]; rfl

/-- What a rectangle leaves behind when it is drawn by a rule that does not look at what was there:
its pixels are those of the rule, and everything else is as before. -/
structure Redrawn (c : Canvas) (x y w h : Nat) (f : Nat → Nat → UInt8) (c' : Canvas) : Prop where
  inside : ∀ i < w, ∀ j < h, c'.pixel (x + i) (y + j) = f i j
  outside : ∀ k, ¬ c.Covers x y w h k → c'.pixels[k]? = c.pixels[k]?
  padding : c'.SamePadding c
  frame : c'.SameFrame c

theorem redrawn_paint (c : Canvas) {x y w h : Nat} (hx : x + w ≤ width) (hy : y + h ≤ height)
    (f : Nat → Nat → UInt8) : c.Redrawn x y w h f (c.paint x y w h fun i j _ => f i j) where
  inside i hi j hj := by
    have hin : x ≤ x + i ∧ x + i < x + w ∧ y ≤ y + j ∧ y + j < y + h := by omega
    rw [c.pixel_paint hx y h _ (by omega) (by omega), if_pos hin, Nat.add_sub_cancel_left,
      Nat.add_sub_cancel_left]
  outside _ hk := c.getElem?_paint_of_not_covers hx _ hk
  padding := c.samePadding_paint hx y h _
  frame := sameFrame_paint ..

/-- How the drawing of a rectangle may end. It is refused if it is too wide, or else if it is too
tall, and the canvas is then as it was; otherwise it is drawn. -/
structure DrawnOrRefused (c : Canvas) (x y w h : Nat) (f : Nat → Nat → UInt8)
    (tooWide tooTall : Prop) (result : Except (Fault × Canvas) Canvas) : Prop where
  drawn : ¬ tooWide → ¬ tooTall → ∃ c', result = .ok c' ∧ c.Redrawn x y w h f c'
  wide : tooWide → result = .error (.rectangleTooWide, c)
  tall : ¬ tooWide → tooTall → result = .error (.rectangleTooTall, c)

/-- Fills and copies write their rectangle and nothing else. One that lies on the picture is drawn
to the last pixel, a fill in the low four bits of its colour and a copy with the bytes of its
source, whatever the strides of the two canvases; no other byte changes, the row padding included,
nor does the palette, its mark or the fine offset. One that does not is refused before anything is
written. -/
theorem rectangles_drawn_exactly (c src : Canvas) (sx sy x y w h : Nat) (color : UInt8) :
    (c.fillByRows x y w h color = (c.fillRect x y w h color).mapError (·, c) ∧
      c.DrawnOrRefused x y w h (fun _ _ => color &&& 15) (300 < x + w) (216 < y + h)
        (c.fillByRows x y w h color)) ∧
    (c.copyByRows src sx sy x y w h = (c.copyRect src sx sy x y w h).mapError (·, c) ∧
      c.DrawnOrRefused x y w h (fun i j => src.pixel (sx + i) (sy + j))
        (300 < sx + w ∨ 300 < x + w) (216 < sy + h ∨ 216 < y + h)
        (c.copyByRows src sx sy x y w h)) := by
  refine ⟨⟨c.fillByRows_eq x y w h color, ?_, ?_, ?_⟩,
    ⟨c.copyByRows_eq src sx sy x y w h, ?_, ?_, ?_⟩⟩
  · intro hwide htall
    rw [Nat.not_lt] at hwide htall
    rw [fillByRows_eq, fillRect_eq_ok c hwide htall]
    exact ⟨_, rfl, c.redrawn_paint hwide htall _⟩
  · intro hwide
    exact if_neg (Nat.not_le.mpr hwide)
  · intro hwide htall
    exact (if_pos (Nat.not_lt.mp hwide)).trans (if_neg (Nat.not_le.mpr htall))
  · intro hwide htall
    obtain ⟨hsw, hw⟩ : sx + w ≤ width ∧ x + w ≤ width := by simp only [width]; omega
    obtain ⟨hsh, hh⟩ : sy + h ≤ height ∧ y + h ≤ height := by simp only [height]; omega
    rw [copyByRows_eq, copyRect_eq_ok c src hsw hw hsh hh]
    exact ⟨_, rfl, c.redrawn_paint hw hh _⟩
  · intro hwide
    exact if_neg (by simp only [width]; omega)
  · intro hwide htall
    exact (if_pos (by simp only [width]; omega)).trans (if_neg (by simp only [height]; omega))

/-- A canvas whose every byte is larger than any colour. -/
def glaring : Canvas := (blank 301 (by decide)).mapBytes fun _ _ => 0x9C

/-- A black canvas with other rows. -/
def roomy : Canvas := blank 317 (by decide)

/-- Two pixels by two are copied into the last corner of rows of another length, and the byte that
follows the picture there stays black. One column further to the right nothing is copied. -/
theorem copied_into_corner :
    (∃ c', roomy.copyByRows glaring 0 0 298 214 2 2 = .ok c' ∧ c'.pixel 299 215 = 0x9C ∧
      c'.pixels[317 * 215 + 300]? = some 0) ∧
    roomy.copyByRows glaring 0 0 299 214 2 2 = .error (.rectangleTooWide, roomy) := by
  obtain ⟨-, -, hdrawn, -, -⟩ := rectangles_drawn_exactly roomy glaring 0 0 298 214 2 2 0
  obtain ⟨-, -, -, hwide, -⟩ := rectangles_drawn_exactly roomy glaring 0 0 299 214 2 2 0
  obtain ⟨c', hok, hcopied⟩ := hdrawn (by decide) (by decide)
  refine ⟨⟨c', hok, ?_, ?_⟩, hwide (by decide)⟩
  · have hpixel : glaring.pixel (0 + 1) (0 + 1) = 0x9C := by
      simp [glaring, mapBytes, blank, pixel, index, height]
    exact (hcopied.inside 1 (by decide) 1 (by decide)).trans hpixel
  · have hblack : roomy.pixels[317 * 215 + 300]? = some 0 := by
      simp only [roomy, blank, height, Array.getElem?_replicate]
      decide
    exact (hcopied.padding.byte _ (by decide)).trans hblack

end DiscGraphics.Canvas
