import DiscGraphics.Canvas.Basic

/-!
Painting a rectangle of the canvas in place, by a rule that sees where in the rectangle a pixel lies
and what it was. Fills, copies and tiles are all drawn so.
-/
namespace DiscGraphics

/-- Change the `n` bytes from `start` on; the rule sees how far a byte is from `start`. -/
@[specialize]
def paintRun (start n : Nat) (f : Nat → UInt8 → UInt8) (px : Array UInt8) : Array UInt8 :=
  n.fold (fun i _ px => px.modify (start + i) (f i)) px

/-- Change `w` bytes of each of the `h` rows from row `y` on, beginning in column `x`. -/
@[specialize]
def paintRows (stride x y w h : Nat) (f : Nat → Nat → UInt8 → UInt8) (px : Array UInt8) :
    Array UInt8 :=
  h.fold (fun j _ px => paintRun ((y + j) * stride + x) w (fun i => f i j) px) px

@[simp] theorem size_paintRun (start n : Nat) (f : Nat → UInt8 → UInt8) (px : Array UInt8) :
    (paintRun start n f px).size = px.size := by
  induction n generalizing px with
  | zero => simp [paintRun]
  | succ n ih =>
    rw [paintRun, Nat.fold_succ, Array.size_modify]
    exact ih px

@[simp] theorem size_paintRows (stride x y w h : Nat) (f : Nat → Nat → UInt8 → UInt8)
    (px : Array UInt8) : (paintRows stride x y w h f px).size = px.size := by
  induction h generalizing px with
  | zero => simp [paintRows]
  | succ h ih =>
    rw [paintRows, Nat.fold_succ, size_paintRun]
    exact ih px

theorem getElem?_paintRun (start n : Nat) (f : Nat → UInt8 → UInt8) (px : Array UInt8) (k : Nat) :
    (paintRun start n f px)[k]? =
      px[k]?.map fun v => if start ≤ k ∧ k < start + n then f (k - start) v else v := by
  induction n with
  | zero =>
    have (v : UInt8) : (if start ≤ k ∧ k < start + 0 then f (k - start) v else v) = v :=
      if_neg (by omega)
    simp only [this, Option.map_id_fun', id_eq]
    rfl
  | succ n ih =>
    rw [paintRun, Nat.fold_succ, Array.getElem?_modify]
    change (if start + n = k then Option.map (f n) (paintRun start n f px)[k]?
      else (paintRun start n f px)[k]?) = _
    rw [ih]
    split
    · subst k
      have h₁ : ¬ (start ≤ start + n ∧ start + n < start + n) := by omega
      have h₂ : start ≤ start + n ∧ start + n < start + (n + 1) := by omega
      simp [h₂]
    · have : (start ≤ k ∧ k < start + n) ↔ (start ≤ k ∧ k < start + (n + 1)) := by omega
      simp [this]

theorem getElem?_paintRows {stride x w : Nat} (hw : x + w ≤ stride) (y h : Nat)
    (f : Nat → Nat → UInt8 → UInt8) (px : Array UInt8) {a : Nat} (ha : a < stride) (b : Nat) :
    (paintRows stride x y w h f px)[b * stride + a]? =
      px[b * stride + a]?.map fun v =>
        if x ≤ a ∧ a < x + w ∧ y ≤ b ∧ b < y + h then f (a - x) (b - y) v else v := by
  induction h with
  | zero =>
    have (v : UInt8) :
        (if x ≤ a ∧ a < x + w ∧ y ≤ b ∧ b < y + 0 then f (a - x) (b - y) v else v) = v :=
      if_neg (by omega)
    simp only [this, Option.map_id_fun', id_eq]
    rfl
  | succ h ih =>
    rw [paintRows, Nat.fold_succ, getElem?_paintRun]
    change Option.map _ (paintRows stride x y w h f px)[b * stride + a]? = _
    rw [ih, Option.map_map]
    congr 1
    funext v
    simp only [Function.comp_apply]
    have hrow : ((y + h) * stride + x ≤ b * stride + a ∧ b * stride + a < (y + h) * stride + x + w)
        ↔ (b = y + h ∧ x ≤ a ∧ a < x + w) := by
      constructor
      · rintro ⟨h₁, h₂⟩
        have hb : b = y + h := by
          rcases Nat.lt_trichotomy b (y + h) with hlt | heq | hgt
          · have : (b + 1) * stride ≤ (y + h) * stride := Nat.mul_le_mul_right _ hlt
            rw [Nat.add_mul, Nat.one_mul] at this
            omega
          · exact heq
          · have : (y + h + 1) * stride ≤ b * stride := Nat.mul_le_mul_right _ hgt
            rw [Nat.add_mul, Nat.one_mul] at this
            omega
        subst hb
        omega
      · rintro ⟨rfl, h₁, h₂⟩
        omega
    by_cases hb : b = y + h ∧ x ≤ a ∧ a < x + w
    · obtain ⟨rfl, h₁, h₂⟩ := hb
      have h₃ : ¬ (x ≤ a ∧ a < x + w ∧ y ≤ y + h ∧ y + h < y + h) := by omega
      have h₄ : x ≤ a ∧ a < x + w ∧ y ≤ y + h ∧ y + h < y + (h + 1) := by omega
      rw [if_pos (hrow.mpr ⟨rfl, h₁, h₂⟩), if_neg h₃, if_pos h₄]
      congr 1 <;> omega
    · rw [if_neg (mt hrow.mp hb)]
      have : (x ≤ a ∧ a < x + w ∧ y ≤ b ∧ b < y + h)
          ↔ (x ≤ a ∧ a < x + w ∧ y ≤ b ∧ b < y + (h + 1)) := by omega
      simp [this]

theorem paintRun_congr {start n : Nat} {f g : Nat → UInt8 → UInt8} (h : ∀ i < n, f i = g i)
    (px : Array UInt8) : paintRun start n f px = paintRun start n g px := by
  induction n with
  | zero => rfl
  | succ n ih =>
    have hbefore := ih fun i hi => h i (Nat.lt_succ_of_lt hi)
    simp only [paintRun] at hbefore
    rw [paintRun, paintRun, Nat.fold_succ, Nat.fold_succ, hbefore, h n n.lt_succ_self]

theorem paintRows_congr (stride x y : Nat) {w n : Nat} {f g : Nat → Nat → UInt8 → UInt8}
    (h : ∀ i < w, ∀ j < n, f i j = g i j) (px : Array UInt8) :
    paintRows stride x y w n f px = paintRows stride x y w n g px := by
  induction n with
  | zero => rfl
  | succ n ih =>
    have hbefore := ih fun i hi j hj => h i hi j (Nat.lt_succ_of_lt hj)
    simp only [paintRows] at hbefore
    rw [paintRows, paintRows, Nat.fold_succ, Nat.fold_succ, hbefore]
    exact paintRun_congr (fun i hi => h i hi n n.lt_succ_self) _

namespace Canvas

/-- Change the pixels of a rectangle by their place in it and their old value. -/
@[inline] def paint (c : Canvas) (x y w h : Nat) (f : Nat → Nat → UInt8 → UInt8) : Canvas :=
  { c with
    pixels := paintRows c.stride x y w h f c.pixels
    size_pixels := by simp [c.size_pixels] }

@[simp] theorem stride_paint (c : Canvas) (x y w h : Nat) (f : Nat → Nat → UInt8 → UInt8) :
    (c.paint x y w h f).stride = c.stride := rfl

theorem paint_congr (c : Canvas) (x y : Nat) {w n : Nat} {f g : Nat → Nat → UInt8 → UInt8}
    (h : ∀ i < w, ∀ j < n, f i j = g i j) : c.paint x y w n f = c.paint x y w n g := by
  have hrows := paintRows_congr c.stride x y h c.pixels
  simp only [paint, hrows]

/-- A rectangle is painted row by row. -/
theorem paint_succ (c : Canvas) (x y w n : Nat) (f : Nat → Nat → UInt8 → UInt8) :
    c.paint x y w (n + 1) f = (c.paint x y w n f).paint x (y + n) w 1 fun i _ => f i n := by
  simp only [paint, paintRows, Nat.fold_succ, Nat.fold_zero, Nat.add_zero]

/-- Inside the rectangle a pixel follows the rule, outside it is as before. -/
theorem pixel_paint (c : Canvas) {x w : Nat} (hw : x + w ≤ width) (y h : Nat)
    (f : Nat → Nat → UInt8 → UInt8) {a b : Nat} (ha : a < width) (hb : b < height) :
    (c.paint x y w h f).pixel a b =
      if x ≤ a ∧ a < x + w ∧ y ≤ b ∧ b < y + h then f (a - x) (b - y) (c.pixel a b)
      else c.pixel a b := by
  have hs := c.width_le_stride
  have hlt := c.index_lt_size ha hb
  have h := getElem?_paintRows (Nat.le_trans hw hs) y h f c.pixels (Nat.lt_of_lt_of_le ha hs) b
  rw [index] at hlt
  simp only [pixel, paint, index, Array.getD_eq_getD_getElem?]
  rw [h, Array.getElem?_eq_getElem hlt]
  simp

end Canvas
end DiscGraphics
