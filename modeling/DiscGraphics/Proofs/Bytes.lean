import DiscGraphics.Proofs.Picture

/-!
The buffer byte by byte, row padding included. Painting a rectangle changes the bytes in it by its
rule and no other byte, so rectangles that lie apart can be painted in either order.
-/
namespace DiscGraphics.Canvas

/-- Whether a byte of the buffer belongs to a rectangle. -/
def Covers (c : Canvas) (x y w h k : Nat) : Prop :=
  ∃ i < w, ∃ j < h, k = c.index (x + i) (y + j)

/-- The same row padding, in rows of the same length. -/
structure SamePadding (c d : Canvas) : Prop where
  stride : c.stride = d.stride
  byte : ∀ k, width ≤ k % d.stride → c.pixels[k]? = d.pixels[k]?

protected theorem SamePadding.refl (c : Canvas) : SamePadding c c := ⟨rfl, fun _ _ => rfl⟩

protected theorem SamePadding.trans {c d e : Canvas} (h : SamePadding c d) (h' : SamePadding d e) :
    SamePadding c e := by
  refine ⟨h.stride.trans h'.stride, fun k hk => ?_⟩
  exact (h.byte k (h'.stride ▸ hk)).trans (h'.byte k hk)

theorem index_div_mod (c : Canvas) (k : Nat) : c.index (k % c.stride) (k / c.stride) = k := by
  rw [index, Nat.mul_comm, Nat.div_add_mod]

theorem getElem?_index (c : Canvas) {x y : Nat} (hx : x < width) (hy : y < height) :
    c.pixels[c.index x y]? = some (c.pixel x y) := by
  rw [pixel, Array.getD_eq_getD_getElem?, Array.getElem?_eq_getElem (c.index_lt_size hx hy),
    Option.getD_some]

section Paint

variable (c : Canvas) {x w : Nat}

/-- A byte within the rectangle follows the rule, any other is as before. -/
theorem getElem?_paint (hw : x + w ≤ width) (y h : Nat) (f : Nat → Nat → UInt8 → UInt8) {a : Nat}
    (ha : a < c.stride) (b : Nat) :
    (c.paint x y w h f).pixels[c.index a b]? = c.pixels[c.index a b]?.map fun v =>
      if x ≤ a ∧ a < x + w ∧ y ≤ b ∧ b < y + h then f (a - x) (b - y) v else v :=
  getElem?_paintRows (Nat.le_trans hw c.width_le_stride) y h f c.pixels ha b

theorem getElem?_paint_of_not_covers (hw : x + w ≤ width) {y h : Nat}
    (f : Nat → Nat → UInt8 → UInt8) {k : Nat} (hk : ¬ c.Covers x y w h k) :
    (c.paint x y w h f).pixels[k]? = c.pixels[k]? := by
  have hbyte := c.getElem?_paint hw y h f (Nat.mod_lt k c.stride_pos) (k / c.stride)
  rw [index_div_mod] at hbyte
  rw [hbyte]
  have hout : ¬ (x ≤ k % c.stride ∧ k % c.stride < x + w ∧ y ≤ k / c.stride ∧
      k / c.stride < y + h) := by
    rintro ⟨hx, hxw, hy, hyh⟩
    apply hk
    refine ⟨k % c.stride - x, by omega, k / c.stride - y, by omega, ?_⟩
    rw [Nat.add_sub_cancel' hx, Nat.add_sub_cancel' hy, index_div_mod]
  simp only [if_neg hout, Option.map_id_fun', id_eq]

/-- A rectangle of the picture never reaches into the padding. -/
theorem samePadding_paint (hw : x + w ≤ width) (y h : Nat) (f : Nat → Nat → UInt8 → UInt8) :
    SamePadding (c.paint x y w h f) c := by
  refine ⟨rfl, fun k hk => ?_⟩
  have hs := c.width_le_stride
  apply c.getElem?_paint_of_not_covers hw
  rintro ⟨i, hi, j, -, rfl⟩
  rw [index, Nat.mul_add_mod', Nat.mod_eq_of_lt (by omega)] at hk
  omega

theorem paint_eq_self (hw : x + w ≤ width) {y h : Nat} {f : Nat → Nat → UInt8 → UInt8}
    (hf : ∀ i < w, ∀ j < h, ∀ v, f i j v = v) : c.paint x y w h f = c := by
  apply ext_bytes (sameFrame_paint ..)
  intro a ha b _
  refine (c.getElem?_paint hw y h f ha b).trans ?_
  have hrule (v : UInt8) : (if x ≤ a ∧ a < x + w ∧ y ≤ b ∧ b < y + h then f (a - x) (b - y) v
      else v) = v := by
    split
    · exact hf _ (by omega) _ (by omega) v
    · rfl
  simp only [hrule, Option.map_id_fun', id_eq]
  rfl

/-- A rectangle painted twice is painted once, by the second rule after the first. -/
theorem paint_paint (hw : x + w ≤ width) (y h : Nat) (f g : Nat → Nat → UInt8 → UInt8) :
    (c.paint x y w h f).paint x y w h g = c.paint x y w h fun i j v => g i j (f i j v) := by
  refine ext_bytes ⟨rfl, rfl, rfl, rfl⟩ ?_
  intro a ha b _
  refine ((c.paint x y w h f).getElem?_paint hw y h g ha b).trans ?_
  refine Eq.trans ?_ (c.getElem?_paint hw y h _ ha b).symm
  have hfirst := c.getElem?_paint hw y h f ha b
  simp only [index, stride_paint] at hfirst ⊢
  rw [hfirst, Option.map_map]
  refine congrFun (congrArg Option.map (funext fun v => ?_)) _
  simp only [Function.comp_apply]
  split <;> rfl

/-- Rectangles that lie apart can be painted in either order. -/
theorem paint_comm {x' w' : Nat} (hw : x + w ≤ width) (hw' : x' + w' ≤ width) {y h y' h' : Nat}
    (hapart : x + w ≤ x' ∨ x' + w' ≤ x ∨ y + h ≤ y' ∨ y' + h' ≤ y)
    (f g : Nat → Nat → UInt8 → UInt8) :
    (c.paint x y w h f).paint x' y' w' h' g = (c.paint x' y' w' h' g).paint x y w h f := by
  refine ext_bytes ⟨rfl, rfl, rfl, rfl⟩ ?_
  intro a ha b _
  have hf := c.getElem?_paint hw y h f ha b
  have hg := c.getElem?_paint hw' y' h' g ha b
  refine ((c.paint x y w h f).getElem?_paint hw' y' h' g ha b).trans ?_
  refine Eq.trans ?_ ((c.paint x' y' w' h' g).getElem?_paint hw y h f ha b).symm
  simp only [index, stride_paint] at hf hg ⊢
  rw [hf, hg, Option.map_map, Option.map_map]
  refine congrFun (congrArg Option.map (funext fun v => ?_)) _
  simp only [Function.comp_apply]
  by_cases hin : x ≤ a ∧ a < x + w ∧ y ≤ b ∧ b < y + h
  · have hout : ¬ (x' ≤ a ∧ a < x' + w' ∧ y' ≤ b ∧ b < y' + h') := by omega
    rw [if_neg hout, if_neg hout]
  · rw [if_neg hin, if_neg hin]

end Paint

end DiscGraphics.Canvas
