import DiscGraphics.Canvas.PaletteLoad

/-!
The colours that a palette packet can load. A channel of four bits is stretched by the factor 17, so
every channel of a loaded colour is a multiple of 17, and a palette that starts out black holds such
colours only, whatever is loaded into it.
-/
namespace DiscGraphics

/-- A colour of 24 bits whose channels were stretched from four bits each. -/
structure Stretched (rgb : UInt32) : Prop where
  lt : rgb.toNat < 0x1000000
  channel : ∀ ch ∈ channels rgb, 17 ∣ ch.toNat

theorem Stretched.masked {rgb : UInt32} (h : Stretched rgb) : rgb &&& 0xFFFFFF = rgb := by
  rw [← UInt32.toNat_inj, UInt32.toNat_and]
  have hm := Nat.and_two_pow_sub_one_eq_mod rgb.toNat 24
  exact hm.trans (Nat.mod_eq_of_lt h.lt)

theorem toNat_and_fifteen (c : UInt32) : (c &&& 0x0F).toNat = c.toNat % 16 := by
  rw [UInt32.toNat_and]
  exact Nat.and_two_pow_sub_one_eq_mod c.toNat 4

theorem toNat_of_channels {r g b : UInt32} (hr : r.toNat < 256) (hg : g.toNat < 256)
    (hb : b.toNat < 256) :
    ((r <<< 16) ||| (g <<< 8) ||| b).toNat = r.toNat * 65536 + g.toNat * 256 + b.toNat := by
  have hr' : (r <<< 16).toNat = r.toNat <<< 16 := by
    rw [UInt32.toNat_shiftLeft]
    apply Nat.mod_eq_of_lt
    simp only [UInt32.reduceToNat, Nat.reduceMod, Nat.shiftLeft_eq]
    omega
  have hg' : (g <<< 8).toNat = g.toNat <<< 8 := by
    rw [UInt32.toNat_shiftLeft]
    apply Nat.mod_eq_of_lt
    simp only [UInt32.reduceToNat, Nat.reduceMod, Nat.shiftLeft_eq]
    omega
  have hlow : g.toNat <<< 8 < 2 ^ 16 := by
    rw [Nat.shiftLeft_eq]
    omega
  have hsum : r.toNat <<< 16 ||| g.toNat <<< 8 = (r.toNat * 256 + g.toNat) <<< 8 := by
    rw [← Nat.shiftLeft_add_eq_or_of_lt hlow, Nat.shiftLeft_eq, Nat.shiftLeft_eq, Nat.shiftLeft_eq]
    omega
  rw [UInt32.toNat_or, UInt32.toNat_or, hr', hg', hsum, ← Nat.shiftLeft_add_eq_or_of_lt hb,
    Nat.shiftLeft_eq]
  omega

/-- A 12-bit colour, channel by channel. -/
theorem toNat_expandColor (color : UInt16) :
    (expandColor color).toNat =
      color.toNat / 256 % 16 * 17 * 65536 + color.toNat / 16 % 16 * 17 * 256 +
        color.toNat % 16 * 17 := by
  have hlt := color.toNat_lt
  have h₁ : (color.toUInt32 >>> 8).toNat = color.toNat / 256 := by
    simp [UInt32.toNat_shiftRight, Nat.shiftRight_eq_div_pow]
  have h₂ : (color.toUInt32 >>> 4).toNat = color.toNat / 16 := by
    simp [UInt32.toNat_shiftRight, Nat.shiftRight_eq_div_pow]
  have hscale (c : UInt32) : ((c &&& 0x0F) * 17).toNat = c.toNat % 16 * 17 := by
    rw [UInt32.toNat_mul, toNat_and_fifteen]
    exact Nat.mod_eq_of_lt (by simp only [UInt32.reduceToNat]; omega)
  have hsmall (c : UInt32) : ((c &&& 0x0F) * 17).toNat < 256 := by
    rw [hscale]
    omega
  rw [expandColor, toNat_of_channels (hsmall _) (hsmall _) (hsmall _), hscale, hscale, hscale, h₁,
    h₂, UInt16.toNat_toUInt32]

theorem stretched_of_toNat {rgb : UInt32} {r g b : Nat} (hr : r < 16) (hg : g < 16) (hb : b < 16)
    (h : rgb.toNat = r * 17 * 65536 + g * 17 * 256 + b * 17) : Stretched rgb := by
  have hhigh : rgb.toNat / 65536 = 17 * r := by omega
  have hupper : rgb.toNat / 256 = 17 * r * 256 + 17 * g := by omega
  have hred : rgb.toNat / 65536 % 256 = 17 * r := by omega
  have hgreen : rgb.toNat / 256 % 256 = 17 * g := by
    rw [hupper]
    omega
  have hblue : rgb.toNat % 256 = 17 * b := by
    rw [h]
    omega
  refine ⟨by omega, ?_⟩
  intro ch hch
  have hch' : ch = (rgb >>> 16).toUInt8 ∨ ch = (rgb >>> 8).toUInt8 ∨ ch = rgb.toUInt8 := by
    simpa [channels] using hch
  rcases hch' with rfl | rfl | rfl <;>
    simp only [UInt32.toNat_toUInt8, UInt32.toNat_shiftRight, Nat.shiftRight_eq_div_pow,
      UInt32.reduceToNat, Nat.reduceMod, Nat.reducePow]
  · exact ⟨r, hred⟩
  · exact ⟨g, hgreen⟩
  · exact ⟨b, hblue⟩

theorem stretched_expandColor (color : UInt16) : Stretched (expandColor color) :=
  stretched_of_toNat (Nat.mod_lt _ (by decide)) (Nat.mod_lt _ (by decide))
    (Nat.mod_lt _ (by decide)) (toNat_expandColor color)

namespace Palette

theorem ext_colors {p q : Palette} (h : ∀ i : Fin 16, p.colors.get i = q.colors.get i) : p = q := by
  obtain ⟨p⟩ := p
  obtain ⟨q⟩ := q
  congr 1
  apply Vector.ext
  intro i hi
  exact h ⟨i, hi⟩

theorem get_colors_set (p : Palette) (k : UInt8) (rgb : UInt32) (i : Fin 16) :
    (p.set k rgb).colors.get i =
      if (entry k).val = i.val then rgb &&& 0xFFFFFF else p.colors.get i := by
  change (p.set k rgb).colors[i.val] = if _ then _ else p.colors[i.val]
  rw [set, Vector.getElem_set]

theorem val_entry_ofNat {k : Nat} (hk : k < 16) : (entry (UInt8.ofNat k)).val = k := by
  rw [entry, Fin.val_ofNat, UInt8.toNat_ofNat', Nat.mod_eq_of_lt (a := k) (by omega),
    Nat.mod_eq_of_lt hk]

section

/-! Entries set one after the other, each at a place of its own. -/

variable {ι : Type} {place : ι → Nat} {color : ι → UInt32} {i : Fin 16}

theorem get_foldl_set_of_ne (p : Palette) (slots : List ι)
    (h : ∀ j ∈ slots, place j < 16 ∧ place j ≠ i.val) :
    (slots.foldl (fun p j => p.set (UInt8.ofNat (place j)) (color j)) p).colors.get i =
      p.colors.get i := by
  induction slots generalizing p with
  | nil => rfl
  | cons j rest ih =>
    obtain ⟨⟨hlt, hne⟩, hrest⟩ := List.forall_mem_cons.mp h
    rw [List.foldl_cons, ih _ hrest, get_colors_set, val_entry_ofNat hlt, if_neg hne]

theorem get_foldl_set_of_mem (p : Palette) {slots : List ι} {j : ι} (hj : j ∈ slots)
    (hi : place j = i.val) (hlt : ∀ k ∈ slots, place k < 16)
    (hown : ∀ k ∈ slots, place k = place j → k = j) :
    (slots.foldl (fun p j => p.set (UInt8.ofNat (place j)) (color j)) p).colors.get i =
      color j &&& 0xFFFFFF := by
  induction slots generalizing p with
  | nil => exact absurd hj List.not_mem_nil
  | cons k rest ih =>
    obtain ⟨hk, hrest⟩ := List.forall_mem_cons.mp hlt
    have hrestown := fun m hm => hown m (List.mem_cons_of_mem k hm)
    rw [List.foldl_cons]
    by_cases hlater : j ∈ rest
    · exact ih _ hlater hrest hrestown
    · obtain rfl : j = k := (List.mem_cons.mp hj).resolve_right hlater
      have hother : ∀ k ∈ rest, place k < 16 ∧ place k ≠ i.val := by
        intro k hmem
        refine ⟨hrest k hmem, ?_⟩
        intro heq
        exact hlater (hrestown k hmem (heq.trans hi.symm) ▸ hmem)
      rw [get_foldl_set_of_ne _ rest hother, get_colors_set, val_entry_ofNat hk, if_pos hi]

end

/-- A palette of colours that a disc can hold. -/
def AllStretched (p : Palette) : Prop := ∀ i : Fin 16, Stretched p.colors[i]

theorem allStretched_black : black.AllStretched := by
  intro i
  have h0 : black.colors[i] = 0 := by simp [black]
  have hsplit : (0 : UInt32).toNat = 0 * 17 * 65536 + 0 * 17 * 256 + 0 * 17 := rfl
  rw [h0]
  exact stretched_of_toNat (by decide) (by decide) (by decide) hsplit

theorem AllStretched.set {p : Palette} (hp : p.AllStretched) (i : UInt8) {rgb : UInt32}
    (h : Stretched rgb) : (p.set i rgb).AllStretched := by
  intro j
  simp only [Palette.set, h.masked, Fin.getElem_fin, Vector.getElem_set]
  split
  · exact h
  · exact hp j

theorem AllStretched.load {p : Palette} (hp : p.AllStretched) (data : Payload)
    (half : PaletteHalf) : (p.load data half).AllStretched := by
  unfold Palette.load
  induction List.finRange 8 generalizing p with
  | nil => exact hp
  | cons i rest ih => exact ih (hp.set _ (stretched_expandColor _))

end Palette
end DiscGraphics
