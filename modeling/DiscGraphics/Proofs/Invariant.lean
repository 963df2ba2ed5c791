import DiscGraphics.Proofs.Palette
import DiscGraphics.Proofs.Step

/-!
What holds of every decoder. From construction on, whatever records arrive and whatever the supply
answers, no bound is broken and the canvas stays sound: rows of the length asked for, pixels of four
bits, a fine offset below a tile and colours that a disc can hold.
-/
namespace DiscGraphics

theorem nibble_lt (b : UInt8) : nibble b < 16 := by
  rw [UInt8.lt_iff_toNat_lt, nibble, UInt8.toNat_and]
  exact Nat.lt_of_le_of_lt Nat.and_le_right (by decide)

theorem xor_lt_sixteen {a b : UInt8} (ha : a < 16) (hb : b < 16) : a ^^^ b < 16 := by
  rw [UInt8.lt_iff_toNat_lt] at ha hb ⊢
  rw [UInt8.toNat_xor]
  exact Nat.xor_lt_two_pow (n := 4) ha hb

theorem TileBlock.colorAt_lt (data : Payload) (x y : Nat) : (ofPayload data).colorAt x y < 16 := by
  unfold colorAt
  split <;> exact nibble_lt _

theorem TileMode.combine_lt (mode : TileMode) {new old : UInt8} (hnew : new < 16)
    (hold : old < 16) : mode.combine new old < 16 := by
  cases mode with
  | normal => exact hnew
  | xor => exact xor_lt_sixteen hnew hold

namespace Canvas

/-- Every visible pixel names a colour, and every colour is one that a disc can hold. -/
structure Clean (c : Canvas) : Prop where
  pixel_lt : ∀ {x y : Nat}, x < width → y < height → c.pixel x y < 16
  stretched : c.palette.AllStretched

/-- What holds of the canvas of a decoder that was built for rows of `n` bytes. -/
structure Sound (n : Nat) (c : Canvas) : Prop where
  stride : c.stride = n
  size : c.pixels.size = n * height
  pixel_lt : ∀ {x y : Nat}, x < width → y < height → c.pixel x y < 16
  horizontal_le : c.offset.horizontal ≤ 5
  vertical_le : c.offset.vertical ≤ 11
  stretched : c.palette.AllStretched

theorem Clean.sound {c : Canvas} (h : c.Clean) {n : Nat} (hs : c.stride = n) : c.Sound n :=
  ⟨hs, hs ▸ c.size_pixels, h.pixel_lt, c.offset.horizontal_le, c.offset.vertical_le, h.stretched⟩

theorem clean_blank (stride : Nat) (h : width ≤ stride) : (blank stride h).Clean := by
  refine ⟨?_, Palette.allStretched_black⟩
  intro x y _ _
  rw [pixel_blank]
  decide

namespace Clean

variable {c : Canvas}

/-- Changing pixels alone asks nothing of the colours. -/
theorem of_sameFrame (h : c.Clean) {d : Canvas} (hd : d.SameFrame c)
    (hp : ∀ {x y : Nat}, x < width → y < height → d.pixel x y < 16) : d.Clean :=
  ⟨hp, hd.palette ▸ h.stretched⟩

theorem paint (h : c.Clean) {x w : Nat} (hw : x + w ≤ width) (y n : Nat)
    {f : Nat → Nat → UInt8 → UInt8} (hf : ∀ i j v, v < 16 → f i j v < 16) :
    (c.paint x y w n f).Clean := by
  refine h.of_sameFrame (sameFrame_paint ..) ?_
  intro a b ha hb
  rw [pixel_paint c hw y n f ha hb]
  split
  · exact hf _ _ _ (h.pixel_lt ha hb)
  · exact h.pixel_lt ha hb

theorem memoryPreset (h : c.Clean) (data : Payload) : (c.memoryPreset data).Clean := by
  refine h.of_sameFrame (c.sameFrame_memoryPreset data) ?_
  intro x y hx hy
  unfold Canvas.memoryPreset
  split
  · rw [pixel_fill c _ hx hy]
    exact nibble_lt _
  · exact h.pixel_lt hx hy

theorem paintBorder (h : c.Clean) (color : UInt8) : (c.paintBorder color).Clean := by
  have hband (_ _ : Nat) (v : UInt8) (_ : v < 16) : nibble color < 16 := nibble_lt color
  exact (((h.paint (by decide) _ _ hband).paint (by decide) _ _ hband).paint (by decide) _ _
    hband).paint (by decide) _ _ hband

theorem tiled (h : c.Clean) (data : Payload) (mode : TileMode) : (c.tiled data mode).Clean := by
  unfold Canvas.tiled
  dsimp only
  split
  · next hfit =>
    have hc := (TileBlock.fits_ofPayload data _ _).mp hfit
    exact h.paint hc.1 _ _ fun i j v hv => mode.combine_lt (TileBlock.colorAt_lt data i j) hv
  · exact h

theorem loadPalette (h : c.Clean) (data : Payload) (half : PaletteHalf) :
    (c.loadPalette data half).Clean :=
  ⟨h.pixel_lt, h.stretched.load data half⟩

theorem draw (h : c.Clean) (i : Instruction) (data : Payload) : (c.draw i data).Clean := by
  cases i with
  | memoryPreset => exact h.memoryPreset data
  | borderPreset =>
    simp only [Canvas.draw]
    split
    · exact h.paintBorder _
    · exact h
  | tileBlock => exact h.tiled data .normal
  | tileBlockXor => exact h.tiled data .xor
  | loadPaletteLow => exact h.loadPalette data .low
  | loadPaletteHigh => exact h.loadPalette data .high
  | scrollPreset | scrollCopy | unknown => exact ⟨h.pixel_lt, h.stretched⟩

theorem scrolledPixel_lt (h : c.Clean) (s : ScrollShift) (color : UInt8) (mode : ScrollMode)
    {x y : Nat} (hx : x < width) (hy : y < height) : c.scrolledPixel s color mode x y < 16 := by
  have hfill (v : UInt8) (hv : v < 16) : mode.fill color v < 16 := by
    cases mode with
    | preset => exact nibble_lt color
    | copy => exact hv
  simp only [width, height] at hx hy
  unfold Canvas.scrolledPixel
  dsimp only
  split
  · split
    · exact h.pixel_lt (by simp only [width] at *; omega) (by simp only [height] at *; omega)
    · exact hfill _ (h.pixel_lt hx (by simp only [height]; omega))
  · exact hfill _ (h.pixel_lt (by simp only [width]; omega) hy)

/-- However dirty the second canvas was, a scroll leaves a clean one. -/
theorem of_scrolled (h : c.Clean) {out d : Canvas} {s : ScrollShift} {color : UInt8}
    {mode : ScrollMode} (hd : Scrolled c out s color mode d) : d.Clean := by
  refine ⟨?_, hd.palette ▸ h.stretched⟩
  intro x y hx hy
  rw [hd.pixel hx hy]
  exact h.scrolledPixel_lt s color mode hx hy

end Clean
end Canvas

namespace Decoder

variable {α : Type} [CanvasAllocator α]

theorem Executes.clean {c c' : Canvas} {a a' : α} {i : Instruction} {data : Payload}
    {r : Except DecodeError Unit} (h : Executes c a i data r c' a') (hc : c.Clean) :
    c'.Clean := by
  cases h with
  | drawn => exact hc.draw i data
  | scrolled _ _ _ hs hout =>
    have hclean := hc.of_scrolled (Canvas.scrolled_of_ok hs.symm hout)
    exact ⟨hclean.pixel_lt, hclean.stretched⟩
  | refused => exact hc
  | mismatched => exact hc

/-- A record leaves the rows as they are and a clean canvas clean, also when it is refused. -/
theorem Decodes.clean {d d' : Decoder α} {bytes : List UInt8}
    {r : Except DecodeError (Option Frame)} (h : Decodes d bytes r d') (hc : d.canvas.Clean) :
    d'.canvas.Clean ∧ d'.canvas.stride = d.canvas.stride := by
  cases h with
  | malformed => exact ⟨hc, rfl⟩
  | skipped => exact ⟨hc, rfl⟩
  | failed _ _ _ hx => exact ⟨hx.clean hc, hx.stride⟩
  | shown _ _ _ hx =>
    have hclean := hx.clean hc
    exact ⟨⟨hclean.pixel_lt, hclean.stretched⟩, hx.stride⟩

inductive Call where
  | decode (bytes : List UInt8)
  | reset

def call (d : Decoder α) : Call → Decoder α
  | .decode bytes => (d.decode bytes).2
  | .reset => d.reset

def tryDecode (d : Decoder α) (bytes : List UInt8) :
    Except Fault (Except DecodeError (Option Frame) × Decoder α) :=
  match Packet.parse bytes with
  | .error e => .ok (.error e, d.withLogger fun l => l.logMessage .error e.message)
  | .ok p =>
    if p.isGraphics then
      match (d.tracePacket p).perform p.instruction p.data with
      | .error fault => .error fault
      | .ok (.error e, d) => .ok (.error e, d)
      | .ok (.ok (), d) =>
        .ok (.ok (some d.frame), { d with
          canvas := d.canvas.clearPaletteChanged
          packetsDecoded := d.packetsDecoded + 1 })
    else
      .ok (.ok none, { d with packetsDecoded := d.packetsDecoded + 1 })

def tryCall (d : Decoder α) : Call → Except Fault (Decoder α)
  | .decode bytes => (d.tryDecode bytes).map Prod.snd
  | .reset => .ok d.reset

theorem tryDecode_eq_ok (d : Decoder α) (bytes : List UInt8) :
    d.tryDecode bytes = .ok (d.decode bytes) := by
  unfold tryDecode decode
  cases Packet.parse bytes with
  | error e => rfl
  | ok p =>
    dsimp only
    cases hg : p.isGraphics with
    | false =>
      simp only [decodePacket, hg]
      rfl
    | true =>
      simp only [decodePacket, hg, if_true, perform_eq_ok]
      obtain ⟨answer, d'⟩ := (d.tracePacket p).execute p.instruction p.data
      cases answer <;> rfl

theorem tryCall_eq_ok (d : Decoder α) (k : Call) : d.tryCall k = .ok (d.call k) := by
  cases k with
  | decode bytes =>
    rw [tryCall, tryDecode_eq_ok]
    rfl
  | reset => rfl

theorem call_clean {d : Decoder α} (hc : d.canvas.Clean) (k : Call) :
    (d.call k).canvas.Clean ∧ (d.call k).canvas.stride = d.canvas.stride := by
  cases k with
  | decode bytes => exact (d.decodes bytes).clean hc
  | reset => exact ⟨Canvas.clean_blank _ _, rfl⟩

theorem calls_clean {d : Decoder α} (hc : d.canvas.Clean) (calls : List Call) :
    calls.foldlM tryCall d = .ok (calls.foldl call d) ∧
      (calls.foldl call d).canvas.Clean ∧
      (calls.foldl call d).canvas.stride = d.canvas.stride := by
  induction calls generalizing d with
  | nil => exact ⟨rfl, hc, rfl⟩
  | cons k rest ih =>
    obtain ⟨hclean, hstride⟩ := call_clean hc k
    obtain ⟨hok, hrest, hlast⟩ := ih hclean
    refine ⟨?_, hrest, hlast.trans hstride⟩
    rw [List.foldlM_cons, tryCall_eq_ok]
    exact hok

/-- A decoder starts on a blank canvas of the stride asked for. -/
theorem canvas_of_withAllocator {a : α} {stride : Nat} {d : Decoder α}
    (h : withAllocator a stride = .ok d) :
    ∃ hw : width ≤ stride, d.canvas = .blank stride hw := by
  obtain ⟨hw, _, rfl⟩ := eq_of_withAllocator h
  exact ⟨hw, rfl⟩

/-- After any calls on a decoder that a supply was found for, no bound has been broken and the
canvas is sound. -/
theorem sound_after_calls {a : α} {stride : Nat} {d : Decoder α}
    (h : withAllocator a stride = .ok d) (calls : List Call) :
    calls.foldlM tryCall d = .ok (calls.foldl call d) ∧
      (calls.foldl call d).canvas.Sound stride := by
  obtain ⟨hw, hblank⟩ := canvas_of_withAllocator h
  have hc : d.canvas.Clean := by
    rw [hblank]
    exact Canvas.clean_blank stride hw
  obtain ⟨hok, hclean, hstride⟩ := calls_clean hc calls
  refine ⟨hok, hclean.sound ?_⟩
  rw [hstride, hblank]
  rfl

/-- A pool of one canvas: the scroll is refused, and the calls after it find the canvas sound. -/
theorem sound_after_refused_scroll :
    ∃ d, withAllocator (Pool.ofCapacity 1 .ample) 300 = .ok d ∧
      let calls := [.decode rightScroll.toBytes, .decode [9, 1],
        .reset, .decode (Packet.ofInstruction .memoryPreset rightward).toBytes]
      calls.foldlM tryCall d = .ok (calls.foldl call d) ∧
        (calls.foldl call d).canvas.Sound 300 :=
  ⟨⟨.empty, { capacity := 1, memory := .ample, live := 1 }, .silent, 0⟩,
    rfl, sound_after_calls (a := Pool.ofCapacity 1 .ample) rfl _⟩

end Decoder
end DiscGraphics
