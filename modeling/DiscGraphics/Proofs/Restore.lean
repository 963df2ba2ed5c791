import DiscGraphics.Proofs.Drawing

/-!
Restoring a snapshot of any content. One that is refused, for the first thing wrong with it, leaves
the decoder as it was; one that passes is written to the last field.
-/
namespace DiscGraphics
namespace Palette

/-- All sixteen entries set in order make the palette of their colours. -/
theorem foldl_set_eq_ofColors (p : Palette) (colors : Array UInt32) :
    (List.range 16).foldl (fun p k => p.set (UInt8.ofNat k) (colors.getD k 0)) p =
      ofColors colors := by
  apply ext_colors
  intro i
  rw [get_ofColors]
  exact get_foldl_set_of_mem p (List.mem_range.mpr i.isLt) rfl (fun _ hk => List.mem_range.mp hk)
    (fun _ _ h => h)

end Palette

namespace Canvas

/-- Write one row of a packed picture over that of the canvas, if it lies in the buffer. -/
def writeRow (c : Canvas) (pixels : Array UInt8) (y : Nat) : Except Fault Canvas :=
  if c.index 0 y + width ≤ c.pixels.size then
    .ok (c.paint 0 y width 1 fun i _ _ => nibble (pixels.getD (width * y + i) 0))
  else
    .error .outsideBuffer

/-- Write all complete rows of a packed picture. -/
def writeRows (c : Canvas) (pixels : Array UInt8) : Except Fault Canvas :=
  (List.range (pixels.size / width)).foldlM (fun c y => c.writeRow pixels y) c

/-- Set the entries of the palette one after the other. -/
def setColors (c : Canvas) (colors : Array UInt32) : Canvas :=
  (List.range colors.size).foldl (fun c i => c.setColor (UInt8.ofNat i) (colors.getD i 0)) c

theorem writeRow_eq_ok (c : Canvas) (pixels : Array UInt8) {y : Nat} (hy : y < height) :
    c.writeRow pixels y =
      .ok (c.paint 0 y width 1 fun i _ _ => nibble (pixels.getD (width * y + i) 0)) :=
  if_pos (c.spans_of_le (h := 1) (by simp) hy 0 (by simp))

theorem foldlM_writeRow (c : Canvas) (pixels : Array UInt8) {n : Nat} (hn : n ≤ height) :
    (List.range n).foldlM (fun c y => c.writeRow pixels y) c =
      .ok (c.paint 0 0 width n fun i j _ => nibble (pixels.getD (width * j + i) 0)) := by
  induction n with
  | zero => rfl
  | succ n ih =>
    rw [List.range_succ, List.foldlM_append, ih (by omega)]
    change List.foldlM (fun (c : Canvas) y => c.writeRow pixels y) _ [n] = _
    rw [paint_succ, Nat.zero_add, List.foldlM_cons, writeRow_eq_ok _ _ hn]
    rfl

/-- The rows of a picture of the right size are all written, each in its place. -/
theorem writeRows_eq_ok (c : Canvas) {pixels : Array UInt8} (h : pixels.size = width * height) :
    c.writeRows pixels = .ok (c.paintAll pixels) := by
  rw [writeRows, h]
  exact c.foldlM_writeRow pixels (Nat.le_refl height)

theorem setColors_eq (c : Canvas) {colors : Array UInt32} (h : colors.size = 16) :
    c.setColors colors = c.setPalette (.ofColors colors) := by
  have hfold (l : List Nat) (p : Palette) :
      l.foldl (fun c i => c.setColor (UInt8.ofNat i) (colors.getD i 0)) (c.setPalette p) =
        c.setPalette (l.foldl (fun p k => p.set (UInt8.ofNat k) (colors.getD k 0)) p) := by
    induction l generalizing p with
    | nil => rfl
    | cons k rest ih => exact ih _
  rw [setColors, h, ← Palette.foldl_set_eq_ofColors c.palette colors, ← hfold]
  rfl

end Canvas

namespace Snapshot

variable {α : Type}

/-- Check a snapshot, then write it into a decoder piece by piece. A refusal comes with the decoder
as it is at that moment. -/
def tryRestore (s : Snapshot) (d : Decoder α) :
    Except Fault (Except SnapshotError Unit × Decoder α) :=
  if s.version ≠ currentVersion then
    .ok (.error (.versionMismatch currentVersion s.version), d)
  else if s.palette.size ≠ 16 then
    .ok (.error (.invalidLength "palette" 16 s.palette.size), d)
  else if s.pixels.size ≠ width * height then
    .ok (.error (.invalidLength "pixels" (width * height) s.pixels.size), d)
  else do
    let c ← d.canvas.writeRows s.pixels
    let d := { d with canvas := c.setColors s.palette }
    let d := d.withCanvas fun c =>
      if s.paletteChanged then c.markPaletteChanged else c.clearPaletteChanged
    let d := d.withCanvas fun c => c.setOffset s.horizontal s.vertical
    .ok (.ok (), { d with packetsDecoded := s.packetsDecoded })

/-- The answer to a restore, and the decoder after it. -/
def restoring (s : Snapshot) (d : Decoder α) : Except SnapshotError Unit × Decoder α :=
  match s.restore d with
  | .ok d' => (.ok (), d')
  | .error e => (.error e, d)

/-- Restoring never breaks a bound, and a refused snapshot leaves the decoder as it was. -/
theorem tryRestore_eq_ok (s : Snapshot) (d : Decoder α) :
    s.tryRestore d = .ok (s.restoring d) := by
  unfold tryRestore restoring restore problem?
  split
  · rfl
  · split
    · rfl
    · next hpalette =>
      split
      · rfl
      · next hpixels =>
        rw [Decidable.not_not] at hpalette hpixels
        rw [Canvas.writeRows_eq_ok _ hpixels]
        rw [draw_eq_dress, Canvas.dress_eq, ← Canvas.setColors_eq _ hpalette]
        rfl

/-- The first thing that is wrong with a snapshot. -/
inductive FirstFault (s : Snapshot) : SnapshotError → Prop where
  | version : s.version ≠ 1 → FirstFault s (.versionMismatch 1 s.version)
  | palette : s.version = 1 → s.palette.size ≠ 16 →
      FirstFault s (.invalidLength "palette" 16 s.palette.size)
  | pixels : s.version = 1 → s.palette.size = 16 → s.pixels.size ≠ 64800 →
      FirstFault s (.invalidLength "pixels" 64800 s.pixels.size)

theorem problem?_eq_some_iff (s : Snapshot) (e : SnapshotError) :
    s.problem? = some e ↔ s.FirstFault e := by
  unfold problem?
  constructor
  · intro h
    split at h
    · next hv =>
      cases h
      exact .version hv
    · next hv =>
      rw [Decidable.not_not] at hv
      split at h
      · next hp =>
        cases h
        exact .palette hv hp
      · next hp =>
        rw [Decidable.not_not] at hp
        split at h
        · next hx =>
          cases h
          exact .pixels hv hp hx
        · cases h
  · intro h
    cases h with
    | version hv => exact if_pos hv
    | palette hv hp => exact (if_neg (not_not_intro hv)).trans (if_pos hp)
    | pixels hv hp hx =>
      exact (if_neg (not_not_intro hv)).trans ((if_neg (not_not_intro hp)).trans (if_pos hx))

theorem problem?_eq_none {s : Snapshot} (hv : s.version = 1) (hp : s.palette.size = 16)
    (hx : s.pixels.size = 64800) : s.problem? = none :=
  (if_neg (not_not_intro hv)).trans
    ((if_neg (not_not_intro hp)).trans (if_neg (not_not_intro hx)))

/-- A decoder in the state of a snapshot. -/
def into (s : Snapshot) (d : Decoder α) : Decoder α :=
  { d with canvas := s.draw d.canvas, packetsDecoded := s.packetsDecoded }

@[simp] theorem canvas_into (s : Snapshot) (d : Decoder α) :
    (s.into d).canvas = s.draw d.canvas := by
  rw [into]

theorem restore_eq_ok {s : Snapshot} (h : s.problem? = none) (d : Decoder α) :
    s.restore d = .ok (s.into d) := by
  rw [restore, h, into]

theorem restoring_of_none {s : Snapshot} (h : s.problem? = none) (d : Decoder α) :
    s.restoring d = (.ok (), s.into d) := by
  rw [restoring, restore_eq_ok h]

theorem into_into (s : Snapshot) (d : Decoder α) : s.into (s.into d) = s.into d := by
  rw [into, canvas_into, draw_draw]
  rw [into]

/-- A snapshot of a restored decoder restores it to where it is. -/
theorem ofDecoder_into (s : Snapshot) (d : Decoder α) (timestamp : String) :
    (ofDecoder (s.into d) timestamp).into (s.into d) = s.into d := by
  have hcanvas : (ofDecoder (s.into d) timestamp).draw (s.draw d.canvas) = s.draw d.canvas := by
    rw [s.draw_ofDecoder (s.canvas_into d), draw_draw]
  have hcount : (ofDecoder (s.into d) timestamp).packetsDecoded = s.packetsDecoded := by
    rw [ofDecoder, into]
  rw [into, hcount, canvas_into, hcanvas]
  rw [into]

theorem problem?_ofDecoder (d : Decoder α) (timestamp : String) :
    (ofDecoder d timestamp).problem? = none := by
  have hpixels : (ofDecoder d timestamp).pixels.size = width * height := by
    rw [ofDecoder, d.frame.size_packedPixels]
  exact problem?_eq_none rfl (by rw [ofDecoder, Vector.size_toArray]) hpixels

/-- What a restored snapshot leaves in a decoder, whatever its fields hold. -/
structure Restored (s : Snapshot) (d d' : Decoder α) : Prop where
  pixel : ∀ {x y : Nat}, x < 300 → y < 216 →
    d'.canvas.pixel x y = s.pixels.getD (300 * y + x) 0 &&& 15
  color : ∀ i : Fin 16, d'.canvas.palette.colors.get i = s.palette.getD i 0 &&& 0xFFFFFF
  horizontal : d'.canvas.offset.horizontal = min s.horizontal 5
  vertical : d'.canvas.offset.vertical = min s.vertical 11
  paletteChanged : d'.canvas.paletteChanged = s.paletteChanged
  packetsDecoded : d'.packetsDecoded = s.packetsDecoded
  stride : d'.canvas.stride = d.canvas.stride
  padding : ∀ k, 300 ≤ k % d.canvas.stride → d'.canvas.pixels[k]? = d.canvas.pixels[k]?
  allocator : d'.allocator = d.allocator
  logger : d'.logger = d.logger

theorem restored_into (s : Snapshot) (d : Decoder α) :
    s.Restored d (s.into d) where
  pixel hx hy := by
    rw [canvas_into, s.pixel_draw d.canvas hx hy]
    rfl
  color i := by rw [canvas_into, palette_draw, Palette.get_ofColors]
  horizontal := by
    rw [canvas_into, offset_draw]
    rfl
  vertical := by
    rw [canvas_into, offset_draw]
    rfl
  paletteChanged := by rw [canvas_into, paletteChanged_draw]
  packetsDecoded := by rw [into]
  stride := by rw [canvas_into, stride_draw]
  padding k hk := by rw [canvas_into, s.getElem?_draw_padding d.canvas hk]
  allocator := by rw [into]
  logger := by rw [into]

/-- A snapshot of any content is refused for the first thing that is wrong with it, and then the
decoder stays as it is; or else all of it is restored, and nothing but the picture and the packet
count changes. Restoring it again changes nothing, nor does restoring a snapshot of the result. No
bound is broken on the way. -/
theorem restore_refused_or_complete (s : Snapshot) (d : Decoder α) :
    s.tryRestore d = .ok (s.restoring d) ∧
      (∀ e d', s.restoring d = (.error e, d') ↔ s.FirstFault e ∧ d' = d) ∧
      (s.version = 1 → s.palette.size = 16 → s.pixels.size = 64800 →
        ∃ d', s.restoring d = (.ok (), d') ∧ s.Restored d d' ∧ s.restoring d' = (.ok (), d') ∧
          ∀ timestamp, (ofDecoder d' timestamp).restoring d' = (.ok (), d')) := by
  refine ⟨s.tryRestore_eq_ok d, ?_, ?_⟩
  · intro e d'
    rw [← problem?_eq_some_iff]
    cases hp : s.problem? with
    | some first =>
      simp only [restoring, restore, hp, Prod.mk.injEq, Except.error.injEq, Option.some.injEq,
        eq_comm (a := d)]
    | none => simp [restoring, restore, hp]
  · intro hv hp hx
    have hsound := problem?_eq_none hv hp hx
    refine ⟨s.into d, restoring_of_none hsound d, s.restored_into d, ?_, ?_⟩
    · rw [restoring_of_none hsound, into_into]
    · intro timestamp
      rw [restoring_of_none (problem?_ofDecoder _ timestamp), ofDecoder_into]

/-- A snapshot whose every field is as large as its type allows. -/
def loudSnapshot : Snapshot where
  version := 1
  timestamp := ""
  packetsDecoded := 0xFFFFFFFFFFFFFFFF
  horizontal := 0xFF
  vertical := 0xFF
  palette := .replicate 16 0xFFFFFFFF
  paletteChanged := true
  pixels := .replicate 64800 0xFF

/-- The loud snapshot with a colour too few and no picture. -/
def shortSnapshot : Snapshot :=
  { loudSnapshot with palette := .replicate 15 0xFFFFFFFF, pixels := #[] }

/-- A decoder with padded rows and a soiled canvas. -/
def soiledDecoder : Decoder Heap where
  canvas := (Canvas.blank 310 (by decide)).fill 7
  allocator := ⟨.ample⟩
  logger := .silent
  packetsDecoded := 5

/-- The loud snapshot is cut to what fits, here in the last corner of a soiled canvas; the short one
is refused for its palette. -/
theorem restored_loudSnapshot :
    (∃ d', loudSnapshot.restoring soiledDecoder = (.ok (), d') ∧
      d'.canvas.pixel 299 215 = 15 ∧ d'.canvas.palette.colors.get 15 = 0xFFFFFF ∧
      d'.canvas.offset.horizontal = 5 ∧ d'.canvas.offset.vertical = 11 ∧
      d'.canvas.stride = 310 ∧ d'.packetsDecoded = 0xFFFFFFFFFFFFFFFF) ∧
    shortSnapshot.restoring soiledDecoder =
      (.error (.invalidLength "palette" 16 15), soiledDecoder) := by
  obtain ⟨d', hd, hrestored, -⟩ := (restore_refused_or_complete loudSnapshot soiledDecoder).2.2 rfl
    Array.size_replicate Array.size_replicate
  have hbyte : loudSnapshot.pixels.getD (300 * 215 + 299) 0 = 0xFF := by
    simp [loudSnapshot, Array.getD]
  have hcolor : loudSnapshot.palette.getD (15 : Fin 16).val 0 = 0xFFFFFFFF := by
    simp [loudSnapshot, Array.getD]
  have hshort := (restore_refused_or_complete shortSnapshot soiledDecoder).2.1
    (.invalidLength "palette" 16 15) soiledDecoder
  refine ⟨⟨d', hd, ?_, ?_, hrestored.horizontal, hrestored.vertical, hrestored.stride,
    hrestored.packetsDecoded⟩, hshort.mpr ⟨.palette rfl (by decide), rfl⟩⟩
  · rw [hrestored.pixel (by decide) (by decide), hbyte]
    rfl
  · rw [hrestored.color, hcolor]
    rfl

end Snapshot
end DiscGraphics
