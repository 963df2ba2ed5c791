import DiscGraphics.Proofs.Refusal

/-!
What a caller can tell from a run of decoding: the answer to each record, the views of the frames,
and after each record the picture, its colours and the packet count. Alike decoders on supplies that
stay in step have equal transcripts, and supplies that never run dry are in step, so neither the
length of the rows nor anything a supply left in a canvas can be told.
-/
namespace DiscGraphics
open CanvasAllocator (InStep Supplies inStep_supplies)

structure FrameView where
  packed : Array UInt8
  visible : Array UInt8
  rgb : Array UInt8
  palette : Palette
  paletteChanged : Bool

def Frame.view (f : Frame) : FrameView where
  packed := f.packedPixels
  visible := f.visiblePixels
  rgb := f.rgb
  palette := f.canvas.palette
  paletteChanged := f.canvas.paletteChanged

/-- The answer to a record, and what can be told of the decoder after it. -/
structure Observation where
  answer : Except DecodeError (Option FrameView)
  packed : Array UInt8
  palette : Palette
  paletteChanged : Bool
  offset : FineOffset
  packetsDecoded : UInt64

/-- The same, seen by a decoder that has counted `n` records more. -/
def Observation.ahead (n : UInt64) (o : Observation) : Observation :=
  { o with packetsDecoded := o.packetsDecoded + n }

theorem Observation.ahead_zero : ahead 0 = id := by
  funext o
  rw [ahead, UInt64.add_zero, id]

namespace Canvas

theorem Alike.draw {c d : Canvas} (h : Alike c d) (i : Instruction) (data : Payload) :
    Alike (c.draw i data) (d.draw i data) := by
  cases i with
  | memoryPreset => exact h.memoryPreset data
  | borderPreset =>
    simp only [Canvas.draw]
    split
    · exact h.paintBorder _
    · exact h
  | tileBlock => exact h.tiled data .normal
  | tileBlockXor => exact h.tiled data .xor
  | scrollPreset | scrollCopy => exact h.setOffset _ _
  | loadPaletteLow => exact h.loadPalette data .low
  | loadPaletteHigh => exact h.loadPalette data .high
  | unknown => exact h

theorem Alike.shiftOf {c d : Canvas} (h : Alike c d) (data : Payload) :
    c.shiftOf data = d.shiftOf data := by
  rw [Canvas.shiftOf, Canvas.shiftOf, h.offset]

theorem Alike.moves_iff {c d : Canvas} (h : Alike c d) (i : Instruction) (data : Payload) :
    c.Moves i data ↔ d.Moves i data := by
  rw [Moves, Moves, h.shiftOf]

theorem Alike.becomes {c d c' d' : Canvas} (h : Alike c d) {i : Instruction} {data : Payload}
    (hc : c.Becomes i data c') (hd : d.Becomes i data d') : Alike c' d' := by
  cases hc with
  | drawn hstay =>
    cases hd with
    | drawn => exact h.draw i data
    | scrolled _ hmove => exact absurd ((h.moves_iff i data).mpr hmove) hstay
  | scrolled hmode hmove hout =>
    cases hd with
    | drawn hstay => exact absurd ((h.moves_iff i data).mp hmove) hstay
    | scrolled hmode' _ hout' =>
      rw [hmode] at hmode'
      cases hmode'
      rw [← h.shiftOf data] at hout'
      exact h.of_scrolled hout hout' _ _

theorem alike_mapBytes (c : Canvas) {f : Nat → UInt8 → UInt8}
    (hf : ∀ i v, i % c.stride < width → f i v = v) : Alike (c.mapBytes f) c := by
  refine ⟨?_, rfl, rfl, rfl⟩
  intro x y hx hy
  have hs : x < c.stride := Nat.lt_of_lt_of_le hx c.width_le_stride
  have hmod : c.index x y % c.stride = x := by
    rw [index, Nat.add_comm, Nat.add_mul_mod_self_right, Nat.mod_eq_of_lt hs]
  have hi : (c.mapBytes f).index x y = c.index x y := rfl
  rw [pixel, hi, mapBytes, pixel, Array.getD_eq_getD_getElem?, Array.getD_eq_getD_getElem?,
    Array.getElem?_mapIdx, Array.getElem?_eq_getElem (c.index_lt_size hx hy)]
  exact hf _ _ (by rw [hmod]; exact hx)

end Canvas

namespace Decoder

variable {α β : Type}

def observe (answer : Except DecodeError (Option Frame)) (d : Decoder α) : Observation where
  answer := answer.map (Option.map Frame.view)
  packed := d.frame.packedPixels
  palette := d.canvas.palette
  paletteChanged := d.canvas.paletteChanged
  offset := d.canvas.offset
  packetsDecoded := d.packetsDecoded

theorem view_congr {c d : Canvas} (h : c.Alike d) : Frame.view ⟨c⟩ = Frame.view ⟨d⟩ := by
  rw [Frame.view, Frame.view, Frame.packedPixels_congr h, Frame.visiblePixels_congr h,
    Frame.rgb_congr h, h.palette, h.paletteChanged]

theorem observe_congr {d : Decoder α} {e : Decoder β} {n : UInt64}
    (h : d.canvas.Alike e.canvas) (hn : d.packetsDecoded = e.packetsDecoded + n)
    {r r' : Except DecodeError (Option Frame)}
    (hr : r.map (Option.map Frame.view) = r'.map (Option.map Frame.view)) :
    observe r d = (observe r' e).ahead n := by
  have hpacked : d.frame.packedPixels = e.frame.packedPixels := Frame.packedPixels_congr h
  rw [observe, observe, Observation.ahead, hr, hpacked, h.palette, h.paletteChanged, h.offset, hn]

variable [CanvasAllocator α] [CanvasAllocator β]

/-- What is observed while some records are decoded in order. -/
def transcript (d : Decoder α) : List (List UInt8) → List Observation
  | [] => []
  | bytes :: rest =>
    observe (d.decode bytes).1 (d.decode bytes).2 :: (d.decode bytes).2.transcript rest

/-- Two decoders that show the same, on supplies that are related. -/
structure Mirrors (s t : Nat) (R : α → β → Prop) (d : Decoder α) (e : Decoder β) : Prop where
  canvas : d.canvas.Alike e.canvas
  left : d.canvas.stride = s
  right : e.canvas.stride = t
  supply : R d.allocator e.allocator

section

variable {s t : Nat} {R : α → β → Prop} {d : Decoder α} {e : Decoder β}

/-- On supplies in step an instruction is granted on both sides or refused on both. -/
theorem Mirrors.executes (h : Mirrors s t R d e) (hR : InStep s t R) {i : Instruction}
    {data : Payload} {x y : Except DecodeError Unit} {c k : Canvas} {a : α} {b : β}
    (hx : Executes d.canvas d.allocator i data x c a)
    (hy : Executes e.canvas e.allocator i data y k b) : x = y ∧ c.Alike k ∧ R a b := by
  obtain ⟨hcanvas, rfl, rfl, hsupply⟩ := h
  by_cases hmove : d.canvas.Moves i data
  · have hmove' := (hcanvas.moves_iff i data).mp hmove
    cases hR hsupply with
    | refused ha hb hlater =>
      obtain ⟨rfl, rfl, rfl⟩ := hx.of_refused hmove ha
      obtain ⟨rfl, rfl, rfl⟩ := hy.of_refused hmove' hb
      exact ⟨rfl, hcanvas, hlater⟩
    | granted ha hb hs ht hback =>
      obtain ⟨rfl, rfl⟩ := hx.of_granted hmove ha hs
      obtain ⟨rfl, rfl⟩ := hy.of_granted hmove' hb ht
      exact ⟨rfl, hcanvas.becomes hx.becomes hy.becomes, hback _ _ rfl rfl⟩
  · have hstay := mt (hcanvas.moves_iff i data).mpr hmove
    obtain ⟨rfl, rfl, rfl⟩ := hx.of_stay hmove
    obtain ⟨rfl, rfl, rfl⟩ := hy.of_stay hstay
    exact ⟨rfl, hcanvas.draw i data, hsupply⟩

/-- One record cannot tell the two apart, and leaves them so. -/
theorem Mirrors.decode (h : Mirrors s t R d e) (hR : InStep s t R) (bytes : List UInt8) :
    (d.decode bytes).1.map (Option.map Frame.view) =
        (e.decode bytes).1.map (Option.map Frame.view) ∧
      Mirrors s t R (d.decode bytes).2 (e.decode bytes).2 := by
  by_cases hlen : bytes.length = 24
  · obtain ⟨p, hp⟩ := Packet.parse_eq_ok hlen
    cases hg : p.isGraphics with
    | false =>
      rw [d.decode_skipped hp hg, e.decode_skipped hp hg]
      exact ⟨rfl, h.canvas, h.left, h.right, h.supply⟩
    | true =>
      obtain ⟨x, c, a, l, hx, hd⟩ := d.decode_executed hp hg
      obtain ⟨y, k, b, m, hy, he⟩ := e.decode_executed hp hg
      obtain ⟨rfl, hshown, hlater⟩ := h.executes hR hx hy
      have hleft := hx.stride.trans h.left
      have hright := hy.stride.trans h.right
      rw [hd, he]
      cases x with
      | error cause => exact ⟨rfl, hshown, hleft, hright, hlater⟩
      | ok =>
        refine ⟨?_, hshown.clearPaletteChanged, hleft, hright, hlater⟩
        simp only [Except.map, Option.map, view_congr hshown]
  · obtain ⟨l, hd⟩ := d.decode_malformed hlen
    obtain ⟨m, he⟩ := e.decode_malformed hlen
    rw [hd, he]
    exact ⟨rfl, h.canvas, h.left, h.right, h.supply⟩

/-- No records tell the two apart. Only the packet counts go on to differ by what they differed. -/
theorem Mirrors.transcript (h : Mirrors s t R d e) (hR : InStep s t R) {n : UInt64}
    (hn : d.packetsDecoded = e.packetsDecoded + n) (records : List (List UInt8)) :
    d.transcript records = (e.transcript records).map (Observation.ahead n) := by
  induction records generalizing d e with
  | nil => rfl
  | cons bytes rest ih =>
    obtain ⟨hsame, hnext⟩ := h.decode hR bytes
    have hok : (d.decode bytes).1.isOk = (e.decode bytes).1.isOk := by
      rw [← isOk_map (Option.map Frame.view), hsame, isOk_map]
    have hcount : (d.decode bytes).2.packetsDecoded = (e.decode bytes).2.packetsDecoded + n := by
      rw [packetsDecoded_decode, packetsDecoded_decode, hok, hn]
      split
      · rw [UInt64.add_assoc, UInt64.add_comm n, ← UInt64.add_assoc]
      · rfl
    rw [Decoder.transcript, Decoder.transcript, List.map_cons, ih hnext hcount,
      observe_congr hnext.canvas hcount hsame]

theorem Mirrors.transcript_eq (h : Mirrors s t R d e) (hR : InStep s t R)
    (hn : d.packetsDecoded = e.packetsDecoded) (records : List (List UInt8)) :
    d.transcript records = e.transcript records := by
  rw [h.transcript hR (hn.trans (UInt64.add_zero _).symm), Observation.ahead_zero, List.map_id]

/-- Alike decoders that never lack a canvas mirror each other. -/
theorem mirrors_of_supplies (h : d.canvas.Alike e.canvas)
    (hd : Supplies d.canvas.stride d.allocator) (he : Supplies e.canvas.stride e.allocator) :
    Mirrors d.canvas.stride e.canvas.stride
      (fun a b => Supplies d.canvas.stride a ∧ Supplies e.canvas.stride b) d e :=
  ⟨h, rfl, rfl, hd, he⟩

end

/-- Two decoders that show the same and never lack a canvas. -/
structure Twins (d : Decoder α) (e : Decoder β) : Prop where
  canvas : d.canvas.Alike e.canvas
  packetsDecoded : d.packetsDecoded = e.packetsDecoded
  left : Supplies d.canvas.stride d.allocator
  right : Supplies e.canvas.stride e.allocator

theorem Twins.transcript {d : Decoder α} {e : Decoder β} (h : d.Twins e)
    (records : List (List UInt8)) : d.transcript records = e.transcript records :=
  (mirrors_of_supplies h.canvas h.left h.right).transcript_eq (inStep_supplies _ _)
    h.packetsDecoded records

/-- A supply that never runs dry starts a decoder on a blank canvas. -/
theorem withAllocator_of_supplies {a : α} {stride : Nat} (hw : width ≤ stride)
    (h : Supplies stride a) :
    ∃ d, withAllocator a stride = .ok d ∧ d.canvas = .blank stride hw ∧ d.packetsDecoded = 0 ∧
      Supplies stride d.allocator := by
  obtain ⟨c, a', hacq, hs, ha'⟩ := h.acquire
  refine ⟨⟨c.reset, a', .silent, 0⟩, ?_, ?_, rfl, ha'⟩
  · rw [withAllocator, if_neg (Nat.not_lt.mpr hw), hacq]
    exact if_pos hs
  · subst hs
    rfl

/-- Neither the stride nor the supply can be told from a run. -/
theorem transcript_eq_of_supplies {a : α} {b : β} {s t : Nat} (hs : width ≤ s) (ht : width ≤ t)
    (ha : Supplies s a) (hb : Supplies t b) :
    ∃ d e, withAllocator a s = .ok d ∧ withAllocator b t = .ok e ∧
      ∀ records, d.transcript records = e.transcript records := by
  obtain ⟨d, hd, hdc, hdn, hda⟩ := withAllocator_of_supplies hs ha
  obtain ⟨e, he, hec, hen, hea⟩ := withAllocator_of_supplies ht hb
  have hd' : Supplies d.canvas.stride d.allocator := by rw [hdc]; exact hda
  have he' : Supplies e.canvas.stride e.allocator := by rw [hec]; exact hea
  have htwins : d.Twins e :=
    ⟨by rw [hdc, hec]; exact .blank hs ht, hdn.trans hen.symm, hd', he'⟩
  exact ⟨d, e, hd, he, htwins.transcript⟩

theorem transcript_mapBytes (d : Decoder α) (h : Supplies d.canvas.stride d.allocator)
    {f : Nat → UInt8 → UInt8} (hf : ∀ i v, i % d.canvas.stride < width → f i v = v)
    (records : List (List UInt8)) :
    (d.withCanvas (Canvas.mapBytes f)).transcript records = d.transcript records := by
  have htwins : (d.withCanvas (Canvas.mapBytes f)).Twins d :=
    ⟨d.canvas.alike_mapBytes hf, rfl, h, h⟩
  exact htwins.transcript records

/-- Stride, supply and row padding are all hidden: decoders on any two supplies that never run dry
have one transcript, the heap and a pool without a bound among them, and so has a decoder whose row
padding is changed. -/
theorem transcript_independent {a : α} {b : β} {s t : Nat} (hs : width ≤ s) (ht : width ≤ t)
    (ha : Supplies s a) (hb : Supplies t b) :
    (∃ d e, withAllocator a s = .ok d ∧ withAllocator b t = .ok e ∧
      ∀ records, d.transcript records = e.transcript records) ∧
    (∀ (u v : Nat) (m n : Memory), width ≤ u → m.Lends (u * height) → width ≤ v →
      n.Lends (v * height) →
      ∃ d e, withAllocator (Heap.mk m) u = .ok d ∧ withAllocator (Pool.ofCapacity 0 n) v = .ok e ∧
        ∀ records, d.transcript records = e.transcript records) ∧
    ∀ (d : Decoder α) (f : Nat → UInt8 → UInt8), Supplies d.canvas.stride d.allocator →
      (∀ i v, i % d.canvas.stride < width → f i v = v) →
      ∀ records, (d.withCanvas (Canvas.mapBytes f)).transcript records = d.transcript records := by
  refine ⟨transcript_eq_of_supplies hs ht ha hb, ?_, ?_⟩
  · intro u v m n hu hm hv hn
    exact transcript_eq_of_supplies hu hv (Heap.supplies hu hm) (Pool.supplies hv rfl hn)
  · intro d f hd hf records
    exact d.transcript_mapBytes hd hf records

/-- A pool that keeps one soiled canvas of 320 bytes a row. -/
def soiledPool : Pool where
  capacity := 0
  memory := .ample
  free := [(Canvas.blank 320 (by decide)).fill 7]

/-- The heap with unpadded rows and a pool that hands out a soiled canvas with padded rows. -/
theorem transcript_heap_eq_soiledPool :
    ∃ d e, withAllocator (Heap.mk .ample) 300 = .ok d ∧ withAllocator soiledPool 320 = .ok e ∧
      ∀ records, d.transcript records = e.transcript records :=
  (transcript_independent (by decide) (by decide)
    (Heap.supplies (by decide) (Memory.lends_ample (by decide)))
    (Pool.supplies (by decide) rfl (Memory.lends_ample (by decide)))).1

end Decoder
end DiscGraphics
