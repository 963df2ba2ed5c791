import DiscGraphics.Proofs.Colors
import DiscGraphics.Proofs.Transcript

/-!
Two decoders that come together from any two states, as long as neither ever lacks a canvas. First
they share the fine offset, then the picture, then the palette, and what they share is kept.
-/
namespace DiscGraphics
open CanvasAllocator (Supplies inStep_supplies)

namespace Canvas

/-- A canvas stripped of its colours and the mark for them: the picture and the fine offset. -/
def uncolored (c : Canvas) : Canvas := (c.setPalette .black).clearPaletteChanged

@[simp] theorem uncolored_uncolored (c : Canvas) : c.uncolored.uncolored = c.uncolored := rfl

@[simp] theorem uncolored_setPalette (c : Canvas) (p : Palette) :
    (c.setPalette p).uncolored = c.uncolored := rfl

@[simp] theorem uncolored_markPaletteChanged (c : Canvas) :
    c.markPaletteChanged.uncolored = c.uncolored := rfl

theorem Alike.uncolored {c k : Canvas} (h : c.Alike k) : c.uncolored.Alike k.uncolored :=
  ⟨h.pixel, rfl, rfl, h.offset⟩

/-- No instruction draws by the palette. -/
theorem uncolored_draw (c : Canvas) (i : Instruction) (data : Payload) :
    (c.uncolored.draw i data).uncolored = (c.draw i data).uncolored := by
  cases i with
  | memoryPreset =>
    simp only [draw, Canvas.memoryPreset]
    split <;> rfl
  | borderPreset =>
    simp only [draw]
    split <;> rfl
  | tileBlock | tileBlockXor =>
    have ho : c.uncolored.offset = c.offset := rfl
    simp only [draw, tiled, ho]
    split <;> rfl
  | loadPaletteLow | loadPaletteHigh => simp [draw, loadPalette]
  | scrollPreset | scrollCopy | unknown => rfl

theorem Becomes.uncolored {c c' : Canvas} {i : Instruction} {data : Payload}
    (h : c.Becomes i data c') :
    ∃ k, c.uncolored.Becomes i data k ∧ k.uncolored = c'.uncolored := by
  cases h with
  | drawn hstay => exact ⟨_, .drawn hstay, c.uncolored_draw i data⟩
  | @scrolled mode next out hmode hmove hout =>
    have hstripped : Scrolled c.uncolored next (c.uncolored.shiftOf data)
        (ScrollParams.ofPayload data).color mode out.uncolored :=
      ⟨hout.stride, rfl, rfl, hout.offset, hout.pixel⟩
    exact ⟨_, .scrolled hmode hmove hstripped, rfl⟩

theorem Becomes.alike_uncolored {c c' k k' : Canvas} {i : Instruction} {data : Payload}
    (hc : c.Becomes i data c') (hk : k.Becomes i data k') (h : c.uncolored.Alike k.uncolored) :
    c'.uncolored.Alike k'.uncolored := by
  obtain ⟨u, hu, hcu⟩ := hc.uncolored
  obtain ⟨v, hv, hkv⟩ := hk.uncolored
  rw [← hcu, ← hkv]
  exact (h.becomes hu hv).uncolored

theorem offset_draw_of_not_scroll (c : Canvas) {i : Instruction} (hi : i.scrollMode? = none)
    (data : Payload) : (c.draw i data).offset = c.offset := by
  cases i with
  | memoryPreset | borderPreset | tileBlock | tileBlockXor | unknown =>
    exact (c.sameFrame_draw rfl data).offset
  | loadPaletteLow | loadPaletteHigh => rfl
  | scrollPreset | scrollCopy => cases hi

theorem Becomes.offset_of_not_scroll {c c' : Canvas} {i : Instruction} {data : Payload}
    (h : c.Becomes i data c') (hi : i.scrollMode? = none) : c'.offset = c.offset := by
  cases h with
  | drawn => exact c.offset_draw_of_not_scroll hi data
  | scrolled _ hmove => exact absurd hmove (not_moves hi)

/-- A fill leaves nothing of the picture before it. -/
theorem Becomes.fill {c c' : Canvas} {data : Payload} (h : c.Becomes .memoryPreset data c')
    (hrepeat : nibble data.second = 0) : c' = c.fill (nibble data.first) := by
  cases h with
  | drawn => exact if_pos hrepeat
  | scrolled hmode => cases hmode

end Canvas

/-- Two canvases of which nothing is known. -/
def Unrelated (_ _ : Canvas) : Prop := True

/-- Two canvases have one fine offset, and agree on whether the palette was changed. -/
structure SameOffset (c k : Canvas) : Prop where
  offset : c.offset = k.offset
  paletteChanged : c.paletteChanged = k.paletteChanged

/-- Two canvases are alike but for their colours. -/
structure SameShape (c k : Canvas) : Prop where
  uncolored : c.uncolored.Alike k.uncolored
  paletteChanged : c.paletteChanged = k.paletteChanged

/-- An instruction that is carried out on two canvases related by `P` leaves them related by `Q`,
once a frame has taken the palette's mark. -/
def Brings (P : Canvas → Canvas → Prop) (i : Instruction) (data : Payload)
    (Q : Canvas → Canvas → Prop) : Prop :=
  ∀ {c k c' k' : Canvas}, P c k → c.Becomes i data c' → k.Becomes i data k' →
    Q c'.clearPaletteChanged k'.clearPaletteChanged

theorem brings_unrelated (i : Instruction) (data : Payload) :
    Brings Unrelated i data Unrelated := by
  intro c k c' k' _ _ _
  trivial

/-- A scroll gives both canvases its fine offset, whichever they had and whether it moves them. -/
theorem brings_sameOffset_of_scroll (P : Canvas → Canvas → Prop) {i : Instruction}
    (hi : i.scrollMode?.isSome) (data : Payload) : Brings P i data SameOffset := by
  intro c k c' k' _ hc hk
  refine ⟨?_, rfl⟩
  exact (hc.offset_of_scroll hi).trans (hk.offset_of_scroll hi).symm

theorem brings_sameOffset (i : Instruction) (data : Payload) :
    Brings SameOffset i data SameOffset := by
  cases hi : i.scrollMode? with
  | some mode => exact brings_sameOffset_of_scroll _ (by rw [hi]; rfl) data
  | none =>
    intro c k c' k' h hc hk
    refine ⟨?_, rfl⟩
    exact (hc.offset_of_not_scroll hi).trans (h.offset.trans (hk.offset_of_not_scroll hi).symm)

/-- A fill gives both canvases one picture. -/
theorem brings_sameShape_of_fill {data : Payload} (hrepeat : nibble data.second = 0) :
    Brings SameOffset .memoryPreset data SameShape := by
  intro c k c' k' h hc hk
  obtain rfl := hc.fill hrepeat
  obtain rfl := hk.fill hrepeat
  refine ⟨⟨?_, rfl, rfl, h.offset⟩, rfl⟩
  intro x y hx hy
  exact (c.pixel_fill _ hx hy).trans (k.pixel_fill _ hx hy).symm

theorem brings_sameShape (i : Instruction) (data : Payload) :
    Brings SameShape i data SameShape := by
  intro c k c' k' h hc hk
  have halike := hc.alike_uncolored hk h.uncolored
  exact ⟨⟨halike.pixel, rfl, rfl, halike.offset⟩, rfl⟩

namespace Decoder

variable {α β : Type}

/-- Two decoders whose canvases are related, and which never lack a canvas. -/
structure Paired [CanvasAllocator α] [CanvasAllocator β] (P : Canvas → Canvas → Prop)
    (d : Decoder α) (e : Decoder β) : Prop where
  canvas : P d.canvas e.canvas
  left : Supplies d.canvas.stride d.allocator
  right : Supplies e.canvas.stride e.allocator

variable [CanvasAllocator α] [CanvasAllocator β] {P Q : Canvas → Canvas → Prop}
  {d : Decoder α} {e : Decoder β}

/-- A record with a graphics instruction has it carried out, and lets a frame out. -/
theorem becomes_of_supplies (h : Supplies d.canvas.stride d.allocator) {bytes : List UInt8}
    {i : Instruction} {data : Payload}
    (hi : (Entry.record bytes).instruction? = some (i, data)) :
    ∃ c, d.canvas.Becomes i data c ∧ (d.decode bytes).2.canvas = c.clearPaletteChanged := by
  have hruns := d.runs_of_instruction? hi
  have hx := d.executes i data
  obtain ⟨hok, -⟩ := hx.of_supplies h
  have hcanvas : (d.decode bytes).2.canvas = _ := hruns.canvas
  rw [hok] at hx hcanvas
  exact ⟨_, hx.becomes, hcanvas⟩

theorem Paired.decode (h : Paired P d e) {bytes : List UInt8} {i : Instruction} {data : Payload}
    (hi : (Entry.record bytes).instruction? = some (i, data)) (hb : Brings P i data Q) :
    Paired Q (d.decode bytes).2 (e.decode bytes).2 := by
  obtain ⟨c, hc, hd⟩ := becomes_of_supplies h.left hi
  obtain ⟨k, hk, he⟩ := becomes_of_supplies h.right hi
  refine ⟨?_, supplies_decode h.left bytes, supplies_decode h.right bytes⟩
  rw [hd, he]
  exact hb h.canvas hc hk

/-- What every instruction keeps, every run keeps. -/
theorem Paired.decodeAll (h : Paired P d e) (hb : ∀ i data, Brings P i data P)
    (records : List (List UInt8)) : Paired P (d.decodeAll records).2 (e.decodeAll records).2 := by
  induction records generalizing d e with
  | nil => exact h
  | cons bytes rest ih =>
    apply ih
    cases hi : (Entry.record bytes).instruction? with
    | some call => exact h.decode hi (hb call.1 call.2)
    | none =>
      have hd : (d.decode bytes).2.canvas = d.canvas := (d.enter_of_none hi).2.1
      have he : (e.decode bytes).2.canvas = e.canvas := (e.enter_of_none hi).2.1
      refine ⟨?_, supplies_decode h.left bytes, supplies_decode h.right bytes⟩
      rw [hd, he]
      exact h.canvas

/-- The record has a scroll carried out, whether it moves the picture or not. -/
def Scrolls (bytes : List UInt8) : Prop :=
  ∃ i data, (Entry.record bytes).instruction? = some (i, data) ∧ i.scrollMode?.isSome

/-- The record fills the picture: it is a memory preset whose repeat count is zero. -/
def Fills (bytes : List UInt8) : Prop :=
  ∃ data, (Entry.record bytes).instruction? = some (.memoryPreset, data) ∧ nibble data.second = 0

/-- A stream that has a scroll, a fill somewhere after it, and anywhere a load of each half of the
palette. -/
structure Synchronizing (records : List (List UInt8)) : Prop where
  picture : ∃ before scroll between fill after,
    records = before ++ scroll :: (between ++ fill :: after) ∧ Scrolls scroll ∧ Fills fill
  colors : ∀ half, ∃ bytes ∈ records, ∃ data, (Entry.record bytes).load? half = some data

theorem Synchronizing.sameShape {records : List (List UInt8)} (h : Synchronizing records)
    (hd : Supplies d.canvas.stride d.allocator) (he : Supplies e.canvas.stride e.allocator) :
    Paired SameShape (d.decodeAll records).2 (e.decodeAll records).2 := by
  obtain ⟨before, scroll, between, fill, after, rfl, ⟨i, data, hi, hscroll⟩,
    ⟨other, ho, hrepeat⟩⟩ := h.picture
  have hapart : Paired Unrelated d e := ⟨trivial, hd, he⟩
  have hbefore := hapart.decodeAll brings_unrelated before
  have hscrolled := hbefore.decode hi (brings_sameOffset_of_scroll Unrelated hscroll data)
  have hbetween := hscrolled.decodeAll brings_sameOffset between
  have hfilled := hbetween.decode ho (brings_sameShape_of_fill hrepeat)
  have hafter := hfilled.decodeAll brings_sameShape after
  simp only [decodeAll_append, Decoder.decodeAll]
  exact hafter

theorem lastLoad_of_mem {half : PaletteHalf} {entries : List Entry} {e : Entry} {data : Payload}
    (he : e ∈ entries) (hdata : e.load? half = some data) :
    ∃ last, lastLoad half entries = some last := by
  apply Option.isSome_iff_exists.mp
  rw [lastLoad, List.getLast?_isSome]
  exact List.ne_nil_of_mem (List.mem_filterMap.mpr ⟨e, he, hdata⟩)

/-- Once both halves are loaded, nothing is left of the palette there was. -/
theorem Synchronizing.palette {records : List (List UInt8)} (h : Synchronizing records)
    (d : Decoder α) (e : Decoder β) :
    (d.decodeAll records).2.canvas.palette = (e.decodeAll records).2.canvas.palette := by
  apply Palette.ext_colors
  intro k
  obtain ⟨bytes, hmem, data, hdata⟩ := h.colors (.ofEntry k)
  obtain ⟨last, hlast⟩ := lastLoad_of_mem (List.mem_map_of_mem (f := Entry.record) hmem) hdata
  rw [← foldl_enter_record, ← foldl_enter_record, color_run, color_run, hlast]
  rfl

/-- A stream with a scroll, then a fill, and both halves of the palette brings any two decoders
together that never lack a canvas, whatever state each was in: both end with one picture, one
palette, one mark and one fine offset, and no later records tell them apart, save by the number of
records each had counted. -/
theorem decoders_synchronize (hd : Supplies d.canvas.stride d.allocator)
    (he : Supplies e.canvas.stride e.allocator) {records : List (List UInt8)}
    (h : Synchronizing records) :
    let left := (d.decodeAll records).2
    let right := (e.decodeAll records).2
    left.frame.packedPixels = right.frame.packedPixels ∧
      left.canvas.palette = right.canvas.palette ∧
      left.canvas.paletteChanged = right.canvas.paletteChanged ∧
      left.canvas.offset = right.canvas.offset ∧
      ∀ after, left.transcript after =
        (right.transcript after).map
          (Observation.ahead (left.packetsDecoded - right.packetsDecoded)) := by
  intro left right
  have hpaired : Paired SameShape left right := h.sameShape hd he
  have halike : left.canvas.Alike right.canvas :=
    ⟨hpaired.canvas.uncolored.pixel, h.palette d e, hpaired.canvas.paletteChanged,
      hpaired.canvas.uncolored.offset⟩
  have hmirrors := mirrors_of_supplies halike hpaired.left hpaired.right
  refine ⟨Frame.packedPixels_congr halike, halike.palette, halike.paletteChanged, halike.offset,
    hmirrors.transcript (inStep_supplies _ _) ?_⟩
  rw [UInt64.add_comm, UInt64.sub_add_cancel]

/-- A decoder in the middle of another stream, on a pool that keeps a canvas of gaudy colours. -/
def midway : Decoder Pool where
  canvas := ((gaudy.fill 7).setOffset 3 7).markPaletteChanged
  allocator := { capacity := 0, memory := .ample, free := [gaudy] }
  logger := .silent
  packetsDecoded := 9

/-- A stream of four records that synchronizes, the loads of the palette around the other two. -/
def tuneIn : List (List UInt8) :=
  [(Packet.ofInstruction .loadPaletteHigh redFirst).toBytes, rightScroll.toBytes,
    (Packet.ofInstruction .memoryPreset rightward).toBytes,
    (Packet.ofInstruction .loadPaletteLow redFirst).toBytes]

theorem synchronizing_tuneIn : Synchronizing tuneIn := by
  constructor
  · exact ⟨[_], _, [], _, [_], rfl, ⟨.scrollCopy, rightward, rfl, rfl⟩, rightward, rfl, rfl⟩
  · intro half
    cases half with
    | low =>
      refine ⟨(Packet.ofInstruction .loadPaletteLow redFirst).toBytes, ?_, redFirst, rfl⟩
      simp [tuneIn]
    | high => exact ⟨_, List.mem_cons_self, redFirst, rfl⟩

/-- A new decoder tunes in, and so does one in the middle of another stream. -/
theorem onHeap_synchronizes_midway :
    Synchronizing tuneIn ∧
      ((onHeap .ample).decodeAll tuneIn).2.frame.packedPixels =
        (midway.decodeAll tuneIn).2.frame.packedPixels ∧
      ((onHeap .ample).decodeAll tuneIn).2.canvas.offset =
        (midway.decodeAll tuneIn).2.canvas.offset := by
  obtain ⟨hpacked, -, -, hoffset, -⟩ := decoders_synchronize (d := onHeap .ample)
    (e := midway) (Heap.supplies (by decide) (Memory.lends_ample (by decide)))
    (Pool.supplies (by decide) rfl (Memory.lends_ample (by decide))) synchronizing_tuneIn
  exact ⟨synchronizing_tuneIn, hpacked, hoffset⟩

end Decoder
end DiscGraphics
