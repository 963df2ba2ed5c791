import DiscGraphics.Proofs.Invariant
import DiscGraphics.Proofs.Refusal
import DiscGraphics.Proofs.Restore
import DiscGraphics.Proofs.Transcript

/-!
Stopping and going on elsewhere. A snapshot holds all that a later record can tell, so a decoder of
any stride, supply and past that it is restored into is a twin of the one that stopped.
-/
namespace DiscGraphics

theorem nibble_of_lt {b : UInt8} (h : b < 16) : nibble b = b := by
  rw [UInt8.lt_iff_toNat_lt] at h
  rw [nibble, ← UInt8.toNat_inj, UInt8.toNat_and]
  have hm := Nat.and_two_pow_sub_one_eq_mod b.toNat 4
  exact hm.trans (Nat.mod_eq_of_lt h)

theorem Palette.AllStretched.ofColors_colors {p : Palette} (h : p.AllStretched) :
    ofColors p.colors.toArray = p := by
  apply ext_colors
  intro i
  have hmasked : p.colors.get i &&& 0xFFFFFF = p.colors.get i := (h i).masked
  rw [get_ofColors, getD_colors, hmasked]

namespace Snapshot

variable {α : Type}

/-- A snapshot of a decoder with a clean canvas draws what that decoder shows. -/
theorem draw_ofDecoder_alike {d : Decoder α} (h : d.canvas.Clean) (timestamp : String)
    (c : Canvas) : ((ofDecoder d timestamp).draw c).Alike d.canvas := by
  refine ⟨?_, ?_, ?_, ?_⟩
  · intro x y hx hy
    rw [pixel_draw _ c hx hy, ofDecoder, Array.getD_eq_getD_getElem?,
      d.frame.getElem?_packedPixels hx hy, Option.getD_some, Decoder.frame,
      nibble_of_lt (h.pixel_lt hx hy)]
  · rw [palette_draw, ofDecoder, h.stretched.ofColors_colors]
  · rw [paletteChanged_draw, ofDecoder]
  · rw [offset_draw, ofDecoder, FineOffset.clamp_self]

end Snapshot

namespace Decoder
open CanvasAllocator (Supplies)

variable {α β : Type} [CanvasAllocator α] [CanvasAllocator β]

theorem decodeAll_clean {d : Decoder α} (h : d.canvas.Clean) (records : List (List UInt8)) :
    (d.decodeAll records).2.canvas.Clean ∧
      (d.decodeAll records).2.canvas.stride = d.canvas.stride := by
  induction records generalizing d with
  | nil => exact ⟨h, rfl⟩
  | cons bytes rest ih =>
    obtain ⟨hclean, hstride⟩ := (d.decodes bytes).clean h
    obtain ⟨hlast, hrest⟩ := ih hclean
    exact ⟨hlast, hrest.trans hstride⟩

theorem transcript_append (d : Decoder α) (before after : List (List UInt8)) :
    d.transcript (before ++ after) =
      d.transcript before ++ (d.decodeAll before).2.transcript after := by
  induction before generalizing d with
  | nil => rfl
  | cons bytes rest ih =>
    rw [List.cons_append, transcript, ih, transcript, List.cons_append, decodeAll]

/-- A snapshot of a decoder with a clean canvas makes a twin of any decoder. -/
theorem twins_restored {d : Decoder α} {e : Decoder β} (h : d.canvas.Clean)
    (hd : Supplies d.canvas.stride d.allocator) (he : Supplies e.canvas.stride e.allocator)
    (timestamp : String) : ((Snapshot.ofDecoder d timestamp).into e).Twins d := by
  have hshown := Snapshot.draw_ofDecoder_alike h timestamp e.canvas
  have hsupply : Supplies ((Snapshot.ofDecoder d timestamp).into e).canvas.stride
      ((Snapshot.ofDecoder d timestamp).into e).allocator := by
    rw [Snapshot.canvas_into, Snapshot.stride_draw, Snapshot.into]
    exact he
  refine ⟨?_, ?_, hsupply, hd⟩
  · rw [Snapshot.canvas_into]
    exact hshown
  · rw [Snapshot.into, Snapshot.ofDecoder]

theorem supplies_decodeAll {d : Decoder α} (h : Supplies d.canvas.stride d.allocator)
    (records : List (List UInt8)) :
    Supplies (d.decodeAll records).2.canvas.stride (d.decodeAll records).2.allocator := by
  induction records generalizing d with
  | nil => exact h
  | cons bytes rest ih => exact ih (supplies_decode h bytes)

/-- Whatever was decoded before, a snapshot restored into any other decoder goes on as if nothing
had been stopped: it shows the same, and no later record can tell the two apart. -/
theorem transcript_resumed {a : α} {stride : Nat} {d : Decoder α}
    (h : withAllocator a stride = .ok d) (before : List (List UInt8))
    (hd : Supplies stride (d.decodeAll before).2.allocator) {e : Decoder β}
    (he : Supplies e.canvas.stride e.allocator) (timestamp : String) :
    ∃ e', (Snapshot.ofDecoder (d.decodeAll before).2 timestamp).restoring e = (.ok (), e') ∧
      e'.canvas.Alike (d.decodeAll before).2.canvas ∧
      e'.packetsDecoded = (d.decodeAll before).2.packetsDecoded ∧
      ∀ after, e'.transcript after = (d.decodeAll before).2.transcript after ∧
        d.transcript (before ++ after) = d.transcript before ++ e'.transcript after := by
  obtain ⟨hw, hblank⟩ := canvas_of_withAllocator h
  have hclean : d.canvas.Clean := by
    rw [hblank]
    exact Canvas.clean_blank stride hw
  obtain ⟨hstopped, hstride⟩ := decodeAll_clean hclean before
  have hleft : Supplies (d.decodeAll before).2.canvas.stride (d.decodeAll before).2.allocator := by
    rw [hstride, hblank]
    exact hd
  have htwins := twins_restored hstopped hleft he timestamp
  refine ⟨_, Snapshot.restoring_of_none (Snapshot.problem?_ofDecoder _ timestamp) e,
    htwins.canvas, htwins.packetsDecoded, ?_⟩
  intro after
  exact ⟨htwins.transcript after, by rw [transcript_append, htwins.transcript after]⟩

/-- The soiled decoder on a pool that keeps a soiled canvas as well. -/
def onSoiledPool : Decoder Pool where
  canvas := Snapshot.soiledDecoder.canvas
  allocator := { capacity := 0, memory := .ample, free := [Snapshot.soiledDecoder.canvas] }
  logger := .silent
  packetsDecoded := 5

/-- Stopped on the heap after a scroll, resumed on padded rows of a pool with soiled canvases. -/
theorem transcript_resumed_onSoiledPool :
    ∃ d, withAllocator (Heap.mk .ample) 300 = .ok d ∧
      ∃ e', (Snapshot.ofDecoder (d.decodeAll [rightScroll.toBytes]).2 "").restoring onSoiledPool =
          (.ok (), e') ∧
        ∀ after, d.transcript ([rightScroll.toBytes] ++ after) =
          d.transcript [rightScroll.toBytes] ++ e'.transcript after := by
  have hheap : Supplies 300 (onHeap .ample).allocator :=
    Heap.supplies (by decide) (Memory.lends_ample (by decide))
  have hstopped : Supplies 300 ((onHeap .ample).decodeAll [rightScroll.toBytes]).2.allocator := by
    have hclean : (onHeap .ample).canvas.Clean := Canvas.clean_blank 300 (by decide)
    obtain ⟨-, hstride⟩ := decodeAll_clean hclean [rightScroll.toBytes]
    have hlater := supplies_decodeAll (d := onHeap .ample) hheap [rightScroll.toBytes]
    rw [hstride] at hlater
    exact hlater
  refine ⟨onHeap .ample, rfl, ?_⟩
  obtain ⟨e', hrestored, -, -, hafter⟩ := transcript_resumed (a := Heap.mk .ample) rfl
    [rightScroll.toBytes] hstopped (e := onSoiledPool)
    (Pool.supplies (by decide) rfl (Memory.lends_ample (by decide))) ""
  exact ⟨e', hrestored, fun after => (hafter after).2⟩

end Decoder
end DiscGraphics
