import DiscGraphics.Proofs.Strips
import DiscGraphics.Proofs.Transcript
import Mathlib.Data.List.Forall2

/-!
What a recycled canvas leaves behind: a scroll draws over all of the canvas it is given but the row
padding, which frames then hand out with the rest of the buffer.
-/
namespace DiscGraphics
namespace Canvas

variable {c d : Canvas}

protected theorem SamePadding.symm (h : c.SamePadding d) : d.SamePadding c :=
  ⟨h.stride.symm, fun k hk => (h.byte k (h.stride ▸ hk)).symm⟩

protected theorem Alike.refl (c : Canvas) : c.Alike c := ⟨fun _ _ => rfl, rfl, rfl, rfl⟩

/-- The padding is all that does not show. -/
theorem Alike.eq_of_samePadding (h : c.Alike d) (hp : c.SamePadding d) : c = d := by
  refine ext_bytes ⟨hp.stride, h.palette, h.paletteChanged, h.offset⟩ fun x hx y hy => ?_
  by_cases hw : x < width
  · have hplace : c.index x y = d.index x y := by rw [index, index, hp.stride]
    have hleft := c.getElem?_index hw hy
    have hright := d.getElem?_index hw hy
    rw [h.pixel hw hy, ← hright, ← hplace] at hleft
    exact hleft
  · refine hp.byte _ ?_
    rw [← hp.stride, Nat.mul_add_mod', Nat.mod_eq_of_lt hx]
    exact Nat.not_lt.mp hw

theorem samePadding_of_unpadded (hc : c.stride = width) (hd : d.stride = width) :
    c.SamePadding d := by
  refine ⟨hc.trans hd.symm, fun k hk => absurd hk (Nat.not_le.mpr ?_)⟩
  rw [hd]
  exact Nat.mod_lt k (by decide)

/-- Two canvases after a scroll of one picture, each drawn into a target of its own. -/
structure Residue (out out' c c' : Canvas) : Prop where
  alike : c.Alike c'
  left : c.SamePadding out
  right : c'.SamePadding out'
  eq_iff : c = c' ↔ out.SamePadding out'

/-- A scroll into one of two targets shows the same as into the other. What they differ in
afterwards is what their row padding differed in before. -/
theorem residue_of_scrollInto {src out out' : Canvas} {s : ScrollShift}
    (hs : src.stride = out.stride) (hs' : src.stride = out'.stride)
    (hoffset : out.offset = out'.offset) (hx : s.dx.natAbs ≤ width) (hy : s.dy.natAbs ≤ height)
    (color : UInt8) (mode : ScrollMode) :
    ∃ c c', src.scrollInto out s color mode = .ok c ∧ src.scrollInto out' s color mode = .ok c' ∧
      Residue out out' c c' := by
  obtain ⟨c, hok, hc⟩ := scrollInto_spec src out hs hx hy color mode
  obtain ⟨c', hok', hc'⟩ := scrollInto_spec src out' hs' hx hy color mode
  have hleft := samePadding_of_scrollInto hok
  have hright := samePadding_of_scrollInto hok'
  have halike : c.Alike c' :=
    ⟨fun hx hy => (hc.pixel hx hy).trans (hc'.pixel hx hy).symm, hc.palette.trans hc'.palette.symm,
      hc.paletteChanged.trans hc'.paletteChanged.symm,
      hc.offset.trans (hoffset.trans hc'.offset.symm)⟩
  refine ⟨c, c', hok, hok', halike, hleft, hright, ?_, ?_⟩
  · rintro rfl
    exact hleft.symm.trans hright
  · intro hpadding
    exact halike.eq_of_samePadding (hleft.trans (hpadding.trans hright.symm))

end Canvas

namespace CanvasAllocator

variable {α β : Type} [CanvasAllocator α] [CanvasAllocator β]

/-- Two supplies give one answer. The canvases they hand out have the same row padding and may
differ in all else, and whatever canvas then goes back to both, `R` relates what they have
become. -/
inductive PaddedAlike (stride : Nat) (R : α → β → Prop) (a : α) (b : β) : Prop where
  | refused {e : AllocationError} {a' : α} {b' : β} :
      acquire a stride = (.error e, a') → acquire b stride = (.error e, b') → R a' b' →
      PaddedAlike stride R a b
  | granted {c k : Canvas} {a' : α} {b' : β} :
      acquire a stride = (.ok c, a') → acquire b stride = (.ok k, b') → c.stride = stride →
      c.SamePadding k → (∀ c' : Canvas, c'.stride = stride → R (release a' c') (release b' c')) →
      PaddedAlike stride R a b

/-- Supplies that are related answer alike, padding and all, and stay related. -/
def PaddedInStep (stride : Nat) (R : α → β → Prop) : Prop :=
  ∀ {a : α} {b : β}, R a b → PaddedAlike stride R a b

/-- Without padding it is enough to grant and refuse alike. -/
theorem paddedInStep_of_unpadded {R : α → β → Prop} (h : InStep width width R) :
    PaddedInStep width R := by
  intro a b hab
  cases h hab with
  | refused ha hb hlater => exact .refused ha hb hlater
  | granted ha hb hc hk hback =>
    exact .granted ha hb hc (Canvas.samePadding_of_unpadded hc hk) fun c' hc' => hback c' c' hc' hc'

end CanvasAllocator

namespace Pool
open CanvasAllocator (PaddedInStep)

/-- Two pools on one host that have as many canvases out, and whose free canvases have the same row
padding. -/
structure SamePadding (p q : Pool) : Prop where
  capacity : p.capacity = q.capacity
  memory : p.memory = q.memory
  live : p.live = q.live
  free : List.Forall₂ Canvas.SamePadding p.free q.free

theorem forall₂_lastFirst {cs ks : List Canvas} (h : List.Forall₂ Canvas.SamePadding cs ks) :
    List.Forall₂ Canvas.SamePadding (lastFirst cs) (lastFirst ks) := by
  obtain rfl | ⟨front, c, rfl⟩ := List.eq_nil_or_concat' cs
  · cases h
    exact .nil
  · obtain rfl | ⟨back, k, rfl⟩ := List.eq_nil_or_concat' ks
    · exact absurd h.length_eq (by simp)
    · rw [← List.forall₂_reverse_iff] at h
      simp only [List.reverse_append, List.reverse_singleton, List.singleton_append,
        List.forall₂_cons, List.forall₂_reverse_iff] at h
      simpa [lastFirst] using h

theorem forall₂_takeFirst {cs ks : List Canvas} (h : List.Forall₂ Canvas.SamePadding cs ks)
    (stride : Nat) :
    (takeFirst stride cs = none ∧ takeFirst stride ks = none) ∨
    ∃ c k rest rest', takeFirst stride cs = some (c, rest) ∧ takeFirst stride ks = some (k, rest') ∧
      c.SamePadding k ∧ List.Forall₂ Canvas.SamePadding rest rest' := by
  induction h with
  | nil => exact .inl ⟨rfl, rfl⟩
  | @cons c k cs ks hsame hrest ih =>
    simp only [takeFirst, ← hsame.stride]
    split
    · exact .inr ⟨c, k, _, _, rfl, rfl, hsame, forall₂_lastFirst hrest⟩
    · obtain ⟨hcs, hks⟩ | ⟨d, e, left, left', hcs, hks, hfound, hleft⟩ := ih
      · exact .inl ⟨by rw [hcs]; rfl, by rw [hks]; rfl⟩
      · exact .inr ⟨d, e, c :: left, k :: left', by rw [hcs]; rfl, by rw [hks]; rfl, hfound,
          .cons hsame hleft⟩

/-- Pools whose canvases differ in what they show, but not in their padding, stay so. -/
theorem paddedInStep_samePadding (stride : Nat) : PaddedInStep stride SamePadding := by
  rintro p q ⟨hcapacity, hmemory, hlive, hfree⟩
  have hp : CanvasAllocator.acquire p stride = p.acquire stride := rfl
  have hq : CanvasAllocator.acquire q stride = q.acquire stride := rfl
  have hback {free free' : List Canvas} (hsame : List.Forall₂ Canvas.SamePadding free free')
      (memory : Memory) (n m : Nat) (c : Canvas) :
      SamePadding (release ⟨p.capacity, memory, free, p.live + 1, n⟩ c)
        (release ⟨q.capacity, memory, free', q.live + 1, m⟩ c) :=
    ⟨hcapacity, rfl, congrArg (· + 1 - 1) hlive, List.rel_append hsame (.cons (.refl c) .nil)⟩
  have hexhausted : q.Exhausted ↔ p.Exhausted := by rw [Exhausted, Exhausted, hcapacity, hlive]
  by_cases hfull : p.Exhausted
  · rw [acquire, if_pos hfull] at hp
    rw [acquire, if_pos (hexhausted.mpr hfull), ← hcapacity] at hq
    exact .refused hp hq ⟨hcapacity, hmemory, hlive, hfree⟩
  · rw [acquire, if_neg hfull] at hp
    rw [acquire, if_neg (mt hexhausted.mp hfull)] at hq
    obtain ⟨hnone, hnone'⟩ | ⟨c, k, rest, rest', hc, hk, hsame, hrest⟩ :=
      forall₂_takeFirst hfree stride
    · simp only [hnone] at hp
      simp only [hnone', ← hmemory] at hq
      cases hfresh : Canvas.ofStride stride p.memory with
      | mk answer memory =>
        rw [hfresh] at hp hq
        cases answer with
        | error e => exact .refused hp hq ⟨hcapacity, rfl, hlive, hfree⟩
        | ok c =>
          have hstride := Canvas.stride_of_ofStride (congrArg Prod.fst hfresh)
          exact .granted hp hq hstride (.refl c) fun c' _ => hback hfree _ _ _ c'
    · simp only [hc] at hp
      simp only [hk, ← hmemory] at hq
      exact .granted hp hq (stride_of_takeFirst hc) hsame fun c' _ => hback hrest _ _ _ c'

end Pool

namespace Decoder
open CanvasAllocator (acquire release InStep PaddedInStep)

variable {α β : Type} [CanvasAllocator α] [CanvasAllocator β]

/-- A canvas that is scrolled into keeps its row padding while it goes on show. -/
theorem Executes.samePadding_of_granted {c c' next : Canvas} {a a' b : α} {i : Instruction}
    {data : Payload} {x : Except DecodeError Unit} (h : Executes c a i data x c' a')
    (hmove : c.Moves i data) (hacquire : acquire a c.stride = (.ok next, b))
    (hs : next.stride = c.stride) : c'.SamePadding next := by
  cases h with
  | drawn hstay => exact absurd hmove hstay
  | scrolled _ _ ha _ hout =>
    cases hacquire.symm.trans ha
    exact ⟨(Canvas.samePadding_of_scrollInto hout).stride,
      (Canvas.samePadding_of_scrollInto hout).byte⟩
  | refused _ ha => cases hacquire.symm.trans ha
  | mismatched _ ha hne =>
    cases hacquire.symm.trans ha
    exact absurd hs hne

/-- Two decoders that show one canvas, to the last byte, on supplies that are related. -/
structure Replicas (stride : Nat) (R : α → β → Prop) (d : Decoder α) (e : Decoder β) : Prop where
  canvas : d.canvas = e.canvas
  rows : d.canvas.stride = stride
  supply : R d.allocator e.allocator

variable {stride : Nat} {R : α → β → Prop} {d : Decoder α} {e : Decoder β}

theorem Replicas.executes (h : Replicas stride R d e) (hR : PaddedInStep stride R)
    {i : Instruction} {data : Payload} {x y : Except DecodeError Unit} {c k : Canvas} {a : α}
    {b : β} (hx : Executes d.canvas d.allocator i data x c a)
    (hy : Executes e.canvas e.allocator i data y k b) : x = y ∧ c = k ∧ R a b := by
  obtain ⟨hcanvas, rfl, hsupply⟩ := h
  rw [← hcanvas] at hy
  by_cases hmove : d.canvas.Moves i data
  · cases hR hsupply with
    | refused ha hb hlater =>
      obtain ⟨rfl, rfl, rfl⟩ := hx.of_refused hmove ha
      obtain ⟨rfl, rfl, rfl⟩ := hy.of_refused hmove hb
      exact ⟨rfl, rfl, hlater⟩
    | granted ha hb hs hpadding hback =>
      have hs' := hpadding.stride.symm.trans hs
      have hleft := hx.samePadding_of_granted hmove ha hs
      have hright := hy.samePadding_of_granted hmove hb hs'
      obtain ⟨rfl, rfl⟩ := hx.of_granted hmove ha hs
      obtain ⟨rfl, rfl⟩ := hy.of_granted hmove hb hs'
      -- The pictures agree as they come from one canvas, the padding as the two granted agree.
      have halike := (Canvas.Alike.refl d.canvas).becomes hx.becomes hy.becomes
      exact ⟨rfl, halike.eq_of_samePadding (hleft.trans (hpadding.trans hright.symm)),
        hback _ rfl⟩
  · obtain ⟨rfl, rfl, rfl⟩ := hx.of_stay hmove
    obtain ⟨rfl, rfl, rfl⟩ := hy.of_stay hmove
    exact ⟨rfl, rfl, hsupply⟩

/-- One record gets one answer from both, frame and buffer included, and leaves them replicas. -/
theorem Replicas.decode (h : Replicas stride R d e) (hR : PaddedInStep stride R)
    (bytes : List UInt8) :
    (d.decode bytes).1 = (e.decode bytes).1 ∧
      Replicas stride R (d.decode bytes).2 (e.decode bytes).2 := by
  by_cases hlen : bytes.length = 24
  · obtain ⟨p, hp⟩ := Packet.parse_eq_ok hlen
    cases hg : p.isGraphics with
    | false =>
      rw [d.decode_skipped hp hg, e.decode_skipped hp hg]
      exact ⟨rfl, h.canvas, h.rows, h.supply⟩
    | true =>
      obtain ⟨x, c, a, l, hx, hd⟩ := d.decode_executed hp hg
      obtain ⟨y, k, b, m, hy, he⟩ := e.decode_executed hp hg
      obtain ⟨rfl, rfl, hlater⟩ := h.executes hR hx hy
      have hrows := hx.stride.trans h.rows
      rw [hd, he]
      cases x with
      | error cause => exact ⟨rfl, rfl, hrows, hlater⟩
      | ok => exact ⟨rfl, rfl, hrows, hlater⟩
  · obtain ⟨l, hd⟩ := d.decode_malformed hlen
    obtain ⟨m, he⟩ := e.decode_malformed hlen
    rw [hd, he]
    exact ⟨rfl, h.canvas, h.rows, h.supply⟩

theorem Replicas.decodeAll (h : Replicas stride R d e) (hR : PaddedInStep stride R)
    (records : List (List UInt8)) :
    (d.decodeAll records).1 = (e.decodeAll records).1 ∧
      Replicas stride R (d.decodeAll records).2 (e.decodeAll records).2 := by
  induction records generalizing d e with
  | nil => exact ⟨rfl, h⟩
  | cons bytes rest ih =>
    obtain ⟨hanswer, hnext⟩ := h.decode hR bytes
    obtain ⟨hanswers, hlast⟩ := ih hnext
    rw [Decoder.decodeAll, Decoder.decodeAll, hanswer, hanswers]
    exact ⟨rfl, hlast⟩

/-- A scroll leaves nothing of the canvas it draws into but its row padding. Whatever two targets
hold, the picture comes out the same on both, and the buffers are equal if and only if the padding
was. So no stream tells apart supplies that hand out canvases of one padding, not even by the whole
buffers of its frames; and where rows have no padding no two supplies that grant and refuse
alike. -/
theorem recycled_canvases_leave_padding :
    (∀ (src out out' : Canvas) (s : ScrollShift) (color : UInt8) (mode : ScrollMode),
      src.stride = out.stride → src.stride = out'.stride → out.offset = out'.offset →
      s.dx.natAbs ≤ width → s.dy.natAbs ≤ height →
      ∃ c c', src.scrollInto out s color mode = .ok c ∧ src.scrollInto out' s color mode = .ok c' ∧
        Canvas.Residue out out' c c') ∧
    (∀ (stride : Nat) (R : α → β → Prop) (d : Decoder α) (e : Decoder β), PaddedInStep stride R →
      Replicas stride R d e → ∀ records, (d.decodeAll records).1 = (e.decodeAll records).1) ∧
    ∀ (R : α → β → Prop) (d : Decoder α) (e : Decoder β), InStep width width R →
      Replicas width R d e → ∀ records, (d.decodeAll records).1 = (e.decodeAll records).1 := by
  refine ⟨?_, ?_, ?_⟩
  · intro src out out' s color mode hs hs' hoffset hx hy
    exact Canvas.residue_of_scrollInto hs hs' hoffset hx hy color mode
  · intro stride R d e hR h records
    exact (h.decodeAll hR records).1
  · intro R d e hR h records
    exact (h.decodeAll (CanvasAllocator.paddedInStep_of_unpadded hR) records).1

/-- A pool that keeps one canvas. -/
def poolOf (c : Canvas) : Pool where
  capacity := 0
  memory := .ample
  free := [c]

theorem samePadding_poolOf {c k : Canvas} (h : c.SamePadding k) :
    (poolOf c).SamePadding (poolOf k) :=
  ⟨rfl, rfl, rfl, .cons h .nil⟩

def black : Canvas := .blank 305 (by decide)

/-- The picture drawn on from side to side, and nothing else of the rows. -/
def drawnOn : Canvas := black.paint 0 0 300 216 fun _ _ _ => 9

/-- The same, beyond the picture as well. -/
def soiled : Canvas := black.fill 9

theorem getElem?_soiled : soiled.pixels[303]? = some 9 := by
  rw [soiled, Canvas.fill, Array.getElem?_replicate, if_pos (by decide)]
  rfl

theorem getElem?_black : black.pixels[303]? = some 0 := by
  rw [black, Canvas.blank, Array.getElem?_replicate, if_pos (by decide)]

/-- Two targets show one picture and keep their padding; what is drawn on the picture of a free
canvas is not to be seen in any frame, and without padding nothing is. -/
theorem padding_left_and_drawing_gone :
    (∃ c c', black.scrollInto soiled ⟨6, 0⟩ 0 .copy = .ok c ∧
      black.scrollInto black ⟨6, 0⟩ 0 .copy = .ok c' ∧
      c.Alike c' ∧ c.pixels[303]? = some 9 ∧ c'.pixels[303]? = some 0) ∧
    (∀ records, (Decoder.decodeAll ⟨black, poolOf drawnOn, .silent, 0⟩ records).1 =
      (Decoder.decodeAll ⟨black, poolOf black, .silent, 0⟩ records).1) ∧
    ∀ records, ((onHeap .ample).decodeAll records).1 =
      (Decoder.decodeAll ⟨.empty, poolOf (Canvas.empty.fill 7), .silent, 0⟩ records).1 := by
  obtain ⟨hscroll, -, hunpadded⟩ := recycled_canvases_leave_padding (α := Heap) (β := Pool)
  obtain ⟨-, hpadded, -⟩ := recycled_canvases_leave_padding (α := Pool) (β := Pool)
  refine ⟨?_, ?_, ?_⟩
  · obtain ⟨c, c', hok, hok', hresidue⟩ := hscroll black soiled black ⟨6, 0⟩ 0 .copy rfl rfl rfl
      (by decide) (by decide)
    have hbyte : width ≤ 303 % 305 := by decide
    exact ⟨c, c', hok, hok', hresidue.alike, (hresidue.left.byte 303 hbyte).trans getElem?_soiled,
      (hresidue.right.byte 303 hbyte).trans getElem?_black⟩
  · have hfree : drawnOn.SamePadding black := black.samePadding_paint (by decide) 0 216 _
    exact hpadded 305 Pool.SamePadding _ _ (Pool.paddedInStep_samePadding 305)
      ⟨rfl, rfl, samePadding_poolOf hfree⟩
  · have hlends : Memory.ample.Lends (300 * height) := Memory.lends_ample (by decide)
    have hheap : CanvasAllocator.Supplies 300 (Heap.mk .ample) := Heap.supplies (by decide) hlends
    have hpool (c : Canvas) : CanvasAllocator.Supplies 300 (poolOf c) :=
      Pool.supplies (by decide) rfl hlends
    exact hunpadded _ _ _ (CanvasAllocator.inStep_supplies 300 300) ⟨rfl, rfl, hheap, hpool _⟩

/-- So two targets do not always come out equal. -/
theorem scrollInto_depends_on_padding :
    ¬ ∀ (src out out' : Canvas) (data : Payload) (mode : ScrollMode) (c c' : Canvas),
      src.stride = out.stride → src.stride = out'.stride → out.offset = out'.offset →
      src.scrollInto out (src.shiftOf data) (ScrollParams.ofPayload data).color mode = .ok c →
      src.scrollInto out' (src.shiftOf data) (ScrollParams.ofPayload data).color mode = .ok c' →
      c = c' := by
  intro h
  obtain ⟨hx, hy⟩ := black.offset.shift_ofPayload rightward
  obtain ⟨c, c', hok, hok', hresidue⟩ := @Canvas.residue_of_scrollInto black soiled black
    (black.shiftOf rightward) rfl rfl rfl (Nat.le_trans hx (by decide))
    (Nat.le_trans hy (by decide)) (ScrollParams.ofPayload rightward).color .copy
  have hequal := h black soiled black rightward .copy c c' rfl rfl rfl hok hok'
  have hbyte := (hresidue.eq_iff.mp hequal).byte 303 (by decide)
  rw [getElem?_soiled, getElem?_black] at hbyte
  exact absurd hbyte (by decide)

end Decoder
end DiscGraphics
