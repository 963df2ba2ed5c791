import DiscGraphics.Decoder
import DiscGraphics.Proofs.Picture
import DiscGraphics.Proofs.Supply

/-!
What one call does to a decoder, with the trace left open: it draws in place, scrolls into a second
canvas, or is refused one. Neither the answer nor the state that follows depends on the trace.
-/
namespace DiscGraphics

theorem Packet.parse_eq_ok {bytes : List UInt8} (h : bytes.length = 24) :
    ∃ p, Packet.parse bytes = .ok p :=
  ⟨_, dif_pos h⟩

theorem Packet.bytes_of_parse {bytes : List UInt8} {p : Packet} (h : parse bytes = .ok p) :
    p.command = bytes.getD 0 0 ∧ p.instructionByte = bytes.getD 1 0 := by
  unfold parse at h
  split at h
  · next hlen =>
    cases h
    simp [ofRecord, hlen]
  · cases h

/-- The payload of a scroll by one tile to the right. -/
def rightward : Payload := Vector.ofFn fun i => if i.val = 1 then 0x10 else 0

def rightScroll : Packet := .ofInstruction .scrollCopy rightward

theorem parse_rightScroll : Packet.parse rightScroll.toBytes = .ok rightScroll := rfl

def Instruction.scrollMode? : Instruction → Option ScrollMode
  | .scrollPreset => some .preset
  | .scrollCopy => some .copy
  | _ => none

/-- Whether an instruction paints pixels at most, and neither scrolls nor loads colours. -/
def Instruction.paints : Instruction → Bool
  | .memoryPreset | .borderPreset | .tileBlock | .tileBlockXor | .unknown _ => true
  | .scrollPreset | .scrollCopy | .loadPaletteLow | .loadPaletteHigh => false

namespace Canvas

def shiftOf (c : Canvas) (data : Payload) : ScrollShift := c.offset.shift (.ofPayload data)

def takeOffset (c : Canvas) (data : Payload) : Canvas :=
  let params := ScrollParams.ofPayload data
  c.setOffset params.horizontalOffset params.verticalOffset

/-- An instruction moves the picture when it is a scroll whose shift is not zero. -/
def Moves (c : Canvas) (i : Instruction) (data : Payload) : Prop :=
  i.scrollMode?.isSome ∧ (c.shiftOf data).isZero = false

/-- What an instruction that does not move the picture draws. -/
def draw (c : Canvas) (i : Instruction) (data : Payload) : Canvas :=
  match i with
  | .memoryPreset => c.memoryPreset data
  | .borderPreset =>
    if (presetValues data).2 = 0 then c.paintBorder (presetValues data).1 else c
  | .tileBlock => c.tiled data .normal
  | .tileBlockXor => c.tiled data .xor
  | .scrollPreset | .scrollCopy => c.takeOffset data
  | .loadPaletteLow => c.loadPalette data .low
  | .loadPaletteHigh => c.loadPalette data .high
  | .unknown _ => c

/-- An instruction that paints changes nothing but pixels. -/
theorem sameFrame_draw (c : Canvas) {i : Instruction} (hi : i.paints) (data : Payload) :
    SameFrame (c.draw i data) c := by
  cases i with
  | memoryPreset => exact c.sameFrame_memoryPreset data
  | borderPreset =>
    simp only [draw]
    split
    · exact c.sameFrame_paintBorder _
    · exact .refl c
  | tileBlock => exact c.sameFrame_tiled data .normal
  | tileBlockXor => exact c.sameFrame_tiled data .xor
  | unknown => exact .refl c
  | scrollPreset | scrollCopy | loadPaletteLow | loadPaletteHigh => cases hi

@[simp] theorem stride_draw (c : Canvas) (i : Instruction) (data : Payload) :
    (c.draw i data).stride = c.stride := by
  cases i with
  | memoryPreset | borderPreset | tileBlock | tileBlockXor | unknown =>
    exact (c.sameFrame_draw rfl data).stride
  | scrollPreset | scrollCopy | loadPaletteLow | loadPaletteHigh => rfl

theorem not_moves {c : Canvas} {i : Instruction} {data : Payload} (hi : i.scrollMode? = none) :
    ¬ c.Moves i data := by
  intro hm
  rw [Moves, hi] at hm
  exact Bool.noConfusion hm.1

/-- What an instruction that is not refused makes of a canvas, whichever second canvas it gets. -/
inductive Becomes (c : Canvas) (i : Instruction) (data : Payload) : Canvas → Prop where
  | drawn : ¬ c.Moves i data → Becomes c i data (c.draw i data)
  | scrolled {mode : ScrollMode} {next out : Canvas} :
      i.scrollMode? = some mode → c.Moves i data →
      Scrolled c next (c.shiftOf data) (ScrollParams.ofPayload data).color mode out →
      Becomes c i data (out.takeOffset data)

theorem Becomes.offset_of_scroll {c c' : Canvas} {i : Instruction} {data : Payload}
    (h : c.Becomes i data c') (hi : i.scrollMode?.isSome) :
    c'.offset = (c.takeOffset data).offset := by
  cases h with
  | drawn => cases i <;> first | rfl | cases hi
  | scrolled => rfl

/-- A scroll by a payload stays within the picture, so it draws the whole of it. -/
theorem scrolled_of_ok {src out c : Canvas} {data : Payload} {color : UInt8} {mode : ScrollMode}
    (hs : src.stride = out.stride)
    (h : src.scrollInto out (src.shiftOf data) color mode = .ok c) :
    Scrolled src out (src.shiftOf data) color mode c := by
  obtain ⟨hx, hy⟩ := src.offset.shift_ofPayload data
  obtain ⟨c', hok, hc'⟩ := scrollInto_spec src out hs (s := src.shiftOf data)
    (Nat.le_trans hx (by decide)) (Nat.le_trans hy (by decide)) color mode
  rw [hok] at h
  cases h
  exact hc'

end Canvas

namespace Decoder
open CanvasAllocator (acquire release Supplies)

variable {α : Type} [CanvasAllocator α]

/-- Everything that an instruction can do to a canvas and its supply, with its answer. -/
inductive Executes (c : Canvas) (a : α) (i : Instruction) (data : Payload) :
    Except DecodeError Unit → Canvas → α → Prop where
  | drawn : ¬ c.Moves i data → Executes c a i data (.ok ()) (c.draw i data) a
  | scrolled {mode : ScrollMode} {next out : Canvas} {a' : α} :
      i.scrollMode? = some mode → c.Moves i data →
      acquire a c.stride = (.ok next, a') → next.stride = c.stride →
      c.scrollInto next (c.shiftOf data) (ScrollParams.ofPayload data).color mode = .ok out →
      Executes c a i data (.ok ()) (out.takeOffset data) (release a' c)
  | refused {e : AllocationError} {a' : α} :
      c.Moves i data → acquire a c.stride = (.error e, a') →
      Executes c a i data (.error (.bufferAllocationFailure e)) c a'
  | mismatched {next : Canvas} {a' : α} :
      c.Moves i data → acquire a c.stride = (.ok next, a') → next.stride ≠ c.stride →
      Executes c a i data
        (.error (.bufferAllocationFailure (.shapeMismatch c.stride next.stride))) c
        (release a' next)

/-- The three ways a request for a second canvas ends. -/
theorem acquireCanvas_cases (d : Decoder α) :
    (∃ next a, acquire d.allocator d.canvas.stride = (.ok next, a) ∧
      next.stride = d.canvas.stride ∧
      d.acquireCanvas = ([.ask d.canvas.stride (.ok next)], .ok next, { d with allocator := a })) ∨
    (∃ e a l, acquire d.allocator d.canvas.stride = (.error e, a) ∧
      d.acquireCanvas = ([.ask d.canvas.stride (.error e)], .error (.bufferAllocationFailure e),
        { d with allocator := a, logger := l })) ∨
    (∃ next a l, acquire d.allocator d.canvas.stride = (.ok next, a) ∧
      next.stride ≠ d.canvas.stride ∧
      d.acquireCanvas = ([.ask d.canvas.stride (.ok next), .giveBack next],
        .error (.bufferAllocationFailure (.shapeMismatch d.canvas.stride next.stride)),
        { d with allocator := release a next, logger := l })) := by
  simp only [acquireCanvas, ask]
  cases hacquire : acquire d.allocator d.canvas.stride with
  | mk answer a =>
    cases answer with
    | error e => exact .inr (.inl ⟨e, a, _, rfl, rfl⟩)
    | ok c =>
      by_cases hs : c.stride = d.canvas.stride
      · exact .inl ⟨c, a, rfl, hs, if_pos hs⟩
      · exact .inr (.inr ⟨c, a, _, rfl, hs, if_neg hs⟩)

theorem executes_of_stay {d d' : Decoder α} {i : Instruction} {data : Payload}
    (hstay : ¬ d.canvas.Moves i data) (hc : d'.canvas = d.canvas.draw i data)
    (ha : d'.allocator = d.allocator) :
    Executes d.canvas d.allocator i data (.ok ()) d'.canvas d'.allocator := by
  rw [hc, ha]
  exact .drawn hstay

theorem executes_of_draw {d d' : Decoder α} {i : Instruction} {data : Payload}
    (hi : i.scrollMode? = none) (hc : d'.canvas = d.canvas.draw i data)
    (ha : d'.allocator = d.allocator) :
    Executes d.canvas d.allocator i data (.ok ()) d'.canvas d'.allocator :=
  executes_of_stay (Canvas.not_moves hi) hc ha

theorem executes_of_scroll (d : Decoder α) (i : Instruction) (data : Payload) {mode : ScrollMode}
    (hi : i.scrollMode? = some mode) {r : Except DecodeError Unit × Decoder α}
    (h : d.scroll data mode = .ok r) :
    Executes d.canvas d.allocator i data r.1 r.2.canvas r.2.allocator ∧
      r.2.packetsDecoded = d.packetsDecoded := by
  have hsome : i.scrollMode?.isSome := by rw [hi]; rfl
  simp only [scroll, scrollActing] at h
  split at h
  · next hz =>
    have hstay : ¬ d.canvas.Moves i data := fun hm => by
      rw [Canvas.Moves, Canvas.shiftOf, hz] at hm
      exact Bool.noConfusion hm.2
    have hdraw : d.canvas.takeOffset data = d.canvas.draw i data := by
      cases i <;> first | rfl | cases hi
    cases h
    exact ⟨executes_of_stay hstay hdraw rfl, rfl⟩
  · next hz =>
    have hmove : d.canvas.Moves i data := ⟨hsome, Bool.eq_false_iff.mpr hz⟩
    obtain ⟨next, a, ha, hs, he⟩ | ⟨e, a, l, ha, he⟩ | ⟨next, a, l, ha, hs, he⟩ :=
      d.acquireCanvas_cases
    · rw [he] at h
      dsimp only at h
      split at h
      · cases h
      · next out hout =>
        cases h
        exact ⟨.scrolled hi hmove ha hs hout, rfl⟩
    · rw [he] at h
      cases h
      exact ⟨.refused hmove ha, rfl⟩
    · rw [he] at h
      cases h
      exact ⟨.mismatched hmove ha hs, rfl⟩

theorem executes_of_tile (d : Decoder α) (i : Instruction) (data : Payload) {mode : TileMode}
    (hi : i.scrollMode? = none) (hdraw : d.canvas.draw i data = d.canvas.tiled data mode)
    {d' : Decoder α} (h : d.tile data mode = .ok d') :
    Executes d.canvas d.allocator i data (.ok ()) d'.canvas d'.allocator ∧
      d'.packetsDecoded = d.packetsDecoded := by
  obtain ⟨c, a, l, n⟩ := d
  simp only [tile, Canvas.tileBlock_eq_ok] at h
  cases hfit : (TileBlock.ofPayload data).fits c.offset.horizontal c.offset.vertical with
  | true =>
    rw [hfit] at h
    cases h
    exact ⟨executes_of_draw hi hdraw.symm rfl, rfl⟩
  | false =>
    rw [hfit] at h
    cases h
    exact ⟨executes_of_draw hi hdraw.symm rfl, rfl⟩

theorem executes_of_perform (d : Decoder α) (i : Instruction) (data : Payload)
    {r : Except DecodeError Unit × Decoder α} (h : d.perform i data = .ok r) :
    Executes d.canvas d.allocator i data r.1 r.2.canvas r.2.allocator ∧
      r.2.packetsDecoded = d.packetsDecoded := by
  cases i with
  | borderPreset =>
    obtain ⟨c, a, l, n⟩ := d
    simp only [perform, border, Canvas.borderPreset_eq_ok] at h
    cases h
    exact ⟨executes_of_draw rfl rfl rfl, rfl⟩
  | tileBlock =>
    obtain ⟨d', ht⟩ := d.tile_ok data .normal
    rw [perform, ht] at h
    cases h
    exact d.executes_of_tile .tileBlock data rfl rfl ht
  | tileBlockXor =>
    obtain ⟨d', ht⟩ := d.tile_ok data .xor
    rw [perform, ht] at h
    cases h
    exact d.executes_of_tile .tileBlockXor data rfl rfl ht
  | scrollPreset => exact d.executes_of_scroll .scrollPreset data rfl h
  | scrollCopy => exact d.executes_of_scroll .scrollCopy data rfl h
  | memoryPreset | loadPaletteLow | loadPaletteHigh | unknown =>
    cases h
    exact ⟨executes_of_draw rfl rfl rfl, rfl⟩

/-- Running an instruction does one of the things listed, and counts no record. -/
theorem executes (d : Decoder α) (i : Instruction) (data : Payload) :
    Executes d.canvas d.allocator i data (d.execute i data).1 (d.execute i data).2.canvas
      (d.execute i data).2.allocator :=
  (d.executes_of_perform i data (d.perform_eq_ok i data)).1

theorem packetsDecoded_execute (d : Decoder α) (i : Instruction) (data : Payload) :
    (d.execute i data).2.packetsDecoded = d.packetsDecoded :=
  (d.executes_of_perform i data (d.perform_eq_ok i data)).2

theorem Executes.unique {c c₁ c₂ : Canvas} {a a₁ a₂ : α} {i : Instruction} {data : Payload}
    {r₁ r₂ : Except DecodeError Unit} (h₁ : Executes c a i data r₁ c₁ a₁)
    (h₂ : Executes c a i data r₂ c₂ a₂) : r₁ = r₂ ∧ c₁ = c₂ ∧ a₁ = a₂ := by
  cases h₁ <;> cases h₂ <;> simp_all

section

variable {c c' : Canvas} {a a' : α} {i : Instruction} {data : Payload} {x : Except DecodeError Unit}

theorem Executes.of_stay (h : Executes c a i data x c' a') (hstay : ¬ c.Moves i data) :
    x = .ok () ∧ c' = c.draw i data ∧ a' = a :=
  h.unique (.drawn hstay)

theorem Executes.of_refused (h : Executes c a i data x c' a') (hmove : c.Moves i data)
    {e : AllocationError} {b : α} (hacquire : acquire a c.stride = (.error e, b)) :
    x = .error (.bufferAllocationFailure e) ∧ c' = c ∧ a' = b :=
  h.unique (.refused hmove hacquire)

theorem Executes.of_granted (h : Executes c a i data x c' a') (hmove : c.Moves i data)
    {next : Canvas} {b : α} (hacquire : acquire a c.stride = (.ok next, b))
    (hs : next.stride = c.stride) : x = .ok () ∧ a' = release b c := by
  cases h with
  | drawn hstay => exact absurd hmove hstay
  | scrolled _ _ ha =>
    cases hacquire.symm.trans ha
    exact ⟨rfl, rfl⟩
  | refused _ ha => cases hacquire.symm.trans ha
  | mismatched _ ha hne =>
    cases hacquire.symm.trans ha
    exact absurd hs hne

theorem Executes.becomes (h : Executes c a i data (.ok ()) c' a') : c.Becomes i data c' := by
  cases h with
  | drawn hstay => exact .drawn hstay
  | scrolled hmode hmove _ hs hout =>
    exact .scrolled hmode hmove (Canvas.scrolled_of_ok hs.symm hout)

theorem Executes.canvas_of_error {e : DecodeError} (h : Executes c a i data (.error e) c' a') :
    c' = c := by
  cases h with
  | refused | mismatched => rfl

end

theorem Executes.stride {c c' : Canvas} {a a' : α} {i : Instruction} {data : Payload}
    {r : Except DecodeError Unit} (h : Executes c a i data r c' a') : c'.stride = c.stride := by
  cases h with
  | drawn => exact c.stride_draw i data
  | scrolled _ _ _ hs hout => exact (Canvas.scrolled_of_ok hs.symm hout).stride.trans hs
  | refused => rfl
  | mismatched => rfl

/-- A supply that never runs dry refuses nothing. -/
theorem Executes.of_supplies {c c' : Canvas} {a a' : α} {i : Instruction} {data : Payload}
    {r : Except DecodeError Unit} (h : Executes c a i data r c' a')
    (ha : Supplies c.stride a) : r = .ok () ∧ Supplies c'.stride a' := by
  rw [h.stride]
  by_cases hmove : c.Moves i data
  · obtain ⟨next, b, hacquire, hs, hb⟩ := ha.acquire
    obtain ⟨hok, rfl⟩ := h.of_granted hmove hacquire hs
    exact ⟨hok, hb.release rfl⟩
  · obtain ⟨hok, -, rfl⟩ := h.of_stay hmove
    exact ⟨hok, ha⟩

/-- The state after a graphics packet: a success counts and clears the palette's mark, an error
leaves the count alone. -/
def settle (d : Decoder α) (x : Except DecodeError Unit) (c : Canvas) (a : α) (l : Logger) :
    Decoder α :=
  match x with
  | .ok () => ⟨c.clearPaletteChanged, a, l, d.packetsDecoded + 1⟩
  | .error _ => ⟨c, a, l, d.packetsDecoded⟩

theorem decode_malformed (d : Decoder α) {bytes : List UInt8} (h : bytes.length ≠ 24) :
    ∃ l, d.decode bytes = (.error (.malformedPacket bytes.length), { d with logger := l }) := by
  refine ⟨d.logger.logMessage .error (DecodeError.malformedPacket bytes.length).message, ?_⟩
  simp only [decode, Packet.parse_eq_error h]
  rfl

theorem decode_skipped (d : Decoder α) {bytes : List UInt8} {p : Packet}
    (hp : Packet.parse bytes = .ok p) (hg : p.isGraphics = false) :
    d.decode bytes = (.ok none, { d with packetsDecoded := d.packetsDecoded + 1 }) := by
  simp only [decode, hp, decodePacket, hg]
  rfl

/-- A graphics packet runs its instruction and, if that succeeds, lets a frame out. -/
theorem decode_executed (d : Decoder α) {bytes : List UInt8} {p : Packet}
    (hp : Packet.parse bytes = .ok p) (hg : p.isGraphics = true) :
    ∃ x c a l, Executes d.canvas d.allocator p.instruction p.data x c a ∧
      d.decode bytes = (x.map fun _ => some ⟨c⟩, d.settle x c a l) := by
  have hx := (d.tracePacket p).executes p.instruction p.data
  have hn := (d.tracePacket p).packetsDecoded_execute p.instruction p.data
  simp only [decode, hp, decodePacket, hg, if_true]
  generalize (d.tracePacket p).execute p.instruction p.data = r at hx hn ⊢
  obtain ⟨x, c, a, l, n⟩ := r
  refine ⟨x, c, a, l, hx, ?_⟩
  cases hn
  cases x <;> rfl

/-- Whatever its instruction can do, a graphics packet does. -/
theorem decode_of_executes (d : Decoder α) {bytes : List UInt8} {p : Packet}
    (hp : Packet.parse bytes = .ok p) (hg : p.isGraphics = true) {x : Except DecodeError Unit}
    {c : Canvas} {a : α} (hx : Executes d.canvas d.allocator p.instruction p.data x c a) :
    ∃ l, d.decode bytes = (x.map fun _ => some ⟨c⟩, d.settle x c a l) := by
  obtain ⟨y, k, b, l, hy, hd⟩ := d.decode_executed hp hg
  obtain ⟨rfl, rfl, rfl⟩ := hx.unique hy
  exact ⟨l, hd⟩

/-- Everything that decoding a record can do, with its answer. -/
inductive Decodes (d : Decoder α) (bytes : List UInt8) :
    Except DecodeError (Option Frame) → Decoder α → Prop where
  | malformed (l : Logger) : bytes.length ≠ 24 →
      Decodes d bytes (.error (.malformedPacket bytes.length)) { d with logger := l }
  | skipped {p : Packet} : Packet.parse bytes = .ok p → p.isGraphics = false →
      Decodes d bytes (.ok none) { d with packetsDecoded := d.packetsDecoded + 1 }
  | failed {p : Packet} {e : DecodeError} {c : Canvas} {a : α} (l : Logger) :
      Packet.parse bytes = .ok p → p.isGraphics = true →
      Executes d.canvas d.allocator p.instruction p.data (.error e) c a →
      Decodes d bytes (.error e) ⟨c, a, l, d.packetsDecoded⟩
  | shown {p : Packet} {c : Canvas} {a : α} (l : Logger) :
      Packet.parse bytes = .ok p → p.isGraphics = true →
      Executes d.canvas d.allocator p.instruction p.data (.ok ()) c a →
      Decodes d bytes (.ok (some ⟨c⟩)) ⟨c.clearPaletteChanged, a, l, d.packetsDecoded + 1⟩

theorem decodes (d : Decoder α) (bytes : List UInt8) :
    Decodes d bytes (d.decode bytes).1 (d.decode bytes).2 := by
  by_cases hlen : bytes.length = 24
  · obtain ⟨p, hp⟩ := Packet.parse_eq_ok hlen
    cases hg : p.isGraphics with
    | false =>
      rw [d.decode_skipped hp hg]
      exact .skipped hp hg
    | true =>
      obtain ⟨x, c, a, l, hx, he⟩ := d.decode_executed hp hg
      rw [he]
      cases x with
      | error e => exact .failed l hp hg hx
      | ok => exact .shown l hp hg hx
  · obtain ⟨l, he⟩ := d.decode_malformed hlen
    rw [he]
    exact .malformed l hlen

/-- With a supply that never runs dry only the length of a record can be wrong. -/
theorem decode_ok_of_supplies (d : Decoder α) (h : Supplies d.canvas.stride d.allocator)
    {bytes : List UInt8} (hlen : bytes.length = 24) : ∃ f, (d.decode bytes).1 = .ok f := by
  have hd := d.decodes bytes
  generalize (d.decode bytes).1 = r, (d.decode bytes).2 = d' at hd ⊢
  cases hd with
  | malformed _ hne => exact absurd hlen hne
  | skipped => exact ⟨none, rfl⟩
  | failed _ _ _ hx => cases (hx.of_supplies h).1
  | shown => exact ⟨_, rfl⟩

theorem supplies_decode {d : Decoder α} (h : Supplies d.canvas.stride d.allocator)
    (bytes : List UInt8) :
    Supplies (d.decode bytes).2.canvas.stride (d.decode bytes).2.allocator := by
  have hd := d.decodes bytes
  generalize (d.decode bytes).1 = r, (d.decode bytes).2 = d' at hd
  cases hd with
  | malformed => exact h
  | skipped => exact h
  | failed _ _ _ hx => cases (hx.of_supplies h).1
  | shown _ _ _ hx => exact (hx.of_supplies h).2

/-- A new decoder shows a blank canvas and has neither traced nor counted anything. -/
theorem eq_of_withAllocator {a : α} {stride : Nat} {d : Decoder α}
    (h : withAllocator a stride = .ok d) :
    ∃ (hw : width ≤ stride) (a' : α), d = ⟨.blank stride hw, a', .silent, 0⟩ := by
  unfold withAllocator at h
  split at h
  · cases h
  · next hw =>
    split at h
    · cases h
    · split at h
      · next hs =>
        cases h
        subst hs
        exact ⟨Nat.not_lt.mp hw, _, rfl⟩
      · cases h

theorem packetsDecoded_of_withAllocator {a : α} {stride : Nat} {d : Decoder α}
    (h : withAllocator a stride = .ok d) : d.packetsDecoded = 0 := by
  obtain ⟨_, _, rfl⟩ := eq_of_withAllocator h
  rfl

end Decoder
end DiscGraphics
