import DiscGraphics.Proofs.Refusal

/-!
The ways into a decoder: a record, a packet, or a single instruction. At most one instruction runs,
as if it had been called by itself, and all that comes before it is a line in the trace.
-/
namespace DiscGraphics

/-- The packet that an entry of a trace is about. -/
def TraceEntry.packet? : TraceEntry → Option PacketTrace
  | .packet trace => some trace
  | .scroll _ | .message _ _ => none

/-- Instructions remark on scrolls and on what went wrong, never on packets. -/
def NoPacket (remark : Option (LogLevel × TraceEntry)) : Prop :=
  ∀ r ∈ remark, r.2.packet? = none

theorem noPacket_none : NoPacket none := nofun

theorem noPacket_some {level : LogLevel} {e : TraceEntry} (h : e.packet? = none) :
    NoPacket (some (level, e)) := by
  rintro _ ⟨⟩
  exact h

/-- Add a remark, if there is one, provided that messages of its level are accepted. -/
def Logger.note (l : Logger) : Option (LogLevel × TraceEntry) → Logger
  | some (level, e) => if l.enabled level then l.push e else l
  | none => l

instance (c : Canvas) (i : Instruction) (data : Payload) : Decidable (c.Moves i data) :=
  inferInstanceAs (Decidable (_ ∧ _))

namespace Decoder
open CanvasAllocator (acquire release)

variable {α : Type} [CanvasAllocator α]

theorem scroll_noting (d : Decoder α) (data : Payload) (mode : ScrollMode) :
    ∃ remark x c a, NoPacket remark ∧ ∀ l : Logger, { d with logger := l }.scroll data mode =
      .ok (x, ⟨c, a, l.note remark, d.packetsDecoded⟩) := by
  obtain ⟨c, a, l₀, n⟩ := d
  simp only [scroll, scrollActing]
  cases (c.offset.shift (.ofPayload data)).isZero with
  | true => exact ⟨none, .ok (), c.takeOffset data, a, noPacket_none, fun _ => rfl⟩
  | false =>
    simp only [Bool.false_eq_true, if_false, acquireCanvas, ask]
    obtain ⟨answer, a'⟩ := acquire a c.stride
    cases answer with
    | error e =>
      exact ⟨some (.error, .message .error (DecodeError.bufferAllocationFailure e).message),
        _, _, _, noPacket_some rfl, fun _ => rfl⟩
    | ok next =>
      by_cases hs : next.stride = c.stride
      · obtain ⟨hx, hy⟩ := c.offset.shift_ofPayload data
        obtain ⟨out, hout, -⟩ := Canvas.scrollInto_spec c next hs.symm
          (Nat.le_trans hx (by decide)) (Nat.le_trans hy (by decide))
          (ScrollParams.ofPayload data).color mode
        let params := ScrollParams.ofPayload data
        let trace : ScrollTrace :=
          ⟨mode, c.shiftOf data, params.horizontalOffset, params.verticalOffset⟩
        simp only [hs, if_true, hout]
        exact ⟨some (.debug, .scroll trace), .ok (), out.takeOffset data, release a' c,
          noPacket_some rfl, fun _ => rfl⟩
      · let e := DecodeError.bufferAllocationFailure (.shapeMismatch c.stride next.stride)
        simp only [hs, if_false]
        exact ⟨some (.error, .message .error e.message), .error e, c, release a' next,
          noPacket_some rfl, fun _ => rfl⟩

/-- Whatever was traced before, an instruction answers and draws the same, and leaves the same
remark, if it leaves any. -/
theorem perform_noting (d : Decoder α) (i : Instruction) (data : Payload) :
    ∃ remark x c a, NoPacket remark ∧ ∀ l : Logger, { d with logger := l }.perform i data =
      .ok (x, ⟨c, a, l.note remark, d.packetsDecoded⟩) := by
  cases i with
  | borderPreset =>
    simp only [perform, border, Canvas.borderPreset_eq_ok]
    exact ⟨none, _, _, _, noPacket_none, fun _ => rfl⟩
  | tileBlock | tileBlockXor =>
    simp only [perform, tile, Canvas.tileBlock_eq_ok]
    cases (TileBlock.ofPayload data).fits d.canvas.offset.horizontal d.canvas.offset.vertical with
    | true => exact ⟨none, _, _, _, noPacket_none, fun _ => rfl⟩
    | false =>
      exact ⟨some (.debug, .message .debug _), _, _, _, noPacket_some rfl, fun _ => rfl⟩
  | scrollPreset => exact d.scroll_noting data .preset
  | scrollCopy => exact d.scroll_noting data .copy
  | unknown code =>
    exact ⟨some (.debug, .message .debug s!"ignoring instruction {code}"), _, _, _,
      noPacket_some rfl, fun _ => rfl⟩
  | memoryPreset =>
    exact ⟨none, .ok (), d.canvas.memoryPreset data, d.allocator, noPacket_none, fun _ => rfl⟩
  | loadPaletteLow | loadPaletteHigh =>
    exact ⟨none, .ok (), d.canvas.loadPalette data _, d.allocator, noPacket_none, fun _ => rfl⟩

theorem execute_noting (d : Decoder α) (i : Instruction) (data : Payload) :
    ∃ remark, NoPacket remark ∧ ∀ l : Logger, { d with logger := l }.execute i data =
      ((d.execute i data).1, { (d.execute i data).2 with logger := l.note remark }) := by
  obtain ⟨remark, x, c, a, hremark, h⟩ := d.perform_noting i data
  have hexecute (l : Logger) : { d with logger := l }.execute i data =
      (x, ⟨c, a, l.note remark, d.packetsDecoded⟩) := by
    have hl := h l
    rw [perform_eq_ok] at hl
    exact Except.ok.inj hl
  refine ⟨remark, hremark, fun l => ?_⟩
  rw [hexecute l, show d.execute i data = _ from hexecute d.logger]

/-- What a decoder is given to do: a record, a packet, or an instruction with its data. -/
inductive Entry where
  | record (bytes : List UInt8)
  | packet (p : Packet)
  | instruction (i : Instruction) (data : Payload)

/-- The instruction that a packet has run. Only a graphics packet has one. -/
def instructionOf (p : Packet) : Option (Instruction × Payload) :=
  if p.isGraphics then some (p.instruction, p.data) else none

/-- The instruction that is run for an entry, with its data. -/
def Entry.instruction? : Entry → Option (Instruction × Payload)
  | .record bytes =>
    match Packet.parse bytes with
    | .ok p => instructionOf p
    | .error _ => none
  | .packet p => instructionOf p
  | .instruction i data => some (i, data)

/-- An entry moves the picture on a canvas: it is a scroll whose shift is not zero there. -/
def Entry.moves (e : Entry) (c : Canvas) : Bool :=
  match e.instruction? with
  | some (i, data) => decide (c.Moves i data)
  | none => false

theorem Entry.moves_malformed {bytes : List UInt8} (h : bytes.length ≠ 24) (c : Canvas) :
    (Entry.record bytes).moves c = false := by
  simp only [moves, instruction?, Packet.parse_eq_error h]

theorem Entry.moves_record {bytes : List UInt8} {p : Packet} (hp : Packet.parse bytes = .ok p)
    (c : Canvas) :
    (Entry.record bytes).moves c = (p.isGraphics && decide (c.Moves p.instruction p.data)) := by
  simp only [moves, instruction?, hp, instructionOf]
  cases p.isGraphics <;> rfl

/-- What the decoder answers. A record or a packet without graphics is no failure. -/
def answerTo (d : Decoder α) : Entry → Except DecodeError Bool
  | .record bytes => (d.decode bytes).1.map Option.isSome
  | .packet p => (d.decodePacket p).1
  | .instruction i data => (d.execute i data).1.map fun _ => true

def enter (d : Decoder α) : Entry → Decoder α
  | .record bytes => (d.decode bytes).2
  | .packet p => (d.decodePacket p).2
  | .instruction i data => (d.execute i data).2

theorem foldl_enter_record (d : Decoder α) (records : List (List UInt8)) :
    (records.map Entry.record).foldl enter d = (d.decodeAll records).2 := by
  induction records generalizing d with
  | nil => rfl
  | cons bytes rest ih =>
    rw [List.map_cons, List.foldl_cons, ih]
    rfl

/-- A graphics packet has its instruction run, and is counted if that succeeds. -/
theorem decodePacket_graphics (d : Decoder α) {p : Packet} (hg : p.isGraphics = true) :
    ∃ l, d.decodePacket p = ((d.execute p.instruction p.data).1.map fun _ => true,
      { (d.execute p.instruction p.data).2 with
        logger := l
        packetsDecoded :=
          if (d.execute p.instruction p.data).1.isOk then d.packetsDecoded + 1
          else d.packetsDecoded }) := by
  obtain ⟨remark, -, h⟩ := d.execute_noting p.instruction p.data
  have htrace : (d.tracePacket p).execute p.instruction p.data = _ := h (d.tracePacket p).logger
  have hn := d.packetsDecoded_execute p.instruction p.data
  simp only [decodePacket, hg, if_true, htrace]
  generalize d.execute p.instruction p.data = r at hn
  obtain ⟨x, c, a, l, n⟩ := r
  cases hn
  cases x with
  | error e => exact ⟨_, rfl⟩
  | ok => exact ⟨_, rfl⟩

theorem decodePacket_skipped (d : Decoder α) {p : Packet} (hg : p.isGraphics = false) :
    d.decodePacket p = (.ok false, { d with packetsDecoded := d.packetsDecoded + 1 }) := by
  simp only [decodePacket, hg]
  rfl

/-- The frame that an entry lets out. Only a record can have one. -/
def frameFor (d : Decoder α) : Entry → Option Frame
  | .record bytes => emitted (d.decode bytes).1
  | .packet _ | .instruction _ _ => none

/-- Frames are let out for records. -/
def Entry.shows : Entry → Bool
  | .record _ => true
  | .packet _ | .instruction _ _ => false

/-- Records and packets are counted. -/
def Entry.counts : Entry → Bool
  | .record _ | .packet _ => true
  | .instruction _ _ => false

/-- The state of a canvas once an answer is given: a frame that goes out takes the palette's mark
with it. -/
def Entry.settled (e : Entry) (x : Except DecodeError Unit) (c : Canvas) : Canvas :=
  if e.shows && x.isOk then c.clearPaletteChanged else c

/-- An entry does what its instruction does when it is called by itself. -/
structure Runs (d : Decoder α) (e : Entry) (i : Instruction) (data : Payload) : Prop where
  answer : d.answerTo e = (d.execute i data).1.map fun _ => true
  frame? : d.frameFor e =
    if e.shows && (d.execute i data).1.isOk then some ⟨(d.execute i data).2.canvas⟩ else none
  canvas : (d.enter e).canvas = e.settled (d.execute i data).1 (d.execute i data).2.canvas
  allocator : (d.enter e).allocator = (d.execute i data).2.allocator

theorem runs_record (d : Decoder α) {bytes : List UInt8} {p : Packet}
    (hp : Packet.parse bytes = .ok p) (hg : p.isGraphics = true) :
    d.Runs (.record bytes) p.instruction p.data := by
  obtain ⟨l, hd⟩ := d.decode_of_executes hp hg (d.executes p.instruction p.data)
  constructor
  · rw [answerTo, hd]
    cases (d.execute p.instruction p.data).1 <;> rfl
  · rw [frameFor, hd]
    cases (d.execute p.instruction p.data).1 <;> rfl
  · rw [enter, hd]
    cases (d.execute p.instruction p.data).1 <;> rfl
  · rw [enter, hd]
    cases (d.execute p.instruction p.data).1 <;> rfl

theorem runs_packet (d : Decoder α) {p : Packet} (hg : p.isGraphics = true) :
    d.Runs (.packet p) p.instruction p.data := by
  obtain ⟨l, hd⟩ := d.decodePacket_graphics hg
  exact ⟨by rw [answerTo, hd], rfl, by rw [enter, hd]; rfl, by rw [enter, hd]⟩

/-- The instruction of an entry is run once, and nothing else is. -/
theorem runs_of_instruction? (d : Decoder α) {e : Entry} {i : Instruction} {data : Payload}
    (h : e.instruction? = some (i, data)) : d.Runs e i data := by
  have hpacket {p : Packet} (hp : instructionOf p = some (i, data)) :
      p.isGraphics = true ∧ p.instruction = i ∧ p.data = data := by
    simpa [instructionOf] using hp
  cases e with
  | record bytes =>
    simp only [Entry.instruction?] at h
    cases hp : Packet.parse bytes with
    | error e =>
      rw [hp] at h
      cases h
    | ok p =>
      rw [hp] at h
      obtain ⟨hg, rfl, rfl⟩ := hpacket h
      exact d.runs_record hp hg
  | packet p =>
    obtain ⟨hg, rfl, rfl⟩ := hpacket h
    exact d.runs_packet hg
  | instruction j other =>
    cases h
    exact ⟨rfl, rfl, rfl, rfl⟩

/-- Without an instruction an entry lets no frame out and leaves canvas and supply alone. -/
theorem enter_of_none (d : Decoder α) {e : Entry} (h : e.instruction? = none) :
    d.frameFor e = none ∧ (d.enter e).canvas = d.canvas ∧ (d.enter e).allocator = d.allocator := by
  have hpacket {p : Packet} (hp : instructionOf p = none) : p.isGraphics = false := by
    simpa [instructionOf] using hp
  cases e with
  | record bytes =>
    by_cases hlen : bytes.length = 24
    · obtain ⟨p, hp⟩ := Packet.parse_eq_ok hlen
      simp only [Entry.instruction?, hp] at h
      rw [frameFor, enter, d.decode_skipped hp (hpacket h)]
      exact ⟨rfl, rfl, rfl⟩
    · obtain ⟨l, hd⟩ := d.decode_malformed hlen
      rw [frameFor, enter, hd]
      exact ⟨rfl, rfl, rfl⟩
  | packet p =>
    rw [frameFor, enter, d.decodePacket_skipped (hpacket h)]
    exact ⟨rfl, rfl, rfl⟩
  | instruction => cases h

/-- An entry that is refused leaves the canvas alone, whichever way it came in. -/
theorem canvas_of_refused (d : Decoder α) {e : Entry} {cause : DecodeError}
    (h : d.answerTo e = .error cause) : (d.enter e).canvas = d.canvas := by
  cases he : e.instruction? with
  | none => exact (d.enter_of_none he).2.1
  | some call =>
    obtain ⟨i, data⟩ := call
    have hruns := d.runs_of_instruction? he
    have hx := d.executes i data
    rw [hruns.answer] at h
    rw [hruns.canvas]
    generalize (d.execute i data).1 = x at hx h
    cases x with
    | ok => cases h
    | error _ =>
      rw [hx.canvas_of_error, Entry.settled, isOk_error, Bool.and_false]
      rfl

end Decoder
end DiscGraphics
