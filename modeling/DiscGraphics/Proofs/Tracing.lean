import DiscGraphics.Proofs.Ledger

/-!
The trace never feeds back. Decoders that differ in their traces only give the same answers, let the
same frames out and deal with their supplies alike.
-/
namespace DiscGraphics
namespace Decoder

/-- What happens to a decoder: it is given something to do, or its trace is set up anew, in any
way: the level, the tracing of packets, the bound, the entries, the log file. -/
inductive Event where
  | enter (e : Entry)
  | adjust (f : Logger → Logger)

def Event.entry? : Event → Option Entry
  | .enter e => some e
  | .adjust _ => none

/-- All that a call comes to beside its trace: the answer, the frame, and the state after it. -/
structure Outcome (α : Type) where
  answer : Except DecodeError Bool
  frame? : Option Frame
  canvas : Canvas
  allocator : α
  packetsDecoded : UInt64

/-- The same, told of another supply. -/
def Outcome.mapSupply {α β : Type} (f : β → α) (o : Outcome β) : Outcome α :=
  ⟨o.answer, o.frame?, o.canvas, f o.allocator, o.packetsDecoded⟩

theorem Agree.withLogger {α : Type} {d e : Decoder α} (h : d.Agree e) (f : Logger → Logger) :
    (d.withLogger f).Agree e :=
  ⟨h.canvas, h.allocator, h.packetsDecoded⟩

theorem Agree.audited {α : Type} {d e : Decoder α} (h : d.Agree e) : d.audited.Agree e.audited :=
  ⟨h.canvas, congrArg Audited.of h.allocator, h.packetsDecoded⟩

variable {α β : Type} [CanvasAllocator α] [CanvasAllocator β] {d e : Decoder α}

def outcome (d : Decoder α) (entry : Entry) : Outcome α where
  answer := d.answerTo entry
  frame? := d.frameFor entry
  canvas := (d.enter entry).canvas
  allocator := (d.enter entry).allocator
  packetsDecoded := (d.enter entry).packetsDecoded

/-- What the calls of a run come to, one after the other. -/
def outcomes (d : Decoder α) : List Event → List (Outcome α)
  | [] => []
  | .enter entry :: rest => d.outcome entry :: (d.enter entry).outcomes rest
  | .adjust f :: rest => (d.withLogger f).outcomes rest

theorem Agree.execute (h : d.Agree e) (i : Instruction) (data : Payload) :
    (d.execute i data).1 = (e.execute i data).1 ∧
      (d.execute i data).2.Agree (e.execute i data).2 := by
  have hx := d.executes i data
  rw [h.canvas, h.allocator] at hx
  obtain ⟨hanswer, hcanvas, hallocator⟩ := hx.unique (e.executes i data)
  refine ⟨hanswer, hcanvas, hallocator, ?_⟩
  rw [packetsDecoded_execute, packetsDecoded_execute, h.packetsDecoded]

theorem Agree.decodePacket (h : d.Agree e) (p : Packet) :
    (d.decodePacket p).1 = (e.decodePacket p).1 ∧
      (d.decodePacket p).2.Agree (e.decodePacket p).2 := by
  cases hg : p.isGraphics with
  | false =>
    rw [d.decodePacket_skipped hg, e.decodePacket_skipped hg]
    exact ⟨rfl, h.canvas, h.allocator, congrArg (· + 1) h.packetsDecoded⟩
  | true =>
    obtain ⟨l, hd⟩ := d.decodePacket_graphics hg
    obtain ⟨m, he⟩ := e.decodePacket_graphics hg
    obtain ⟨hanswer, hlater⟩ := h.execute p.instruction p.data
    rw [hd, he, hanswer, h.packetsDecoded]
    exact ⟨rfl, hlater.canvas, hlater.allocator, rfl⟩

/-- A call comes to the same whatever was traced before it and whatever it is to trace. -/
theorem Agree.enter (h : d.Agree e) (entry : Entry) :
    d.outcome entry = e.outcome entry ∧ (d.enter entry).Agree (e.enter entry) := by
  suffices hs : d.answerTo entry = e.answerTo entry ∧ d.frameFor entry = e.frameFor entry ∧
      (d.enter entry).Agree (e.enter entry) by
    obtain ⟨hanswer, hframe, hlater⟩ := hs
    refine ⟨?_, hlater⟩
    rw [outcome, outcome, hanswer, hframe, hlater.canvas, hlater.allocator, hlater.packetsDecoded]
  cases entry with
  | record bytes =>
    obtain ⟨hanswer, hlater⟩ := h.decode bytes
    exact ⟨by rw [answerTo, hanswer, answerTo], by rw [frameFor, hanswer, frameFor], hlater⟩
  | packet p =>
    obtain ⟨hanswer, hlater⟩ := h.decodePacket p
    exact ⟨hanswer, rfl, hlater⟩
  | instruction i data =>
    obtain ⟨hanswer, hlater⟩ := h.execute i data
    exact ⟨by rw [answerTo, hanswer, answerTo], rfl, hlater⟩

/-- A run comes to what its entries come to with no change to the trace between them. -/
theorem Agree.outcomes (h : d.Agree e) (events : List Event) :
    d.outcomes events = e.outcomes ((events.filterMap Event.entry?).map Event.enter) := by
  induction events generalizing d e with
  | nil => rfl
  | cons event rest ih =>
    cases event with
    | enter entry =>
      obtain ⟨hsame, hnext⟩ := h.enter entry
      rw [Decoder.outcomes, hsame, ih hnext]
      rfl
    | adjust f => exact ih (h.withLogger f)

theorem Agree.outcomes_eq (h : d.Agree e) {events others : List Event}
    (hsame : events.filterMap Event.entry? = others.filterMap Event.entry?) :
    d.outcomes events = e.outcomes others := by
  rw [h.outcomes, hsame, ← (Agree.refl e).outcomes]

theorem outcomes_mapSupply {f : β → α} (hf : Carries f) (d : Decoder β) (events : List Event) :
    (d.mapSupply f).outcomes events = (d.outcomes events).map (Outcome.mapSupply f) := by
  induction events generalizing d with
  | nil => rfl
  | cons event rest ih =>
    cases event with
    | enter entry =>
      rw [outcomes, outcome, answerTo_mapSupply hf, frameFor_mapSupply hf, enter_mapSupply hf, ih]
      rfl
    | adjust g => exact ih (d.withLogger g)

/-- What is traced never shows in what is decoded. Two decoders that differ in their traces only are
given the same to do, while their traces are set up anew at any time and in any way: every call has
one outcome on both, its answer, its frame and the state it leaves. The dealings with the supply are
the same, too, up to every call. -/
theorem outcomes_independent_of_trace (h : d.Agree e) {events others : List Event}
    (hsame : events.filterMap Event.entry? = others.filterMap Event.entry?) :
    d.outcomes events = e.outcomes others ∧
      d.audited.outcomes events = e.audited.outcomes others ∧
      (d.audited.outcomes events).map (Outcome.mapSupply Audited.supply) = d.outcomes events := by
  refine ⟨h.outcomes_eq hsame, h.audited.outcomes_eq hsame, ?_⟩
  rw [← outcomes_mapSupply Audited.carries_supply]
  rfl

/-- The decoder on a full pool, tracing all it can into a log file that it has just opened. -/
def talkative : Decoder Pool :=
  onFullPool.withLogger fun l => { l.openOutput ⟨7⟩ with level := .trace, packetTrace := true }

/-- One of the two runs traces everything and gives it up again; the other traces errors from its
second call on. -/
theorem outcomes_of_talkative :
    let scroll := Event.enter (.record rightScroll.toBytes)
    let short := Event.enter (.record [9])
    let fill := Event.enter (.packet (.ofInstruction .memoryPreset rightward))
    let loud := [scroll, .adjust Logger.clear, short, .adjust fun l => l.setCapacity 1, fill,
      .adjust Logger.closeOutput]
    let quiet := [scroll, .adjust fun l => { l with level := .error }, short, fill]
    talkative.outcomes loud = onFullPool.outcomes quiet ∧
      talkative.audited.outcomes loud = onFullPool.audited.outcomes quiet := by
  intro scroll short fill loud quiet
  have hagree : talkative.Agree onFullPool := ⟨rfl, rfl, rfl⟩
  have hsame : loud.filterMap Event.entry? = quiet.filterMap Event.entry? := rfl
  obtain ⟨hplain, haudited, -⟩ := outcomes_independent_of_trace hagree hsame
  exact ⟨hplain, haudited⟩

end Decoder
end DiscGraphics
