import DiscGraphics.Allocator
import DiscGraphics.Canvas.PaletteLoad
import DiscGraphics.Canvas.Preset
import DiscGraphics.Canvas.Scrolled
import DiscGraphics.Canvas.Tile
import DiscGraphics.Frame
import DiscGraphics.Logger

/-!
The decoder owns the canvas on show and applies one packet at a time to it. A scroll draws into a
second canvas from the allocator, which takes the first one's place only once it is complete.
-/
namespace DiscGraphics

/-- What a decoder does with canvases beside drawing on them. -/
inductive Action where
  | ask (stride : Nat) (answer : Except AllocationError Canvas)
  | install (c : Canvas)
  | giveBack (c : Canvas)

structure Decoder (α : Type) where
  canvas : Canvas
  allocator : α
  logger : Logger
  /-- The records decoded so far, whether they were graphics packets or not. -/
  packetsDecoded : UInt64

namespace Decoder

/-- A decoder on the heap with an unpadded canvas. -/
def onHeap (memory : Memory) : Decoder Heap := ⟨.empty, ⟨memory⟩, .silent, 0⟩

variable {α : Type}

def withLogger (d : Decoder α) (f : Logger → Logger) : Decoder α :=
  { d with logger := f d.logger }

def withCanvas (d : Decoder α) (f : Canvas → Canvas) : Decoder α :=
  { d with canvas := f d.canvas }

/-- Paint a tile, and trace one that was dropped. -/
def tile (d : Decoder α) (data : Payload) (mode : TileMode) : Except Fault (Decoder α) :=
  let ⟨canvas, allocator, logger, count⟩ := d
  match canvas.tileBlock data mode with
  | .error fault => .error fault
  | .ok (true, c) => .ok ⟨c, allocator, logger, count⟩
  | .ok (false, c) =>
    let t := TileBlock.ofPayload data
    let place := s!"({t.column}, {t.row})"
    let offset := s!"({c.offset.horizontal}, {c.offset.vertical})"
    let text := s!"dropping tile at {place} with offset {offset}"
    .ok ⟨c, allocator, logger.logMessage .debug text, count⟩

def border (d : Decoder α) (data : Payload) : Except Fault (Decoder α) :=
  let ⟨canvas, allocator, logger, count⟩ := d
  (canvas.borderPreset data).map fun c => ⟨c, allocator, logger, count⟩

theorem tile_ok (d : Decoder α) (data : Payload) (mode : TileMode) :
    ∃ d', d.tile data mode = .ok d' := by
  obtain ⟨c, a, l, n⟩ := d
  simp only [tile, Canvas.tileBlock_eq_ok]
  cases (TileBlock.ofPayload data).fits c.offset.horizontal c.offset.vertical <;> exact ⟨_, rfl⟩

theorem border_ok (d : Decoder α) (data : Payload) : ∃ d', d.border data = .ok d' := by
  obtain ⟨c, a, l, n⟩ := d
  simp only [border, Canvas.borderPreset_eq_ok]
  exact ⟨_, rfl⟩

variable [CanvasAllocator α]

/-- A decoder whose canvases all come from the given supply. If there is none to be had, the supply
comes back with the error; a canvas of the wrong stride has been returned to it. -/
def withAllocator (a : α) (stride : Nat) : Except (DecodeError × α) (Decoder α) :=
  if stride < width then
    .error (.bufferAllocationFailure (.invalidStride stride), a)
  else
    match CanvasAllocator.acquire a stride with
    | (.error e, a) => .error (.bufferAllocationFailure e, a)
    | (.ok c, a) =>
      if c.stride = stride then
        .ok ⟨c.reset, a, .silent, 0⟩
      else
        .error (.bufferAllocationFailure (.shapeMismatch stride c.stride),
          CanvasAllocator.release a c)

/-- Ask for a canvas like the one on show. This step and the next two come with the actions they
are, which whatever is made of them strings together. -/
def ask (d : Decoder α) : List Action × Except AllocationError Canvas × Decoder α :=
  let (answer, a) := CanvasAllocator.acquire d.allocator d.canvas.stride
  ([.ask d.canvas.stride answer], answer, { d with allocator := a })

/-- Put a canvas on show and take the one it replaces in hand. -/
def exchange (d : Decoder α) (c : Canvas) : List Action × Canvas × Decoder α :=
  ([.install c], d.canvas, { d with canvas := c })

def giveBack (d : Decoder α) (c : Canvas) : List Action × Decoder α :=
  ([.giveBack c], { d with allocator := CanvasAllocator.release d.allocator c })

/-- A second canvas of the first one's stride. Every failure is traced. -/
def acquireCanvas (d : Decoder α) : List Action × Except DecodeError Canvas × Decoder α :=
  let stride := d.canvas.stride
  let fail (actions : List Action) (e : AllocationError) (d : Decoder α) :=
    let e := DecodeError.bufferAllocationFailure e
    (actions, .error e, d.withLogger fun l => l.logMessage .error e.message)
  match d.ask with
  | (asked, .error e, d) => fail asked e d
  | (asked, .ok c, d) =>
    if c.stride = stride then (asked, .ok c, d)
    else
      let (returned, d) := d.giveBack c
      fail (asked ++ returned) (.shapeMismatch stride c.stride) d

/-- Put a finished canvas on show and return the one it replaces. -/
def install (d : Decoder α) (c : Canvas) : List Action × Decoder α :=
  let (installed, previous, d) := d.exchange c
  let (returned, d) := d.giveBack previous
  (installed ++ returned, d)

/-- Scroll the picture, with the actions on canvases that this takes. A scroll that moves nothing
only takes over its fine offset. -/
def scrollActing (d : Decoder α) (data : Payload) (mode : ScrollMode) :
    Except Fault (List Action × Except DecodeError Unit × Decoder α) :=
  let params := ScrollParams.ofPayload data
  let shift := d.canvas.offset.shift params
  if shift.isZero then
    .ok ([], .ok (),
      d.withCanvas fun c => c.setOffset params.horizontalOffset params.verticalOffset)
  else
    match d.acquireCanvas with
    | (acquired, .error e, d) => .ok (acquired, .error e, d)
    | (acquired, .ok next, d) =>
      match d.canvas.scrollInto next shift params.color mode with
      | .error fault => .error fault
      | .ok next =>
        let next := next.setOffset params.horizontalOffset params.verticalOffset
        let trace := ⟨mode, shift, params.horizontalOffset, params.verticalOffset⟩
        let (installed, d) := d.install next
        .ok (acquired ++ installed, .ok (), d.withLogger fun l => l.logScroll trace)

def scroll (d : Decoder α) (data : Payload) (mode : ScrollMode) :
    Except Fault (Except DecodeError Unit × Decoder α) :=
  (d.scrollActing data mode).map Prod.snd

/-- Run one instruction, every bound checked. -/
def perform (d : Decoder α) (i : Instruction) (data : Payload) :
    Except Fault (Except DecodeError Unit × Decoder α) :=
  match i with
  | .memoryPreset => .ok (.ok (), d.withCanvas fun c => c.memoryPreset data)
  | .borderPreset => (d.border data).map fun d => (.ok (), d)
  | .loadPaletteLow => .ok (.ok (), d.withCanvas fun c => c.loadPalette data .low)
  | .loadPaletteHigh => .ok (.ok (), d.withCanvas fun c => c.loadPalette data .high)
  | .tileBlock => (d.tile data .normal).map fun d => (.ok (), d)
  | .tileBlockXor => (d.tile data .xor).map fun d => (.ok (), d)
  | .scrollPreset => d.scroll data .preset
  | .scrollCopy => d.scroll data .copy
  | .unknown code =>
    .ok (.ok (), d.withLogger fun l => l.logMessage .debug s!"ignoring instruction {code}")

theorem acquireCanvas_ok {d d' : Decoder α} {c : Canvas} {actions : List Action}
    (h : d.acquireCanvas = (actions, .ok c, d')) :
    d'.canvas = d.canvas ∧ c.stride = d.canvas.stride := by
  simp only [acquireCanvas, ask] at h
  generalize CanvasAllocator.acquire d.allocator d.canvas.stride = supplied at h
  obtain ⟨answer, a⟩ := supplied
  cases answer with
  | error e => cases h
  | ok k =>
    dsimp only at h
    split at h
    · next hs =>
      cases h
      exact ⟨rfl, hs⟩
    · cases h

theorem scroll_ok (d : Decoder α) (data : Payload) (mode : ScrollMode) :
    ∃ r, d.scroll data mode = .ok r := by
  unfold scroll scrollActing
  dsimp only
  split
  · exact ⟨_, rfl⟩
  · split
    · exact ⟨_, rfl⟩
    · next actions next d' h =>
      obtain ⟨hc, hs⟩ := acquireCanvas_ok h
      obtain ⟨hx, hy⟩ := d.canvas.offset.shift_ofPayload data
      obtain ⟨c, h₁, _⟩ := Canvas.scrollInto_spec d'.canvas next (by rw [hc, hs])
        (Nat.le_trans hx (by decide)) (Nat.le_trans hy (by decide))
        (ScrollParams.ofPayload data).color mode
      rw [h₁]
      exact ⟨_, rfl⟩

/-- No instruction ever breaks a bound. -/
theorem perform_ok (d : Decoder α) (i : Instruction) (data : Payload) :
    ∃ r, d.perform i data = .ok r := by
  cases i with
  | borderPreset =>
    obtain ⟨d', h⟩ := d.border_ok data
    simp only [perform, h]
    exact ⟨_, rfl⟩
  | tileBlock =>
    obtain ⟨d', h⟩ := d.tile_ok data .normal
    simp only [perform, h]
    exact ⟨_, rfl⟩
  | tileBlockXor =>
    obtain ⟨d', h⟩ := d.tile_ok data .xor
    simp only [perform, h]
    exact ⟨_, rfl⟩
  | scrollPreset => exact d.scroll_ok data .preset
  | scrollCopy => exact d.scroll_ok data .copy
  | memoryPreset | loadPaletteLow | loadPaletteHigh | unknown => exact ⟨_, rfl⟩

def execute (d : Decoder α) (i : Instruction) (data : Payload) :
    Except DecodeError Unit × Decoder α :=
  match h : d.perform i data with
  | .ok r => r
  | .error _ => False.elim <| by
    obtain ⟨r, hr⟩ := d.perform_ok i data
    rw [h] at hr
    cases hr

theorem perform_eq_ok (d : Decoder α) (i : Instruction) (data : Payload) :
    d.perform i data = .ok (d.execute i data) := by
  unfold execute
  split
  · assumption
  · next h =>
    obtain ⟨r, hr⟩ := d.perform_ok i data
    rw [h] at hr
    cases hr

/-- Trace a packet under the number of records decoded before it, if packets are traced. -/
def tracePacket (d : Decoder α) (p : Packet) : Decoder α :=
  d.withLogger fun l => l.logPacket ⟨d.packetsDecoded, p.instruction, p.data⟩

/-- Apply one packet to the canvas without letting a frame out. The answer says whether it was a
graphics packet. -/
def decodePacket (d : Decoder α) (p : Packet) : Except DecodeError Bool × Decoder α :=
  if p.isGraphics then
    match (d.tracePacket p).execute p.instruction p.data with
    | (.error e, d) => (.error e, d)
    | (.ok (), d) => (.ok true, { d with packetsDecoded := d.packetsDecoded + 1 })
  else
    (.ok false, { d with packetsDecoded := d.packetsDecoded + 1 })

def frame (d : Decoder α) : Frame := ⟨d.canvas⟩

/-- Decode one record. A graphics packet lets a frame out, which reports a change of the palette
for the last time. -/
def decode (d : Decoder α) (bytes : List UInt8) : Except DecodeError (Option Frame) × Decoder α :=
  match Packet.parse bytes with
  | .error e => (.error e, d.withLogger fun l => l.logMessage .error e.message)
  | .ok p =>
    match d.decodePacket p with
    | (.error e, d) => (.error e, d)
    | (.ok false, d) => (.ok none, d)
    | (.ok true, d) => (.ok (some d.frame), d.withCanvas Canvas.clearPaletteChanged)

def reset (d : Decoder α) : Decoder α :=
  { d with canvas := d.canvas.reset, packetsDecoded := 0 }

end Decoder
end DiscGraphics
