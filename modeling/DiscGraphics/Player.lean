import DiscGraphics.Decoder
import DiscGraphics.Exporter
import DiscGraphics.Playback.Source
import DiscGraphics.Playback.Stats
import DiscGraphics.Snapshot.Text

/-!
Playing a stream: every record goes to the decoder, every frame to a sink, and everything is
counted. The player owns a decoder over a pool of canvases and keeps the totals of the streams it
has played.
-/
namespace DiscGraphics

inductive PlayerError where
  | io (error : IoError)
  | decode (error : DecodeError)
  | exporting (error : ExportError)
  | snapshot (error : SnapshotError)
  deriving DecidableEq, Repr

namespace PlayerError

def message : PlayerError → String
  | .io e => s!"I/O error: {e.message}"
  | .decode e => s!"Decode error: {e.message}"
  | .exporting e => s!"Export error: {e.message}"
  | .snapshot e => s!"Snapshot error: {e.message}"

def report : PlayerError → String
  | .io e => s!"Io({e.report})"
  | .decode e => s!"Decode({e.report})"
  | .exporting e => s!"Screenshot({e.report})"
  | .snapshot e => s!"Snapshot({e.report})"

/-- The messages from the error down to its first cause. -/
def chain (e : PlayerError) : List String :=
  e.message :: match e with
    | .io e => [e.message]
    | .decode e => e.chain
    | .exporting e => [e.message]
    | .snapshot e => [e.message]

end PlayerError

variable {m : Type → Type} [Monad m] [Files m]

def Decoder.flush {α : Type} (d : Decoder α) : m (Decoder α) := do
  let logger ← d.logger.flush
  pure { d with logger }

/-- The counts after one more complete record, by what the decoder answered. -/
def PlaybackStats.record (s : PlaybackStats) (bytes : List UInt8) :
    Except DecodeError (Option Frame) → PlaybackStats
  | .ok (some _) =>
    let code := match Packet.parse bytes with
      | .ok p => p.instruction.code
      | .error _ => 0
    { s with
      packets := s.packets + 1
      frames := s.frames + 1
      instructions := s.instructions.add code 1 }
  | .ok none => { s with packets := s.packets + 1, ignored := s.ignored + 1 }
  | .error _ => { s with packets := s.packets + 1 }

/-- Decode records in turn and pass on their frames, up to the first that cannot be decoded. -/
def Decoder.playRecords {α : Type} [CanvasAllocator α] {σ : Type} (sink : σ → Frame → m σ) :
    List (List UInt8) → Decoder α → PlaybackStats → σ →
      m (Option DecodeError × Decoder α × PlaybackStats × σ)
  | [], d, stats, s => pure (none, d, stats, s)
  | bytes :: records, d, stats, s => do
    let (answer, d) := d.decode bytes
    let stats := stats.record bytes answer
    let d ← d.flush
    match answer with
    | .error e => pure (some e, d, stats, s)
    | .ok none => playRecords sink records d stats s
    | .ok (some frame) => do
      let s ← sink s frame
      playRecords sink records d stats s

def portionSize : Nat := 8192

/-- Decode the records of an open file portion by portion, so that what is written to its end in the
meantime is played as well. The bytes left over from one portion go in front of the next. The answer
is what is left over at the end, or why it was not reached; there is none if `reads` reads do not
bring it to that. -/
def Decoder.playPortions {α : Type} [CanvasAllocator α] {σ : Type} (sink : σ → Frame → m σ)
    (h : FileHandle) (reads : Nat) (rest : List UInt8) (d : Decoder α) (stats : PlaybackStats)
    (s : σ) : m (Option (Except PlayerError (List UInt8) × Decoder α × PlaybackStats × σ)) :=
  match reads with
  | 0 => pure none
  | reads + 1 => do
    match ← Files.readPortion h portionSize with
    | .error e =>
      if e.isInterruption then playPortions sink h reads rest d stats s
      else pure (some (.error (.io (.host e)), d, stats, s))
    | .ok data =>
      if data.isEmpty then pure (some (.ok rest, d, stats, s))
      else
        let script := (ByteSource.ofBytes (rest ++ data.toList)).transcript
        let (failed, d, stats, s) ← d.playRecords sink script.records stats s
        match failed with
        | some e => pure (some (.error (.decode e), d, stats, s))
        | none => playPortions sink h reads script.rest d stats s

/-- A decoder with its settings, the file being played and the totals of all streams. -/
structure Player where
  decoder : Decoder Pool
  config : PlayerConfig
  source : Option String := none
  totals : PlaybackStats := {}

namespace Player

/-- A player over a pool of the configured size. A log file is made only after the canvas. -/
def open? (config : PlayerConfig) (memory : Memory) : m (Except PlayerError Player) := do
  match Decoder.withAllocator (Pool.ofCapacity config.decoder.poolCapacity memory)
      config.decoder.stride with
  | .error (e, _) => pure (.error (.decode e))
  | .ok d =>
    let d := d.withLogger fun l =>
      { l with level := config.logging.level, packetTrace := config.logging.packetTrace }
    match config.logging.logFile with
    | none => pure (.ok ⟨d, config, none, {}⟩)
    | some path =>
      match ← Files.create path with
      | .error e => pure (.error (.io (.host e)))
      | .ok handle => pure (.ok ⟨d.withLogger fun l => l.openOutput handle, config, none, {}⟩)

/-- The message that ends the trace of a stream. -/
def summary (s : PlaybackStats) : String :=
  s!"played {s.packets} packets, {s.frames} frames, {s.ignored} ignored, {s.malformed} malformed"

/-- End a stream with the bytes left over, which count as malformed if there are any, or with what
cut it off. A stream that cannot be read leaves no trace in the totals; one that the decoder gives
up on does. -/
def conclude (p : Player) (stats : PlaybackStats) :
    Except PlayerError (List UInt8) → m (Except PlayerError PlaybackStats × Player)
  | .error (.decode e) =>
    pure (.error (.decode e), { p with totals := p.totals.merge stats })
  | .error e => pure (.error e, p)
  | .ok rest => do
    let ⟨d, config, source, totals⟩ := p
    let (d, stats) :=
      if rest = [] then (d, stats)
      else ((d.decode rest).2, { stats with malformed := stats.malformed + 1 })
    let d := d.withLogger fun l => l.logMessage .info (summary stats)
    let d ← d.flush
    pure (.ok stats, ⟨d, config, source, totals.merge stats⟩)

def play {σ : Type} (p : Player) (stream : ByteSource) (sink : σ → Frame → m σ) (s : σ) :
    m (Except PlayerError PlaybackStats × Player × σ) := do
  let ⟨decoder, config, source, totals⟩ := p
  let script := stream.transcript
  let (failed, d, stats, s) ← decoder.playRecords sink script.records {} s
  let outcome : Except PlayerError (List UInt8) := match failed, script.failure with
    | some e, _ => .error (.decode e)
    | none, some e => .error (.io e)
    | none, none => .ok script.rest
  let (answer, p) ← conclude ⟨d, config, source, totals⟩ stats outcome
  pure (answer, p, s)

/-- Play a file. Once it is open it is the player's source, even if it cannot be read. There is no
answer to a file that does not end within so many reads. -/
def playFile {σ : Type} (p : Player) (reads : Nat) (path : String) (sink : σ → Frame → m σ)
    (s : σ) : m (Option (Except PlayerError PlaybackStats × Player × σ)) := do
  match ← Files.openToRead path with
  | .error e => pure (some (.error (.io (.host e)), p, s))
  | .ok h =>
    let ⟨decoder, config, _, totals⟩ := p
    match ← decoder.playPortions sink h reads [] {} s with
    | none => pure none
    | some (outcome, d, stats, s) =>
      let (answer, p) ← conclude ⟨d, config, some path, totals⟩ stats outcome
      pure (some (answer, p, s))

/-- Write the frame as it stands as the final one of the source. -/
def screenshot [Clock m] [PngEncoder] (p : Player) : m (Except ExportError String) :=
  p.decoder.frame.saveFinal p.source p.config.exporting

def saveSnapshot [Clock m] (p : Player) (path : String) : m (Except SnapshotError Unit) := do
  let now ← Clock.now
  (Snapshot.ofDecoder p.decoder now.timestamp).save path

def loadSnapshot (p : Player) (path : String) : m (Except SnapshotError Player) := do
  match ← Snapshot.load path with
  | .error e => pure (.error e)
  | .ok s => pure ((s.restore p.decoder).map fun d => { p with decoder := d })

def reset (p : Player) : Player :=
  { p with decoder := p.decoder.reset, source := none, totals := {} }

end Player
end DiscGraphics
