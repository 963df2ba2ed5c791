import DiscGraphics.Player

/-!
What playing sends out, and when: lines for log files and frames for the sink, in an order fixed
before anything is sent. Playing in any monad of files is delivering what that order lists.
-/
namespace DiscGraphics

/-- A logger once the writes of its latest entries are carried out. -/
def Logger.flushed (l : Logger) : Logger := { l with writes := [] }

/-- Lines for log files, and then a frame for the sink. -/
structure Emission where
  lines : List (FileHandle × String)
  frame? : Option Frame

section Deliver

variable {m : Type → Type} [Monad m] [Files m] {σ : Type}

def passOn (sink : σ → Frame → m σ) (s : σ) : Option Frame → m σ
  | some frame => sink s frame
  | none => pure s

def deliver (sink : σ → Frame → m σ) : List Emission → σ → m σ
  | [], s => pure s
  | e :: rest, s => do
    Logger.writeLines e.lines
    let s ← passOn sink s e.frame?
    deliver sink rest s

variable [LawfulMonad m]

theorem deliver_append (sink : σ → Frame → m σ) (xs ys : List Emission) (s : σ) :
    deliver sink (xs ++ ys) s = deliver sink xs s >>= deliver sink ys := by
  induction xs generalizing s with
  | nil => rw [List.nil_append, deliver, pure_bind]
  | cons e rest ih => simp only [List.cons_append, deliver, ih, bind_assoc]

theorem Logger.flush_eq (l : Logger) :
    (l.flush : m Logger) = (fun _ => l.flushed) <$> writeLines l.writes := by
  rw [flush, map_eq_pure_bind]
  rfl

end Deliver

namespace Decoder

variable {α : Type}

def flushed (d : Decoder α) : Decoder α := d.withLogger Logger.flushed

theorem flush_eq {m : Type → Type} [Monad m] [Files m] [LawfulMonad m] (d : Decoder α) :
    (d.flush : m (Decoder α)) = (fun _ => d.flushed) <$> Logger.writeLines d.logger.writes := by
  rw [flush, Logger.flush_eq, bind_map_left, map_eq_pure_bind]
  rfl

/-- Where a run over some records ends, and what it sends out. -/
structure Run (α : Type) where
  failure : Option DecodeError
  decoder : Decoder α
  stats : PlaybackStats
  emissions : List Emission

variable [CanvasAllocator α]

/-- Decode records in turn up to the first that is refused. After each the log files receive
its lines, and then the sink its frame. -/
def run (d : Decoder α) (stats : PlaybackStats) : List (List UInt8) → Run α
  | [] => ⟨none, d, stats, []⟩
  | bytes :: records =>
    let after := (d.decode bytes).2
    let stats := stats.record bytes (d.decode bytes).1
    match (d.decode bytes).1 with
    | .error e => ⟨some e, after.flushed, stats, [⟨after.logger.writes, none⟩]⟩
    | .ok frame? =>
      let later := after.flushed.run stats records
      { later with emissions := ⟨after.logger.writes, frame?⟩ :: later.emissions }

theorem run_cons_ok {d : Decoder α} {bytes : List UInt8} {frame? : Option Frame}
    (h : (d.decode bytes).1 = .ok frame?) (stats : PlaybackStats) (records : List (List UInt8)) :
    d.run stats (bytes :: records) =
      let later := (d.decode bytes).2.flushed.run (stats.record bytes (.ok frame?)) records
      { later with
        emissions := ⟨(d.decode bytes).2.logger.writes, frame?⟩ :: later.emissions } := by
  rw [run, h]

theorem run_cons_error {d : Decoder α} {bytes : List UInt8} {e : DecodeError}
    (h : (d.decode bytes).1 = .error e) (stats : PlaybackStats) (records : List (List UInt8)) :
    d.run stats (bytes :: records) =
      ⟨some e, (d.decode bytes).2.flushed, stats.record bytes (.error e),
        [⟨(d.decode bytes).2.logger.writes, none⟩]⟩ := by
  rw [run, h]

/-- Playing records is delivering what their run sends out. -/
theorem playRecords_eq {m : Type → Type} [Monad m] [Files m] [LawfulMonad m] {σ : Type}
    (sink : σ → Frame → m σ) (records : List (List UInt8)) (d : Decoder α)
    (stats : PlaybackStats) (s : σ) :
    d.playRecords sink records stats s =
      (fun t => ((d.run stats records).failure, (d.run stats records).decoder,
        (d.run stats records).stats, t)) <$> deliver sink (d.run stats records).emissions s := by
  induction records generalizing d stats s with
  | nil => rw [playRecords, run, deliver, map_pure]
  | cons bytes records ih =>
    cases h : (d.decode bytes).1 with
    | error e =>
      rw [run_cons_error h]
      simp [playRecords, h, flush_eq, deliver, passOn]
    | ok frame? =>
      rw [run_cons_ok h]
      cases frame? <;> simp [playRecords, h, flush_eq, deliver, passOn, ih]

end Decoder

/-- The counts of a stream that ends with these bytes left over. -/
def PlaybackStats.close (s : PlaybackStats) (rest : List UInt8) : PlaybackStats :=
  { s with malformed := s.malformed + if rest = [] then 0 else 1 }

namespace Player

/-- What playing a stream comes to. -/
structure Showing where
  answer : Except PlayerError PlaybackStats
  player : Player
  emissions : List Emission

/-- The frames that a stream hands to the sink. -/
def Showing.frames (x : Showing) : List Frame := x.emissions.filterMap Emission.frame?

/-- How a stream ends: the answer, the player, and the last lines for log files. -/
def concluded (p : Player) (stats : PlaybackStats) :
    Except PlayerError (List UInt8) →
      Except PlayerError PlaybackStats × Player × List (FileHandle × String)
  | .error (.decode e) => (.error (.decode e), { p with totals := p.totals.merge stats }, [])
  | .error e => (.error e, p, [])
  | .ok rest =>
    let stats := stats.close rest
    let d := if rest = [] then p.decoder else (p.decoder.decode rest).2
    let d := d.withLogger fun l => l.logMessage .info (summary stats)
    (.ok stats, { p with decoder := d.flushed, totals := p.totals.merge stats }, d.logger.writes)

/-- The outcome of reading and decoding: a record that is refused comes before a later failure of
the stream. -/
def outcome (failed : Option DecodeError) (t : Transcript) : Except PlayerError (List UInt8) :=
  match failed, t.failure with
  | some e, _ => .error (.decode e)
  | none, some e => .error (.io e)
  | none, none => .ok t.rest

/-- Play all that reading a stream yields. -/
def played (p : Player) (t : Transcript) : Showing :=
  let r := p.decoder.run {} t.records
  let last := concluded { p with decoder := r.decoder } r.stats (outcome r.failure t)
  ⟨last.1, last.2.1, r.emissions ++ [⟨last.2.2, none⟩]⟩

variable {m : Type → Type} [Monad m] [Files m] [LawfulMonad m]

theorem conclude_eq (p : Player) (stats : PlaybackStats) (o : Except PlayerError (List UInt8)) :
    (p.conclude stats o : m _) =
      (fun _ => ((p.concluded stats o).1, (p.concluded stats o).2.1)) <$>
        Logger.writeLines (p.concluded stats o).2.2 := by
  cases o with
  | error e => cases e <;> simp [conclude, concluded, Logger.writeLines]
  | ok rest =>
    obtain ⟨d, config, source, totals⟩ := p
    by_cases h : rest = [] <;>
      simp [conclude, concluded, PlaybackStats.close, h, Decoder.flush_eq]

/-- Once the records of a stream are run, what is left is to deliver and to conclude. -/
theorem deliver_conclude_eq {σ : Type} (p : Player) (t : Transcript) (sink : σ → Frame → m σ)
    (s : σ) :
    (do
      let s ← deliver sink (p.decoder.run {} t.records).emissions s
      let last ← conclude { p with decoder := (p.decoder.run {} t.records).decoder }
        (p.decoder.run {} t.records).stats (outcome (p.decoder.run {} t.records).failure t)
      pure (last.1, last.2, s)) =
      (fun s => ((p.played t).answer, (p.played t).player, s)) <$>
        deliver sink (p.played t).emissions s := by
  rw [played, deliver_append, map_bind]
  congr 1
  funext s
  rw [conclude_eq]
  simp [deliver, passOn]

/-- Playing a stream is delivering what it makes the player send out. -/
theorem play_eq {σ : Type} (p : Player) (source : ByteSource) (sink : σ → Frame → m σ) (s : σ) :
    p.play source sink s =
      (fun s => ((p.played source.transcript).answer, (p.played source.transcript).player, s)) <$>
        deliver sink (p.played source.transcript).emissions s := by
  rw [← deliver_conclude_eq]
  obtain ⟨d, config, file, totals⟩ := p
  rw [play]
  simp only [Decoder.playRecords_eq, bind_map_left]
  rfl

end Player
end DiscGraphics
