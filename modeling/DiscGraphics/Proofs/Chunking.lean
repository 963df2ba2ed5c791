import DiscGraphics.Proofs.Playback

/-!
Playback does not depend on how the stream is cut into deliveries. A player that reads and decodes
by turns does what one does that reads first.
-/
namespace DiscGraphics
namespace Decoder

variable {α : Type} [CanvasAllocator α]

section Reading

variable {m : Type → Type} [Monad m] [Files m] {σ : Type}

/-- Read a record, decode it, pass on its frame, and so on until the stream ends or something
fails. -/
def playReading (sink : σ → Frame → m σ) (source : ByteSource) (d : Decoder α)
    (stats : PlaybackStats) (s : σ) :
    m (Except PlayerError (List UInt8) × Decoder α × PlaybackStats × σ) :=
  match _h : ByteSource.fill [] source.script source.bytes with
  | .error e => pure (.error (.io e), d, stats, s)
  | .ok (bytes, source) =>
    if _hl : bytes.length = 24 then do
      let (answer, d) := d.decode bytes
      let stats := stats.record bytes answer
      let d ← d.flush
      match answer with
      | .error e => pure (.error (.decode e), d, stats, s)
      | .ok frame? => do
        let s ← passOn sink s frame?
        playReading sink source d stats s
    else pure (.ok bytes, d, stats, s)
termination_by source.bytes.length
decreasing_by
  exact ByteSource.length_rest_lt (by assumption) (by assumption)

/-- Reading by turns sends out what a run over all that can be read does. -/
theorem playReading_eq [LawfulMonad m] (sink : σ → Frame → m σ) (source : ByteSource)
    (d : Decoder α) (stats : PlaybackStats) (s : σ) :
    d.playReading sink source stats s =
      (fun s => (Player.outcome (d.run stats source.transcript.records).failure source.transcript,
        (d.run stats source.transcript.records).decoder,
        (d.run stats source.transcript.records).stats, s)) <$>
        deliver sink (d.run stats source.transcript.records).emissions s := by
  rw [playReading]
  split
  · next e h =>
    rw [ByteSource.transcript_of_error h]
    simp [run, deliver, Player.outcome]
  · next bytes rest h =>
    rw [ByteSource.transcript_of_fill h]
    by_cases hlen : bytes.length = 24
    · have hshort := ByteSource.length_rest_lt h hlen
      rw [dif_pos hlen, if_pos hlen]
      cases hr : (d.decode bytes).1 with
      | error e =>
        rw [run_cons_error hr]
        simp [hr, flush_eq, deliver, passOn, Player.outcome]
      | ok frame? =>
        rw [run_cons_ok hr]
        simp [hr, flush_eq, deliver, playReading_eq sink rest, Player.outcome]
    · rw [dif_neg hlen, if_neg hlen]
      simp [run, deliver, Player.outcome]
termination_by source.bytes.length

end Reading

/-- All that a whole record can be refused for is the lack of a canvas. -/
theorem cause_of_decode_error {d : Decoder α} {bytes : List UInt8} {e : DecodeError}
    (hlen : bytes.length = 24) (h : (d.decode bytes).1 = .error e) :
    ∃ cause, e = .bufferAllocationFailure cause := by
  have hr := refused_of_decode h
  generalize (d.decode bytes).2 = d' at hr
  cases hr with
  | malformed _ hne => exact absurd hlen hne
  | noCanvas => exact ⟨_, rfl⟩
  | wrongStride => exact ⟨_, rfl⟩

end Decoder

/-- The records of some bytes in order, then what is left over as a record too short. -/
def pieces (bytes : List UInt8) : List (List UInt8) :=
  wholeRecords bytes ++ if leftover bytes = [] then [] else [leftover bytes]

namespace Player
open Decoder (emitted)

section Reading

variable {m : Type → Type} [Monad m] [Files m] {σ : Type}

/-- Play a stream without reading ahead of the decoder. -/
def playReading (p : Player) (source : ByteSource) (sink : σ → Frame → m σ) (s : σ) :
    m (Except PlayerError PlaybackStats × Player × σ) := do
  let (o, d, stats, s) ← p.decoder.playReading sink source {} s
  let (answer, p) ← conclude { p with decoder := d } stats o
  pure (answer, p, s)

theorem playReading_eq_play [LawfulMonad m] (p : Player) (source : ByteSource)
    (sink : σ → Frame → m σ) (s : σ) : p.playReading source sink s = p.play source sink s := by
  rw [play_eq, ← deliver_conclude_eq, playReading]
  simp only [Decoder.playReading_eq, bind_map_left]

end Reading

/-- What a player comes to that tries the records of some bytes and then what is left over. -/
def shown (p : Player) (bytes : List UInt8) : Showing :=
  p.played ⟨wholeRecords bytes, leftover bytes, none⟩

/-- The counts of a stream that was decoded to its end. -/
structure Accounts (bytes : List UInt8) (frames : List Frame) (stats : PlaybackStats) : Prop where
  packets : stats.packets = bytes.length / 24
  malformed : stats.malformed = if bytes.length % 24 = 0 then 0 else 1
  frames : stats.frames = frames.length
  frames_add_ignored : stats.frames + stats.ignored = stats.packets
  total : stats.instructions.total = stats.frames
  count : ∀ i : Instruction,
    stats.count i = (wholeRecords bytes).countP (Packet.carries i.code)

/-- A stream decoded to its end: every piece of it went to the decoder in order. -/
structure PlaysAll (p : Player) (bytes : List UInt8) (x : Showing) : Prop where
  answer : ∃ stats, x.answer = .ok stats ∧ Accounts bytes x.frames stats
  frames : x.frames = (p.decoder.decodeAll (wholeRecords bytes)).1.filterMap emitted
  decoder : x.player.decoder.Agree (p.decoder.decodeAll (pieces bytes)).2

/-- A stream given up at a record: that record and those before it went to the decoder, none after
it, and the picture is that of the records before it. -/
structure CutShort (p : Player) (before : List (List UInt8)) (bytes : List UInt8)
    (e : DecodeError) (x : Showing) : Prop where
  answer : x.answer = .error (.decode e)
  cause : ∃ cause, e = .bufferAllocationFailure cause
  frames : x.frames = (p.decoder.decodeAll before).1.filterMap emitted
  decoder : x.player.decoder.Agree (p.decoder.decodeAll (before ++ [bytes])).2
  canvas : x.player.decoder.canvas = (p.decoder.decodeAll before).2.canvas
  packetsDecoded : x.player.decoder.packetsDecoded = (p.decoder.decodeAll before).2.packetsDecoded

theorem accounts_of_counted {d : Decoder Pool} {bytes : List UInt8} {stats : PlaybackStats}
    (h : ∀ r ∈ (d.decodeAll (wholeRecords bytes)).1, r.isOk)
    (hc : d.Counted (wholeRecords bytes) {} stats) :
    Accounts bytes ((d.decodeAll (wholeRecords bytes)).1.filterMap emitted)
      (stats.close (leftover bytes)) := by
  obtain ⟨hpackets, hframes, hignored, hmalformed, htotal, hcount⟩ := hc
  have hall := Decoder.length_emitted_add_passedOver (d.decodeAll (wholeRecords bytes)).1
  rw [List.countP_eq_length.mpr h, d.length_decodeAll] at hall
  rw [Nat.zero_add] at hpackets hframes hignored
  have hrest : leftover bytes = [] ↔ bytes.length % 24 = 0 := by
    rw [← length_leftover, List.length_eq_zero_iff]
  constructor
  · exact hpackets.trans (length_wholeRecords bytes)
  · rw [PlaybackStats.close, hmalformed]
    simp only [hrest, Nat.zero_add]
  · exact hframes
  · change stats.frames + stats.ignored = stats.packets
    rw [hframes, hignored, hpackets, hall]
  · exact htotal.trans ((Nat.zero_add _).trans hframes.symm)
  · intro i
    have hcarried := hcount i.code
    rw [d.accepted_eq_self h] at hcarried
    exact hcarried.trans (Nat.zero_add _)

theorem playsAll_shown (p : Player) {bytes : List UInt8}
    (h : ∀ r ∈ (p.decoder.decodeAll (wholeRecords bytes)).1, r.isOk) :
    p.PlaysAll bytes (p.shown bytes) := by
  obtain ⟨hdecoder, hframes, hfailure, hcounted⟩ :=
    Decoder.run_follows (.refl p.decoder) {} (wholeRecords bytes)
  rw [p.decoder.attempted_eq_self h] at hdecoder hframes hfailure hcounted
  rw [Decoder.findSome?_refusal?_eq_none.mpr h] at hfailure
  have hshown : (p.shown bytes).frames =
      (p.decoder.decodeAll (wholeRecords bytes)).1.filterMap emitted := by
    rw [shown, frames_played, hframes]
  obtain ⟨hanswer, -, hended⟩ :=
    played_of_ended (t := ⟨wholeRecords bytes, leftover bytes, none⟩) hfailure rfl
  refine ⟨⟨_, hanswer, ?_⟩, hshown, ?_⟩
  · rw [hshown]
    exact accounts_of_counted h hcounted
  · rw [pieces, Decoder.decodeAll_append]
    exact hended.trans (hdecoder.decodeAll _).2

theorem cutShort_shown (p : Player) {bytes : List UInt8} {before after : List (List UInt8)}
    {record : List UInt8} {e : DecodeError}
    (hrecords : wholeRecords bytes = before ++ record :: after)
    (h : ∀ r ∈ (p.decoder.decodeAll before).1, r.isOk)
    (he : ((p.decoder.decodeAll before).2.decode record).1 = .error e) :
    p.CutShort before record e (p.shown bytes) := by
  obtain ⟨hdecoder, hframes, hfailure, -⟩ :=
    Decoder.run_follows (.refl p.decoder) {} (wholeRecords bytes)
  have hlen : record.length = 24 :=
    length_of_mem_wholeRecords (hrecords ▸ List.mem_append_right before List.mem_cons_self)
  have htried := p.decoder.attempted_append_error h he after
  have hanswers : (p.decoder.decodeAll (before ++ [record])).1 =
      (p.decoder.decodeAll before).1 ++ [.error e] := by
    rw [Decoder.decodeAll_append, Decoder.decodeAll, he, Decoder.decodeAll]
  have hlast : (p.decoder.decodeAll (before ++ [record])).2 =
      ((p.decoder.decodeAll before).2.decode record).2 := by
    rw [Decoder.decodeAll_append, Decoder.decodeAll, Decoder.decodeAll]
  rw [hrecords, htried] at hdecoder hframes hfailure
  have hfailed : (p.decoder.run {} (wholeRecords bytes)).failure = some e := by
    rw [hrecords, hfailure, hanswers, List.findSome?_append,
      Decoder.findSome?_refusal?_eq_none.mpr h]
    rfl
  obtain ⟨hanswer, hplayer⟩ :=
    played_of_refused (t := ⟨wholeRecords bytes, leftover bytes, none⟩) hfailed
  have hended : (p.shown bytes).player.decoder.Agree
      ((p.decoder.decodeAll before).2.decode record).2 := by
    rw [shown, hplayer, hrecords, ← hlast]
    exact hdecoder
  have hsame := (Decoder.refused_of_decode he).canvas
  refine ⟨hanswer, Decoder.cause_of_decode_error hlen he, ?_, ?_, ?_, ?_⟩
  · rw [shown, frames_played, hrecords, hframes, hanswers, List.filterMap_append]
    exact List.append_nil _
  · rw [hlast]
    exact hended
  · rw [hended.canvas, hsame.1]
  · rw [hended.packetsDecoded, hsame.2]

/-- Played as it trickles in or all at once, a stream comes to the same. -/
theorem play_eq_play_ofBytes {m : Type → Type} [Monad m] [Files m] [LawfulMonad m] {σ : Type}
    (p : Player) {source : ByteSource} (h : source.Trickles) (sink : σ → Frame → m σ) (s : σ) :
    p.play source sink s = p.play (.ofBytes source.bytes) sink s := by
  have hbytes := ByteSource.transcript_trickles (ByteSource.trickles_ofBytes source.bytes)
  rw [play_eq, play_eq, ByteSource.transcript_trickles h, hbytes]
  rfl

/-- However a stream trickles in, playing it is delivering what its bytes make the player send out,
whether the reader runs ahead or not. If every record finds its canvas, all of them are decoded and
accounted for; otherwise playing stops at the first that does not. -/
theorem play_independent_of_deliveries (p : Player) {source : ByteSource} (h : source.Trickles) :
    (∀ (m : Type → Type) [Monad m] [Files m] [LawfulMonad m] (σ : Type)
      (sink : σ → Frame → m σ) (s : σ),
      p.play source sink s =
          (fun s => ((p.shown source.bytes).answer, (p.shown source.bytes).player, s)) <$>
            deliver sink (p.shown source.bytes).emissions s ∧
        p.playReading source sink s = p.play source sink s) ∧
    ((∀ r ∈ (p.decoder.decodeAll (wholeRecords source.bytes)).1, r.isOk) →
      p.PlaysAll source.bytes (p.shown source.bytes)) ∧
    ∀ before record after e, wholeRecords source.bytes = before ++ record :: after →
      (∀ r ∈ (p.decoder.decodeAll before).1, r.isOk) →
      ((p.decoder.decodeAll before).2.decode record).1 = .error e →
      p.CutShort before record e (p.shown source.bytes) := by
  refine ⟨?_, p.playsAll_shown, ?_⟩
  · intro m _ _ _ σ sink s
    refine ⟨?_, p.playReading_eq_play source sink s⟩
    rw [play_eq, ByteSource.transcript_trickles h, shown]
  · intro before record after e hrecords hok he
    exact p.cutShort_shown hrecords hok he

/-- Two scrolls and a byte, in pieces of 1, 23, 7, 17 and 1 bytes with interruptions. -/
def inPieces : ByteSource where
  script := [.atMost 1, .interrupted, .atMost 100, .atMost 7, .interrupted, .interrupted,
    .atMost 17, .atMost 100, .interrupted, .ended]
  bytes := rightScroll.toBytes ++ rightScroll.toBytes ++ [9]

theorem inPieces_trickles : inPieces.Trickles :=
  .inr ⟨by decide, .inr ⟨by decide, .inr ⟨by decide, .inr ⟨by decide, .inr ⟨by decide, rfl⟩⟩⟩⟩⟩

def onFullPool : Player := ⟨Decoder.onFullPool, {}, none, {}⟩

/-- On a pool without a bound both scrolls play and the byte is malformed; on a pool whose one
canvas is on show the first scroll ends it all. -/
theorem play_inPieces :
    onUnboundedPool.PlaysAll inPieces.bytes (onUnboundedPool.shown inPieces.bytes) ∧
      onFullPool.CutShort [] rightScroll.toBytes (.bufferAllocationFailure (.poolExhausted 1))
        (onFullPool.shown inPieces.bytes) := by
  obtain ⟨-, hall, -⟩ := play_independent_of_deliveries onUnboundedPool inPieces_trickles
  obtain ⟨-, -, hcut⟩ := play_independent_of_deliveries onFullPool inPieces_trickles
  have hok := isOk_onUnboundedPool fun bytes (h : bytes ∈ wholeRecords inPieces.bytes) =>
    length_of_mem_wholeRecords h
  have hnone : ∀ r ∈ (onFullPool.decoder.decodeAll []).1, r.isOk := by simp [Decoder.decodeAll]
  exact ⟨hall hok, hcut [] _ [rightScroll.toBytes] _ rfl hnone Decoder.onFullPool_refuses⟩

end Player
end DiscGraphics
