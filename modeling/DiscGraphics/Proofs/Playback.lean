import DiscGraphics.Proofs.Delivery
import DiscGraphics.Proofs.Emission
import DiscGraphics.Proofs.Refusal

/-!
What a player tries: the records of a stream in order, up to and with the first that is refused. How
the stream then ends decides which counts the totals take over.
-/
namespace DiscGraphics

/-- Whether a record is a graphics packet whose instruction has this code. -/
def Packet.carries (code : UInt8) (bytes : List UInt8) : Bool :=
  sixBits (bytes.getD 0 0) == graphicsCommand && sixBits (bytes.getD 1 0) == code

theorem Packet.carries_eq {bytes : List UInt8} {p : Packet} (h : parse bytes = .ok p)
    (code : UInt8) : carries code bytes = (p.isGraphics && p.instruction.code == code) := by
  obtain ⟨hcommand, hinstruction⟩ := bytes_of_parse h
  rw [carries, isGraphics, instruction, Instruction.code_ofCode, hcommand, hinstruction]

namespace Decoder
open CanvasAllocator (Supplies)

/-- The error that an answer carries. -/
def refusal? : Except DecodeError (Option Frame) → Option DecodeError
  | .ok _ => none
  | .error e => some e

/-- Whether an answer is that of a record that is no graphics packet. -/
def passedOver : Except DecodeError (Option Frame) → Bool
  | .ok none => true
  | _ => false

theorem isOk_iff_refusal? (r : Except DecodeError (Option Frame)) :
    r.isOk ↔ refusal? r = none := by
  cases r <;> simp [refusal?]

theorem findSome?_refusal?_eq_none {answers : List (Except DecodeError (Option Frame))} :
    answers.findSome? refusal? = none ↔ ∀ r ∈ answers, r.isOk := by
  rw [List.findSome?_eq_none_iff]
  exact forall₂_congr fun r _ => (isOk_iff_refusal? r).symm

/-- An accepted record lets a frame out or is passed over. -/
theorem length_emitted_add_passedOver (answers : List (Except DecodeError (Option Frame))) :
    (answers.filterMap emitted).length + answers.countP passedOver =
      answers.countP Except.isOk := by
  induction answers with
  | nil => rfl
  | cons r rest ih =>
    match r with
    | .ok none =>
      rw [List.filterMap_cons_none rfl, List.countP_cons_of_pos rfl, List.countP_cons_of_pos rfl,
        ← ih, Nat.add_assoc]
    | .ok (some frame) =>
      have hframe : emitted (.ok (some frame)) = some frame := rfl
      rw [List.filterMap_cons_some hframe, List.countP_cons_of_neg Bool.false_ne_true,
        List.countP_cons_of_pos rfl, ← ih, List.length_cons, Nat.add_right_comm]
    | .error e =>
      rw [List.filterMap_cons_none rfl, List.countP_cons_of_neg Bool.false_ne_true,
        List.countP_cons_of_neg Bool.false_ne_true, ih]

variable {α : Type}

theorem agree_flushed {d e : Decoder α} (h : d.Agree e) : d.flushed.Agree e :=
  ⟨h.canvas, h.allocator, h.packetsDecoded⟩

variable [CanvasAllocator α]

theorem length_decodeAll (d : Decoder α) (records : List (List UInt8)) :
    (d.decodeAll records).1.length = records.length := by
  induction records generalizing d with
  | nil => rfl
  | cons bytes rest ih => rw [decodeAll, List.length_cons, ih, List.length_cons]

theorem Agree.decodeAll {d e : Decoder α} (h : d.Agree e) (records : List (List UInt8)) :
    (d.decodeAll records).1 = (e.decodeAll records).1 ∧
      (d.decodeAll records).2.Agree (e.decodeAll records).2 := by
  induction records generalizing d e with
  | nil => exact ⟨rfl, h⟩
  | cons bytes rest ih =>
    obtain ⟨hsame, hnext⟩ := h.decode bytes
    obtain ⟨hrest, hlast⟩ := ih hnext
    refine ⟨?_, hlast⟩
    rw [Decoder.decodeAll, Decoder.decodeAll, hsame, hrest]

/-- Whether an accepted record lets a frame out is written in it. -/
theorem parse_of_decode_ok {d : Decoder α} {bytes : List UInt8} {frame? : Option Frame}
    (h : (d.decode bytes).1 = .ok frame?) :
    ∃ p, Packet.parse bytes = .ok p ∧ frame?.isSome = p.isGraphics := by
  have hd := d.decodes bytes
  rw [h] at hd
  generalize (d.decode bytes).2 = d' at hd
  cases hd with
  | skipped hp hg => exact ⟨_, hp, hg.symm⟩
  | shown _ hp hg => exact ⟨_, hp, hg.symm⟩

/-- A supply that never runs dry has every whole record accepted. -/
theorem isOk_of_supplies {d : Decoder α} (h : Supplies d.canvas.stride d.allocator)
    {records : List (List UInt8)} (hlen : ∀ bytes ∈ records, bytes.length = 24) :
    ∀ r ∈ (d.decodeAll records).1, r.isOk := by
  induction records generalizing d with
  | nil => exact fun r hr => absurd hr List.not_mem_nil
  | cons bytes rest ih =>
    obtain ⟨hbytes, hrest⟩ := List.forall_mem_cons.mp hlen
    obtain ⟨frame?, hframe⟩ := d.decode_ok_of_supplies h hbytes
    rw [decodeAll, hframe]
    exact List.forall_mem_cons.mpr ⟨rfl, ih (supplies_decode h bytes) hrest⟩

/-- The records of a stream up to and with the first that is refused. -/
def attempted (d : Decoder α) : List (List UInt8) → List (List UInt8)
  | [] => []
  | bytes :: rest =>
    if (d.decode bytes).1.isOk then bytes :: (d.decode bytes).2.attempted rest else [bytes]

theorem attempted_cons_ok {d : Decoder α} {bytes : List UInt8} {frame? : Option Frame}
    (h : (d.decode bytes).1 = .ok frame?) (rest : List (List UInt8)) :
    d.attempted (bytes :: rest) = bytes :: (d.decode bytes).2.attempted rest := by
  rw [attempted, h, isOk_ok, if_pos rfl]

theorem attempted_cons_error {d : Decoder α} {bytes : List UInt8} {e : DecodeError}
    (h : (d.decode bytes).1 = .error e) (rest : List (List UInt8)) :
    d.attempted (bytes :: rest) = [bytes] := by
  rw [attempted, h, isOk_error, if_neg Bool.false_ne_true]

/-- Up to a record that is refused, and with it. -/
theorem attempted_append_error (d : Decoder α) {before : List (List UInt8)}
    (hok : ∀ r ∈ (d.decodeAll before).1, r.isOk) {bytes : List UInt8} {e : DecodeError}
    (h : ((d.decodeAll before).2.decode bytes).1 = .error e) (after : List (List UInt8)) :
    d.attempted (before ++ bytes :: after) = before ++ [bytes] := by
  induction before generalizing d with
  | nil => exact attempted_cons_error h after
  | cons first rest ih =>
    rw [decodeAll] at hok
    obtain ⟨hfirst, hrest⟩ := List.forall_mem_cons.mp hok
    rw [List.cons_append, attempted, if_pos hfirst, ih _ hrest h, List.cons_append]

theorem attempted_eq_self (d : Decoder α) {records : List (List UInt8)}
    (hok : ∀ r ∈ (d.decodeAll records).1, r.isOk) : d.attempted records = records := by
  induction records generalizing d with
  | nil => rfl
  | cons first rest ih =>
    rw [decodeAll] at hok
    obtain ⟨hfirst, hrest⟩ := List.forall_mem_cons.mp hok
    rw [attempted, if_pos hfirst, ih _ hrest]

theorem accepted_eq_self (d : Decoder α) {records : List (List UInt8)}
    (hok : ∀ r ∈ (d.decodeAll records).1, r.isOk) : d.accepted records = records := by
  induction records generalizing d with
  | nil => rfl
  | cons first rest ih =>
    rw [decodeAll] at hok
    obtain ⟨hfirst, hrest⟩ := List.forall_mem_cons.mp hok
    rw [accepted, if_pos hfirst, ih _ hrest]

/-- The counts `after` are those `before` and what decoding some records adds to them. -/
structure Counted (d : Decoder α) (records : List (List UInt8)) (before after : PlaybackStats) :
    Prop where
  packets : after.packets = before.packets + records.length
  frames : after.frames = before.frames + ((d.decodeAll records).1.filterMap emitted).length
  ignored : after.ignored = before.ignored + (d.decodeAll records).1.countP passedOver
  malformed : after.malformed = before.malformed
  total : after.instructions.total =
    before.instructions.total + ((d.decodeAll records).1.filterMap emitted).length
  count : ∀ code, after.instructions.count code =
    before.instructions.count code + (d.accepted records).countP (Packet.carries code)

theorem Counted.refl (d : Decoder α) (stats : PlaybackStats) : d.Counted [] stats stats :=
  ⟨rfl, rfl, rfl, rfl, rfl, fun _ => rfl⟩

theorem counted_error {d : Decoder α} {bytes : List UInt8} {e : DecodeError}
    (h : (d.decode bytes).1 = .error e) (stats : PlaybackStats) :
    d.Counted [bytes] stats (stats.record bytes (.error e)) := by
  have hanswers : (d.decodeAll [bytes]).1 = [.error e] := by rw [decodeAll, h, decodeAll]
  have haccepted : d.accepted [bytes] = [] := accepted_cons_error h []
  constructor <;> simp [hanswers, haccepted, PlaybackStats.record, emitted, passedOver]

/-- One more record before those that are counted. -/
theorem Counted.cons {d : Decoder α} {bytes : List UInt8} {frame? : Option Frame}
    (h : (d.decode bytes).1 = .ok frame?) {records : List (List UInt8)}
    {before after : PlaybackStats}
    (hc : (d.decode bytes).2.Counted records (before.record bytes (.ok frame?)) after) :
    d.Counted (bytes :: records) before after := by
  obtain ⟨p, hp, hg⟩ := parse_of_decode_ok h
  have hanswers : (d.decodeAll (bytes :: records)).1 =
      .ok frame? :: ((d.decode bytes).2.decodeAll records).1 := by rw [decodeAll, h]
  have haccepted := accepted_cons_ok h records
  obtain ⟨hpackets, hframes, hignored, hmalformed, htotal, hcount⟩ := hc
  cases frame? with
  | none =>
    have hcarries (code : UInt8) : Packet.carries code bytes = false := by
      rw [Packet.carries_eq hp, ← hg]
      rfl
    simp only [PlaybackStats.record] at hpackets hframes hignored hmalformed htotal hcount
    constructor
    · rw [hpackets, List.length_cons, Nat.add_right_comm, Nat.add_assoc]
    · rw [hframes, hanswers]
      rfl
    · rw [hignored, hanswers, List.countP_cons_of_pos rfl, Nat.add_right_comm, Nat.add_assoc]
    · exact hmalformed
    · rw [htotal, hanswers]
      rfl
    · intro code
      rw [hcount, haccepted, List.countP_cons, hcarries]
      rfl
  | some frame =>
    have hcarries (code : UInt8) :
        Packet.carries code bytes = (p.instruction.code == code) := by
      rw [Packet.carries_eq hp, ← hg]
      rfl
    have hmore : ((d.decodeAll (bytes :: records)).1.filterMap emitted).length =
        1 + (((d.decode bytes).2.decodeAll records).1.filterMap emitted).length := by
      rw [hanswers, Nat.add_comm]
      rfl
    simp only [PlaybackStats.record, hp] at hpackets hframes hignored hmalformed htotal hcount
    constructor
    · rw [hpackets, List.length_cons, Nat.add_right_comm, Nat.add_assoc]
    · rw [hframes, hmore, Nat.add_assoc]
    · rw [hignored, hanswers, List.countP_cons_of_neg Bool.false_ne_true]
    · exact hmalformed
    · rw [htotal, hmore, Tally.total_add, Nat.add_assoc]
    · intro code
      rw [hcount, haccepted, List.countP_cons, hcarries, Tally.count_add]
      simp only [beq_iff_eq, eq_comm (a := code)]
      omega

/-- A run that does to a decoder what decoding some records does, and counts them. -/
structure Follows (d : Decoder α) (records : List (List UInt8)) (stats : PlaybackStats)
    (r : Run α) : Prop where
  decoder : r.decoder.Agree (d.decodeAll records).2
  frames : r.emissions.filterMap Emission.frame? = (d.decodeAll records).1.filterMap emitted
  failure : r.failure = (d.decodeAll records).1.findSome? refusal?
  counted : d.Counted records stats r.stats

/-- A run follows the decoder through the records that it tries. -/
theorem run_follows {d e : Decoder α} (h : d.Agree e) (stats : PlaybackStats)
    (records : List (List UInt8)) :
    e.Follows (e.attempted records) stats (d.run stats records) := by
  induction records generalizing d e stats with
  | nil => exact ⟨h, rfl, rfl, .refl e stats⟩
  | cons bytes rest ih =>
    obtain ⟨hsame, hnext⟩ := h.decode bytes
    cases hr : (e.decode bytes).1 with
    | error err =>
      rw [hr] at hsame
      rw [attempted_cons_error hr, run_cons_error hsame]
      refine ⟨agree_flushed hnext, ?_, ?_, counted_error hr stats⟩
      · rw [decodeAll, hr]
        rfl
      · rw [decodeAll, hr]
        rfl
    | ok frame? =>
      rw [hr] at hsame
      obtain ⟨hdecoder, hframes, hfailure, hcounted⟩ :=
        ih (agree_flushed hnext) (stats.record bytes (.ok frame?))
      rw [attempted_cons_ok hr, run_cons_ok hsame]
      refine ⟨hdecoder, ?_, ?_, hcounted.cons hr⟩
      · rw [decodeAll, hr, List.filterMap_cons, List.filterMap_cons, hframes]
        rfl
      · rw [decodeAll, hr, List.findSome?_cons]
        exact hfailure

end Decoder

namespace Player

theorem frames_played (p : Player) (t : Transcript) :
    (p.played t).frames =
      (p.decoder.run {} t.records).emissions.filterMap Emission.frame? := by
  rw [played, Showing.frames, List.filterMap_append]
  exact List.append_nil _

theorem agree_concluded (p : Player) (stats : PlaybackStats) (rest : List UInt8) :
    (p.concluded stats (.ok rest)).2.1.decoder.Agree
      (p.decoder.decodeAll (if rest = [] then [] else [rest])).2 := by
  by_cases h : rest = []
  · simp only [concluded, if_pos h]
    exact ⟨rfl, rfl, rfl⟩
  · simp only [concluded, if_neg h]
    exact ⟨rfl, rfl, rfl⟩

/-- A record that is refused ends the stream, and the totals take over what was counted. -/
theorem played_of_refused {p : Player} {t : Transcript} {e : DecodeError}
    (h : (p.decoder.run {} t.records).failure = some e) :
    (p.played t).answer = .error (.decode e) ∧
      (p.played t).player = { p with
        decoder := (p.decoder.run {} t.records).decoder
        totals := p.totals.merge (p.decoder.run {} t.records).stats } := by
  have hout : outcome (p.decoder.run {} t.records).failure t = .error (.decode e) := by
    rw [h]
    rfl
  rw [played, hout]
  exact ⟨rfl, rfl⟩

/-- A stream that cannot be read on ends without a trace in the totals. -/
theorem played_of_unreadable {p : Player} {t : Transcript} {e : IoError}
    (h : (p.decoder.run {} t.records).failure = none) (ht : t.failure = some e) :
    (p.played t).answer = .error (.io e) ∧
      (p.played t).player = { p with decoder := (p.decoder.run {} t.records).decoder } := by
  have hout : outcome (p.decoder.run {} t.records).failure t = .error (.io e) := by
    simp only [outcome, h, ht]
  rw [played, hout]
  exact ⟨rfl, rfl⟩

/-- A stream that comes to its end is counted with what is left over. -/
theorem played_of_ended {p : Player} {t : Transcript}
    (h : (p.decoder.run {} t.records).failure = none) (ht : t.failure = none) :
    (p.played t).answer = .ok ((p.decoder.run {} t.records).stats.close t.rest) ∧
      (p.played t).player.totals =
        p.totals.merge ((p.decoder.run {} t.records).stats.close t.rest) ∧
      (p.played t).player.decoder.Agree ((p.decoder.run {} t.records).decoder.decodeAll
        (if t.rest = [] then [] else [t.rest])).2 := by
  have hout : outcome (p.decoder.run {} t.records).failure t = .ok t.rest := by
    simp only [outcome, h, ht]
  rw [played, hout]
  exact ⟨rfl, rfl, agree_concluded _ _ _⟩

/-- A player on a pool without a bound, which never lacks a canvas. -/
def onUnboundedPool : Player := ⟨⟨.empty, .ofCapacity 0 .ample, .silent, 0⟩, {}, none, {}⟩

theorem isOk_onUnboundedPool {records : List (List UInt8)}
    (h : ∀ bytes ∈ records, bytes.length = 24) :
    ∀ r ∈ (onUnboundedPool.decoder.decodeAll records).1, r.isOk :=
  Decoder.isOk_of_supplies (Pool.supplies (by decide) rfl (Memory.lends_ample (by decide))) h

end Player
end DiscGraphics
