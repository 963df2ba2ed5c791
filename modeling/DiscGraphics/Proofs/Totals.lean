import Mathlib.Algebra.Ring.Nat
import DiscGraphics.Proofs.Playback

/-!
What the totals of a player account for. A call adds its counts when its stream ends and when a
record finds no canvas, but not when the stream cannot be read on: the records decoded before that
move the decoder's own count and are missing from the totals.
-/
namespace DiscGraphics

theorem Tally.total_merge (t other : Tally) : (t.merge other).total = t.total + other.total := by
  induction other generalizing t with
  | nil => rfl
  | cons e rest ih =>
    have hstep : t.merge (e :: rest) = (t.add e.1 e.2).merge rest := rfl
    rw [hstep, ih, total_add, total, Nat.add_assoc]

namespace Decoder

variable {α : Type} [CanvasAllocator α]

theorem packetsDecoded_decodeAll (d : Decoder α) (records : List (List UInt8)) :
    (d.decodeAll records).2.packetsDecoded =
      d.packetsDecoded + .ofNat ((d.decodeAll records).1.countP Except.isOk) := by
  induction records generalizing d with
  | nil => exact (UInt64.add_zero _).symm
  | cons bytes rest ih =>
    rw [decodeAll, ih, packetsDecoded_decode]
    cases h : (d.decode bytes).1.isOk with
    | true =>
      rw [if_pos rfl, List.countP_cons_of_pos h, UInt64.ofNat_add, UInt64.add_assoc,
        UInt64.add_comm 1]
      rfl
    | false =>
      rw [if_neg Bool.false_ne_true, List.countP_cons_of_neg (by rw [h]; exact Bool.false_ne_true)]

/-- What is left over at the end of a stream is no record. -/
theorem packetsDecoded_decode_rest (d : Decoder α) {rest : List UInt8} (h : rest.length ≠ 24) :
    (d.decodeAll (if rest = [] then [] else [rest])).2.packetsDecoded = d.packetsDecoded := by
  split
  · rfl
  · obtain ⟨l, hd⟩ := d.decode_malformed h
    rw [decodeAll, hd, decodeAll]

end Decoder

namespace Player

/-- A player that has played nothing since it was opened or reset. -/
structure Fresh (p : Player) : Prop where
  totals : p.totals = {}
  packetsDecoded : p.decoder.packetsDecoded = 0

theorem fresh_reset (p : Player) : p.reset.Fresh := ⟨rfl, rfl⟩

/-- Every player that can be opened is fresh. -/
theorem fresh_open? {m : Type → Type} [Monad m] [Files m] [LawfulMonad m] (config : PlayerConfig)
    (memory : Memory) :
    ∃ opened : m (Except PlayerError { p : Player // p.Fresh }),
      open? config memory = Except.map Subtype.val <$> opened := by
  -- Neither the settings of the trace nor its file touch a count.
  let configured (d : Decoder Pool) : Decoder Pool := d.withLogger fun l =>
    { l with level := config.logging.level, packetTrace := config.logging.packetTrace }
  unfold open?
  split
  · next e _ _ => exact ⟨pure (.error (.decode e)), by simp [Except.map]⟩
  · next d hd =>
    have hcount : d.packetsDecoded = 0 := Decoder.packetsDecoded_of_withAllocator hd
    split
    · exact ⟨pure (.ok ⟨⟨configured d, config, none, {}⟩, rfl, hcount⟩), by
        simp [Except.map, configured]⟩
    · next path _ =>
      let player (handle : FileHandle) : { p : Player // p.Fresh } :=
        ⟨⟨(configured d).withLogger fun l => l.openOutput handle, config, none, {}⟩, rfl, hcount⟩
      refine ⟨(fun r => (r.mapError fun e => .io (.host e)).map player) <$> Files.create path, ?_⟩
      rw [← comp_map, map_eq_pure_bind]
      dsimp only
      congr 1
      funext r
      cases r <;> rfl

/-- One call to play: the player before it, and the stream it is given. -/
structure PlayCall where
  player : Player
  source : ByteSource

namespace PlayCall

variable (c : PlayCall)

def showing : Showing := c.player.played c.source.transcript

def next : Player := c.showing.player

/-- The complete records that the call handed to the decoder. -/
def tried : List (List UInt8) := c.player.decoder.attempted c.source.transcript.records

/-- Whether the call ended because its stream could not be read on. -/
def unreadable : Bool :=
  match c.showing.answer with
  | .error (.io _) => true
  | _ => false

/-- Whether the call came to the end of its stream within a record. -/
def truncated : Bool :=
  match c.showing.answer with
  | .ok _ => decide (c.source.transcript.rest ≠ [])
  | .error _ => false

/-- The totals take over these counts of the call. -/
structure Adds (counts : PlaybackStats) : Prop where
  totals : c.next.totals = c.player.totals.merge counts
  packets : counts.packets = c.tried.length
  frames : counts.frames = c.showing.frames.length
  malformed : counts.malformed = if c.truncated then 1 else 0
  total : counts.instructions.total = counts.frames
  decoded : c.next.decoder.packetsDecoded =
    c.player.decoder.packetsDecoded + .ofNat (counts.frames + counts.ignored)

/-- The totals stay as they are, though the decoder has counted every record of the call. -/
structure Drops : Prop where
  totals : c.next.totals = c.player.totals
  decoded : c.next.decoder.packetsDecoded = c.player.decoder.packetsDecoded + .ofNat c.tried.length

theorem adds_or_drops :
    (c.unreadable = false ∧ ∃ counts, c.Adds counts) ∨ (c.unreadable = true ∧ c.Drops) := by
  obtain ⟨p, source⟩ := c
  obtain ⟨hdecoder, hframes, hfailure, hcounted⟩ :=
    Decoder.run_follows (.refl p.decoder) {} source.transcript.records
  obtain ⟨hpackets, hcframes, hignored, hmalformed, htotal, -⟩ := hcounted
  rw [Nat.zero_add] at hpackets hcframes hignored
  have htally := htotal.trans ((Nat.zero_add _).trans hcframes.symm)
  have hshown := (frames_played p source.transcript).trans hframes
  have hcount := hdecoder.packetsDecoded
  rw [Decoder.packetsDecoded_decodeAll] at hcount
  have hsum := Decoder.length_emitted_add_passedOver
    (p.decoder.decodeAll (p.decoder.attempted source.transcript.records)).1
  rw [← hcframes, ← hignored] at hsum
  -- The run is known; how it ended decides what the totals make of its counts.
  cases hf : (p.decoder.run {} source.transcript.records).failure with
  | some e =>
    obtain ⟨hanswer, hplayer⟩ := played_of_refused hf
    refine .inl ⟨?_, _, ?_, hpackets, ?_, ?_, htally, ?_⟩
    · rw [unreadable, showing, hanswer]
    · rw [next, showing, hplayer]
    · rw [hcframes, showing, hshown]
    · rw [truncated, showing, hanswer]
      exact hmalformed
    · rw [next, showing, hplayer, hsum]
      exact hcount
  | none =>
    cases ht : source.transcript.failure with
    | some e =>
      obtain ⟨hanswer, hplayer⟩ := played_of_unreadable hf ht
      have hok := Decoder.findSome?_refusal?_eq_none.mp (hfailure.symm.trans hf)
      rw [List.countP_eq_length.mpr hok, Decoder.length_decodeAll] at hcount
      refine .inr ⟨?_, ?_, ?_⟩
      · rw [unreadable, showing, hanswer]
      · rw [next, showing, hplayer]
      · rw [next, showing, hplayer]
        exact hcount
    | none =>
      obtain ⟨hanswer, htotals, hended⟩ := played_of_ended hf ht
      refine .inl ⟨?_, _, htotals, hpackets, ?_, ?_, htally, ?_⟩
      · rw [unreadable, showing, hanswer]
      · rw [showing, hshown]
        exact hcframes
      · rw [truncated, showing, hanswer, PlaybackStats.close, hmalformed]
        by_cases hrest : source.transcript.rest = [] <;> simp [hrest]
      · rw [next, showing, hended.packetsDecoded,
          Decoder.packetsDecoded_decode_rest _ source.length_rest_ne, hcount, ← hsum]
        rfl

end PlayCall

/-- The calls made when some streams are played one after the other. -/
def calls (p : Player) : List ByteSource → List PlayCall
  | [] => []
  | source :: rest => ⟨p, source⟩ :: (PlayCall.next ⟨p, source⟩).calls rest

def playedEach (p : Player) (sources : List ByteSource) : Player :=
  sources.foldl (fun p source => PlayCall.next ⟨p, source⟩) p

/-- Play some streams one after the other, whatever each of them comes to. -/
def playEach {m : Type → Type} [Monad m] [Files m] {σ : Type} (sink : σ → Frame → m σ) :
    List ByteSource → Player → σ → m (List (Except PlayerError PlaybackStats) × Player × σ)
  | [], p, s => pure ([], p, s)
  | source :: rest, p, s => do
    let (answer, p, s) ← p.play source sink s
    let (answers, p, s) ← playEach sink rest p s
    pure (answer :: answers, p, s)

theorem playEach_eq {m : Type → Type} [Monad m] [Files m] [LawfulMonad m] {σ : Type}
    (sink : σ → Frame → m σ) (sources : List ByteSource) (p : Player) (s : σ) :
    playEach sink sources p s =
      (fun s => ((p.calls sources).map fun c => c.showing.answer, p.playedEach sources, s)) <$>
        deliver sink ((p.calls sources).flatMap fun c => c.showing.emissions) s := by
  induction sources generalizing p s with
  | nil => simp [playEach, calls, playedEach, deliver]
  | cons source rest ih =>
    simp only [playEach, play_eq, ih, bind_map_left, calls, List.flatMap_cons, deliver_append,
      map_bind, List.map_cons]
    congr 1
    funext t
    simp [PlayCall.showing, PlayCall.next, playedEach]

/-- The calls whose counts the totals have taken over. -/
def kept (calls : List PlayCall) : List PlayCall := calls.filter fun c => !c.unreadable

/-- The records decoded in calls that could not read on. -/
def lost (calls : List PlayCall) : Nat :=
  ((calls.filter PlayCall.unreadable).map fun c => c.tried.length).sum

/-- What some calls add to the totals and to the decoder's own count. -/
structure Grows (p : Player) (calls : List PlayCall) (q : Player) : Prop where
  packets : q.totals.packets =
    p.totals.packets + ((kept calls).map fun c => c.tried.length).sum
  frames : q.totals.frames =
    p.totals.frames + ((kept calls).map fun c => c.showing.frames.length).sum
  malformed : q.totals.malformed = p.totals.malformed + (kept calls).countP PlayCall.truncated
  total : q.totals.instructions.total + p.totals.frames =
    p.totals.instructions.total + q.totals.frames
  decoded : ∃ n, q.decoder.packetsDecoded = p.decoder.packetsDecoded + .ofNat n ∧
    n + p.totals.frames + p.totals.ignored = q.totals.frames + q.totals.ignored + lost calls

theorem Grows.refl (p : Player) : p.Grows [] p :=
  ⟨rfl, rfl, rfl, rfl, 0, (UInt64.add_zero _).symm, by simp [lost]⟩

theorem Grows.trans {p q r : Player} {xs ys : List PlayCall} (h : p.Grows xs q)
    (h' : q.Grows ys r) : p.Grows (xs ++ ys) r := by
  obtain ⟨hpackets, hframes, hmalformed, htotal, n, hn, hsum⟩ := h
  obtain ⟨hpackets', hframes', hmalformed', htotal', n', hn', hsum'⟩ := h'
  have hkept : kept (xs ++ ys) = kept xs ++ kept ys := List.filter_append xs ys
  have hlost : lost (xs ++ ys) = lost xs + lost ys := by
    rw [lost, List.filter_append, List.map_append, List.sum_append, lost, lost]
  refine ⟨?_, ?_, ?_, by omega, n + n', ?_, by omega⟩
  · rw [hpackets', hpackets, hkept, List.map_append, List.sum_append, Nat.add_assoc]
  · rw [hframes', hframes, hkept, List.map_append, List.sum_append, Nat.add_assoc]
  · rw [hmalformed', hmalformed, hkept, List.countP_append, Nat.add_assoc]
  · rw [hn', hn, UInt64.ofNat_add, UInt64.add_assoc]

/-- One call adds its counts or, if it could not read on, drops them. -/
theorem grows_next (c : PlayCall) : c.player.Grows [c] c.next := by
  obtain ⟨hread, counts, hadds⟩ | ⟨hread, hdrops⟩ := c.adds_or_drops
  · have hkept : kept [c] = [c] := List.filter_cons_of_pos (by rw [hread]; rfl)
    have hlost : lost [c] = 0 := by simp [lost, hread]
    constructor
    · rw [hkept, hadds.totals]
      exact congrArg _ hadds.packets
    · rw [hkept, hadds.totals]
      exact congrArg _ hadds.frames
    · rw [hkept, hadds.totals]
      simp [PlaybackStats.merge, hadds.malformed, List.countP_cons]
    · rw [hadds.totals]
      simp only [PlaybackStats.merge, Tally.total_merge, hadds.total]
      omega
    · refine ⟨_, hadds.decoded, ?_⟩
      rw [hadds.totals, hlost]
      simp only [PlaybackStats.merge]
      omega
  · have hkept : kept [c] = [] := by simp [kept, hread]
    have hlost : lost [c] = c.tried.length := by simp [lost, hread]
    constructor
    · rw [hkept, hdrops.totals]
      rfl
    · rw [hkept, hdrops.totals]
      rfl
    · rw [hkept, hdrops.totals]
      rfl
    · rw [hdrops.totals]
    · refine ⟨_, hdrops.decoded, ?_⟩
      rw [hdrops.totals, hlost]
      omega

theorem grows_playedEach (p : Player) (sources : List ByteSource) :
    p.Grows (p.calls sources) (p.playedEach sources) := by
  induction sources generalizing p with
  | nil => exact .refl p
  | cons source rest ih => exact (grows_next ⟨p, source⟩).trans (ih _)

/-- The totals of a player are those of some calls, and with the records of other calls they make up
what the decoder has counted. -/
structure Balanced (calls : List PlayCall) (others : Nat) (q : Player) : Prop where
  packets : q.totals.packets = (calls.map fun c => c.tried.length).sum
  frames : q.totals.frames = (calls.map fun c => c.showing.frames.length).sum
  malformed : q.totals.malformed = calls.countP PlayCall.truncated
  total : q.totals.instructions.total = q.totals.frames
  decoded : q.decoder.packetsDecoded = .ofNat (q.totals.frames + q.totals.ignored + others)

/-- The totals account for every call but those whose stream could not be read on: the records of
these are missing, and are all that is missing. -/
structure AccountsFor (p : Player) (sources : List ByteSource) : Prop where
  plays : ∀ (m : Type → Type) [Monad m] [Files m] [LawfulMonad m] (σ : Type)
    (sink : σ → Frame → m σ) (s : σ), playEach sink sources p s =
      (fun s => ((p.calls sources).map fun c => c.showing.answer, p.playedEach sources, s)) <$>
        deliver sink ((p.calls sources).flatMap fun c => c.showing.emissions) s
  balanced : Balanced (kept (p.calls sources)) (lost (p.calls sources)) (p.playedEach sources)
  complete : (∀ c ∈ p.calls sources, c.unreadable = false) →
    Balanced (p.calls sources) 0 (p.playedEach sources)

theorem Fresh.accounts {p : Player} (h : p.Fresh) (sources : List ByteSource) :
    p.AccountsFor sources := by
  have hkept : Balanced (kept (p.calls sources)) (lost (p.calls sources))
      (p.playedEach sources) := by
    obtain ⟨hpackets, hframes, hmalformed, htotal, n, hn, hsum⟩ := p.grows_playedEach sources
    rw [h.totals] at hpackets hframes hmalformed htotal hsum
    rw [h.packetsDecoded, UInt64.zero_add] at hn
    refine ⟨hpackets.trans (Nat.zero_add _), hframes.trans (Nat.zero_add _),
      hmalformed.trans (Nat.zero_add _), htotal.trans (Nat.zero_add _), ?_⟩
    rw [hn, ← hsum]
    rfl
  refine ⟨fun m _ _ _ σ sink s => playEach_eq sink sources p s, hkept, ?_⟩
  intro hread
  have hall : kept (p.calls sources) = p.calls sources :=
    List.filter_eq_self.mpr fun c hc => by rw [hread c hc]; rfl
  have hnone : lost (p.calls sources) = 0 := by
    rw [lost, List.filter_eq_nil_iff.mpr fun c hc => by rw [hread c hc]; exact Bool.false_ne_true]
    rfl
  rwa [hall, hnone] at hkept

/-- From the opening of a player or its last reset on, the totals account for every call but those
whose stream could not be read on. -/
theorem totals_account_for_kept (sources : List ByteSource) :
    (∀ (m : Type → Type) [Monad m] [Files m] [LawfulMonad m] (config : PlayerConfig)
      (memory : Memory), ∃ opened : m (Except PlayerError { p : Player // p.AccountsFor sources }),
        open? config memory = Except.map Subtype.val <$> opened) ∧
    (∀ p : Player, p.reset.AccountsFor sources) ∧
    ∀ p : Player, p.Fresh → p.AccountsFor sources := by
  refine ⟨fun m _ _ _ config memory => ?_, fun p => p.fresh_reset.accounts sources,
    fun p h => h.accounts sources⟩
  obtain ⟨opened, hopened⟩ := fresh_open? (m := m) config memory
  refine ⟨Except.map (fun p => ⟨p.1, p.2.accounts sources⟩) <$> opened, ?_⟩
  rw [hopened, ← comp_map]
  congr 1
  funext answer
  cases answer <;> rfl

/-- One record, after which the stream fails. -/
def cutOff : ByteSource where
  script := [.atMost 24, .failed "disk"]
  bytes := (Packet.ofInstruction .memoryPreset rightward).toBytes

theorem transcript_cutOff : cutOff.transcript = ⟨[cutOff.bytes], [], some (.stream "disk")⟩ := by
  have hrest : (⟨[.failed "disk"], []⟩ : ByteSource).transcript =
      ⟨[], [], some (.stream "disk")⟩ := ByteSource.transcript_of_error rfl
  have hfill : ByteSource.fill [] cutOff.script cutOff.bytes =
      .ok (cutOff.bytes, ⟨[.failed "disk"], []⟩) := rfl
  rw [ByteSource.transcript_of_fill hfill, hrest]
  rfl

/-- The record is decoded, and then the call cannot read on. -/
theorem cutOff_unreadable :
    (⟨onUnboundedPool, cutOff⟩ : PlayCall).tried = [cutOff.bytes] ∧
      (⟨onUnboundedPool, cutOff⟩ : PlayCall).unreadable = true := by
  have hok : ∀ r ∈ (onUnboundedPool.decoder.decodeAll [cutOff.bytes]).1, r.isOk :=
    isOk_onUnboundedPool (by simp [cutOff])
  have htried : onUnboundedPool.decoder.attempted [cutOff.bytes] = [cutOff.bytes] :=
    onUnboundedPool.decoder.attempted_eq_self hok
  obtain ⟨-, -, hfailure, -⟩ :=
    Decoder.run_follows (.refl onUnboundedPool.decoder) {} [cutOff.bytes]
  rw [htried, Decoder.findSome?_refusal?_eq_none.mpr hok] at hfailure
  have hanswer := (played_of_unreadable (t := ⟨[cutOff.bytes], [], some (.stream "disk")⟩)
    hfailure rfl).1
  constructor
  · rw [PlayCall.tried, transcript_cutOff, htried]
  · rw [PlayCall.unreadable, PlayCall.showing, transcript_cutOff, hanswer]

theorem kept_cutOff : kept (onUnboundedPool.calls [cutOff]) = [] := by
  rw [calls, calls, kept,
    List.filter_cons_of_neg (by rw [cutOff_unreadable.2]; exact Bool.false_ne_true)]
  rfl

theorem lost_cutOff : lost (onUnboundedPool.calls [cutOff]) = 1 := by
  rw [calls, calls, lost, List.filter_cons_of_pos cutOff_unreadable.2, List.map_cons,
    cutOff_unreadable.1]
  rfl

/-- The record before the failure is the decoder's first and is in no total. -/
theorem totals_without_cutOff :
    onUnboundedPool.Fresh ∧ Balanced [] 1 (onUnboundedPool.playedEach [cutOff]) := by
  have hfresh : onUnboundedPool.Fresh := ⟨rfl, rfl⟩
  obtain ⟨-, -, haccount⟩ := totals_account_for_kept [cutOff]
  have hbalanced := (haccount onUnboundedPool hfresh).balanced
  rw [kept_cutOff, lost_cutOff] at hbalanced
  exact ⟨hfresh, hbalanced⟩

/-- So the totals are not always those of every call. -/
theorem totals_lose_cutOff :
    ¬ ∀ (p : Player) (sources : List ByteSource), p.Fresh →
      Balanced (p.calls sources) 0 (p.playedEach sources) := by
  intro h
  have hall := (h onUnboundedPool [cutOff] ⟨rfl, rfl⟩).packets
  have hkept := (onUnboundedPool.grows_playedEach [cutOff]).packets
  have hone : ((onUnboundedPool.calls [cutOff]).map fun c => c.tried.length).sum = 1 := by
    rw [calls, calls, List.map_cons, cutOff_unreadable.1]
    rfl
  rw [hone] at hall
  rw [kept_cutOff, hall] at hkept
  exact absurd hkept (by decide)

end Player
end DiscGraphics
