import DiscGraphics.Proofs.Entry
import DiscGraphics.Proofs.Invariant

/-!
Which frames a sink receives, and which of them report a change of the palette. A change is pending
from the load of a palette until a frame goes out, whichever canvas is on show by then.
-/
namespace DiscGraphics

def Instruction.loadsPalette : Instruction → Bool
  | .loadPaletteLow | .loadPaletteHigh => true
  | _ => false

theorem Instruction.loadsPalette_of_scroll {i : Instruction} (h : i.scrollMode?.isSome) :
    i.loadsPalette = false := by
  cases i <;> first | rfl | cases h

theorem Canvas.paletteChanged_draw (c : Canvas) (i : Instruction) (data : Payload) :
    (c.draw i data).paletteChanged = (c.paletteChanged || i.loadsPalette) := by
  cases i with
  | memoryPreset | borderPreset | tileBlock | tileBlockXor | unknown =>
    rw [(c.sameFrame_draw rfl data).paletteChanged]
    exact (Bool.or_false _).symm
  | scrollPreset | scrollCopy => exact (Bool.or_false _).symm
  | loadPaletteLow | loadPaletteHigh => exact (Bool.or_true _).symm

namespace Decoder

variable {α : Type}

/-- An entry, and the decoder that it finds. -/
structure Turn (α : Type) where
  decoder : Decoder α
  entry : Entry

/-- A palette is loaded in the turn. -/
def Turn.Loads (t : Turn α) : Prop :=
  ∃ i data, t.entry.instruction? = some (i, data) ∧ i.loadsPalette = true

theorem loads_iff {t : Turn α} {i : Instruction} {data : Payload}
    (h : t.entry.instruction? = some (i, data)) : t.Loads ↔ i.loadsPalette = true := by
  constructor
  · rintro ⟨j, other, hj, hloads⟩
    rw [h] at hj
    cases hj
    exact hloads
  · exact fun hloads => ⟨i, data, h, hloads⟩

variable [CanvasAllocator α]

/-- A palette load sets the mark and every other instruction keeps it, also when it is refused. The
mark that a supplied canvas brings along does not count. -/
theorem Executes.paletteChanged {c c' : Canvas} {a a' : α} {i : Instruction} {data : Payload}
    {x : Except DecodeError Unit} (h : Executes c a i data x c' a') :
    c'.paletteChanged = (c.paletteChanged || i.loadsPalette) := by
  have hscroll (hm : c.Moves i data) : (c.paletteChanged || i.loadsPalette) = c.paletteChanged := by
    rw [i.loadsPalette_of_scroll hm.1, Bool.or_false]
  cases h with
  | drawn => exact c.paletteChanged_draw i data
  | scrolled _ hm _ hs hout =>
    rw [hscroll hm]
    exact (Canvas.scrolled_of_ok hs.symm hout).paletteChanged
  | refused hm => exact (hscroll hm).symm
  | mismatched hm => exact (hscroll hm).symm

namespace Turn

variable (t : Turn α)

def answer : Except DecodeError Bool := t.decoder.answerTo t.entry

def frame? : Option Frame := t.decoder.frameFor t.entry

def next : Decoder α := t.decoder.enter t.entry

/-- The turn counts as a record that was decoded. -/
def counted : Bool := t.entry.counts && t.answer.isOk

end Turn

/-- The turns of a run, in order. -/
def turns (d : Decoder α) : List Entry → List (Turn α)
  | [] => []
  | e :: rest => ⟨d, e⟩ :: (d.enter e).turns rest

/-- A palette has been loaded and no frame has gone out since. -/
def Pending (turns : List (Turn α)) : Prop :=
  ∃ before t since, turns = before ++ t :: since ∧ t.Loads ∧ ∀ u ∈ t :: since, u.frame? = none

theorem not_pending_nil : ¬ Pending ([] : List (Turn α)) := by
  rintro ⟨before, t, since, h, -⟩
  exact List.append_ne_nil_of_right_ne_nil before (List.cons_ne_nil t since) h.symm

theorem pending_snoc (turns : List (Turn α)) (t : Turn α) :
    Pending (turns ++ [t]) ↔ t.frame? = none ∧ (t.Loads ∨ Pending turns) := by
  constructor
  · rintro ⟨before, u, since, h, hloads, hnone⟩
    -- The load is that of the last turn, or an earlier one and nothing has gone out since.
    obtain rfl | ⟨since, v, rfl⟩ := since.eq_nil_or_concat
    · obtain ⟨-, hlast⟩ := List.append_inj' h rfl
      cases hlast
      exact ⟨hnone t (List.mem_singleton_self t), .inl hloads⟩
    · rw [List.concat_eq_append] at h hnone
      rw [← List.cons_append, ← List.append_assoc] at h
      obtain ⟨rfl, hlast⟩ := List.append_inj' h rfl
      cases hlast
      refine ⟨hnone t (by simp), .inr ⟨before, u, since, rfl, hloads, ?_⟩⟩
      intro w hw
      exact hnone w (List.mem_append_left [t] hw)
  · rintro ⟨hframe, hloads | ⟨before, u, since, rfl, hloads, hnone⟩⟩
    · exact ⟨turns, t, [], rfl, hloads, by simpa using hframe⟩
    · refine ⟨before, u, since ++ [t], by simp, hloads, ?_⟩
      intro w hw
      rcases List.mem_append.mp (List.cons_append ▸ hw) with hw | hw
      · exact hnone w hw
      · cases List.mem_singleton.mp hw
        exact hframe

/-- After a turn the mark is set when no frame has gone out in it, and a palette was loaded in it or
the mark was set before. -/
theorem paletteChanged_next (t : Turn α) :
    t.next.canvas.paletteChanged = true ↔
      t.frame? = none ∧ (t.Loads ∨ t.decoder.canvas.paletteChanged = true) := by
  cases hi : t.entry.instruction? with
  | none =>
    obtain ⟨hframe, hcanvas, -⟩ := t.decoder.enter_of_none hi
    have hloads : ¬ t.Loads := by
      rintro ⟨i, data, h, -⟩
      rw [hi] at h
      cases h
    rw [Turn.next, hcanvas]
    simp only [Turn.frame?, hframe, hloads, true_and, false_or]
  | some call =>
    obtain ⟨i, data⟩ := call
    have hruns := t.decoder.runs_of_instruction? hi
    rw [Turn.next, hruns.canvas, Turn.frame?, hruns.frame?, Entry.settled, loads_iff hi]
    cases t.entry.shows && (t.decoder.execute i data).1.isOk with
    | true => simp [Canvas.clearPaletteChanged]
    | false =>
      simp only [Bool.false_eq_true, if_false, true_and,
        (t.decoder.executes i data).paletteChanged, Bool.or_eq_true]
      exact or_comm

/-- A frame shows the canvas right after the instruction of its turn. -/
theorem frame_spec {t : Turn α} {f : Frame} (h : t.frame? = some f) :
    ∃ i data, t.entry.instruction? = some (i, data) ∧
      f.canvas = (t.decoder.execute i data).2.canvas := by
  cases hi : t.entry.instruction? with
  | none =>
    obtain ⟨hframe, -⟩ := t.decoder.enter_of_none hi
    rw [Turn.frame?, hframe] at h
    cases h
  | some call =>
    obtain ⟨i, data⟩ := call
    rw [Turn.frame?, (t.decoder.runs_of_instruction? hi).frame?] at h
    split at h
    · cases h
      exact ⟨i, data, rfl, rfl⟩
    · cases h

theorem paletteChanged_frame {t : Turn α} {f : Frame} (h : t.frame? = some f) :
    f.canvas.paletteChanged = true ↔ t.Loads ∨ t.decoder.canvas.paletteChanged = true := by
  obtain ⟨i, data, hi, hcanvas⟩ := frame_spec h
  rw [hcanvas, (t.decoder.executes i data).paletteChanged, loads_iff hi, Bool.or_eq_true]
  exact or_comm

/-- A frame goes out in the turn of a record that is answered so. -/
theorem isSome_frame (t : Turn α) :
    t.frame?.isSome = true ↔ t.entry.shows = true ∧ t.answer = .ok true := by
  obtain ⟨d, e⟩ := t
  cases e with
  | record bytes =>
    simp only [Turn.frame?, Turn.answer, frameFor, answerTo, Entry.shows, true_and]
    cases (d.decode bytes).1 with
    | error e => simp [emitted, Except.map]
    | ok frame? => simp [emitted, Except.map]
  | packet | instruction => simp [Turn.frame?, frameFor, Entry.shows]

/-- A record is answered by a frame when it has the right length and the command of the graphics
packets, and its instruction succeeds. -/
theorem answerTo_record (d : Decoder α) (bytes : List UInt8) :
    d.answerTo (.record bytes) = .ok true ↔
      bytes.length = 24 ∧ sixBits (bytes.getD 0 0) = graphicsCommand ∧
        ∃ p, Packet.parse bytes = .ok p ∧ (d.execute p.instruction p.data).1 = .ok () := by
  by_cases hlen : bytes.length = 24
  · obtain ⟨p, hp⟩ := Packet.parse_eq_ok hlen
    have hcommand : sixBits (bytes.getD 0 0) = graphicsCommand ↔ p.isGraphics = true := by
      rw [← (Packet.bytes_of_parse hp).1, Packet.isGraphics, beq_iff_eq]
    cases hg : p.isGraphics with
    | false =>
      rw [hcommand, hg, answerTo, d.decode_skipped hp hg]
      simp [Except.map]
    | true =>
      rw [hcommand, hg, (d.runs_record hp hg).answer, hp]
      simp only [hlen, true_and, Except.ok.injEq, exists_eq_left']
      cases (d.execute p.instruction p.data).1 with
      | error e => simp [Except.map]
      | ok => simp [Except.map]
  · obtain ⟨l, hd⟩ := d.decode_malformed hlen
    rw [answerTo, hd]
    simp [Except.map, hlen]

theorem packetsDecoded_next (t : Turn α) :
    t.next.packetsDecoded =
      if t.counted then t.decoder.packetsDecoded + 1 else t.decoder.packetsDecoded := by
  obtain ⟨d, e⟩ := t
  cases e with
  | record bytes =>
    have hn := d.packetsDecoded_decode bytes
    rw [← isOk_map Option.isSome] at hn
    exact hn
  | packet p =>
    cases hg : p.isGraphics with
    | false =>
      simp only [Turn.next, Turn.counted, Turn.answer, enter, answerTo, d.decodePacket_skipped hg]
      rfl
    | true =>
      obtain ⟨l, hd⟩ := d.decodePacket_graphics hg
      simp only [Turn.next, Turn.counted, Turn.answer, enter, answerTo, hd]
      cases (d.execute p.instruction p.data).1 <;> rfl
  | instruction i data => exact d.packetsDecoded_execute i data

/-- The mark on the canvas tells whether a change is pending, at the end of every run. -/
theorem pending_of_run {d : Decoder α} {history : List (Turn α)}
    (h : d.canvas.paletteChanged = true ↔ Pending history) (entries : List Entry) :
    (entries.foldl enter d).canvas.paletteChanged = true ↔
      Pending (history ++ d.turns entries) := by
  induction entries generalizing d history with
  | nil => rwa [turns, List.append_nil]
  | cons e rest ih =>
    have hstep : (d.enter e).canvas.paletteChanged = true ↔ Pending (history ++ [⟨d, e⟩]) := by
      rw [pending_snoc, ← h]
      exact paletteChanged_next ⟨d, e⟩
    rw [List.foldl_cons, ih hstep, turns, List.append_assoc]
    rfl

theorem packetsDecoded_of_run (d : Decoder α) (entries : List Entry) :
    (entries.foldl enter d).packetsDecoded =
      d.packetsDecoded + .ofNat ((d.turns entries).countP Turn.counted) := by
  induction entries generalizing d with
  | nil => exact (UInt64.add_zero _).symm
  | cons e rest ih =>
    have hstep : (d.enter e).packetsDecoded = _ := packetsDecoded_next ⟨d, e⟩
    rw [List.foldl_cons, ih, hstep, turns, List.countP_cons]
    split
    · rw [UInt64.ofNat_add, UInt64.add_assoc, UInt64.add_comm 1]
      rfl
    · rfl

/-- A turn finds the decoder that the entries before it leave. -/
theorem turns_eq_append {d : Decoder α} {entries : List Entry} {before after : List (Turn α)}
    {t : Turn α} (h : d.turns entries = before ++ t :: after) :
    ∃ earlier, before = d.turns earlier ∧ t.decoder = earlier.foldl enter d := by
  induction before generalizing d entries with
  | nil =>
    cases entries with
    | nil => cases h
    | cons e rest =>
      cases h
      exact ⟨[], rfl, rfl⟩
  | cons u before ih =>
    cases entries with
    | nil => cases h
    | cons e rest =>
      rw [turns, List.cons_append] at h
      obtain ⟨rfl, hrest⟩ := List.cons.inj h
      obtain ⟨earlier, rfl, hd⟩ := ih hrest
      exact ⟨e :: earlier, rfl, hd⟩

variable {σ : Type}

def enterInto (sink : σ → Frame → σ) (d : Decoder α) (s : σ) :
    Entry → Except DecodeError Bool × Decoder α × σ
  | .record bytes => d.decodeInto sink s bytes
  | .packet p => ((d.decodePacket p).1, (d.decodePacket p).2, s)
  | .instruction i data => ((d.execute i data).1.map fun _ => true, (d.execute i data).2, s)

/-- A run with a sink: the answers, the last state of the decoder and that of the sink. -/
def enterAll (sink : σ → Frame → σ) (d : Decoder α) (s : σ) :
    List Entry → List (Except DecodeError Bool) × Decoder α × σ
  | [] => ([], d, s)
  | e :: rest =>
    let now := d.enterInto sink s e
    let later := now.2.1.enterAll sink now.2.2 rest
    (now.1 :: later.1, later.2)

/-- The sink is called once for each frame of a turn, which is once or never. -/
theorem enterInto_eq (sink : σ → Frame → σ) (d : Decoder α) (s : σ) (e : Entry) :
    d.enterInto sink s e = (d.answerTo e, d.enter e, (d.frameFor e).toList.foldl sink s) := by
  cases e with
  | record bytes => exact d.decodeInto_eq sink s bytes
  | packet | instruction => rfl

theorem enterAll_eq (sink : σ → Frame → σ) (d : Decoder α) (s : σ) (entries : List Entry) :
    d.enterAll sink s entries = ((d.turns entries).map Turn.answer, entries.foldl enter d,
      ((d.turns entries).filterMap Turn.frame?).foldl sink s) := by
  induction entries generalizing d s with
  | nil => rfl
  | cons e rest ih =>
    have hframe : Turn.frame? ⟨d, e⟩ = d.frameFor e := rfl
    rw [enterAll, enterInto_eq, ih, turns, List.filterMap_cons, hframe]
    cases d.frameFor e <;> rfl

/-- What is reported in a turn, given the turns before it. -/
structure Reported (before : List (Turn α)) (t : Turn α) : Prop where
  /-- A frame goes out for a record that is answered so, and for nothing else. -/
  once : t.frame?.isSome = true ↔ t.entry.shows = true ∧ t.answer = .ok true
  answered : ∀ bytes, t.entry = .record bytes →
    (t.answer = .ok true ↔ bytes.length = 24 ∧ sixBits (bytes.getD 0 0) = 9 ∧
      ∃ p, Packet.parse bytes = .ok p ∧ (t.decoder.execute p.instruction p.data).1 = .ok ())
  shown : ∀ f, t.frame? = some f → ∃ i data, t.entry.instruction? = some (i, data) ∧
    f.canvas = (t.decoder.execute i data).2.canvas
  changed : ∀ f, t.frame? = some f → (f.canvas.paletteChanged = true ↔ t.Loads ∨ Pending before)

/-- Whatever the supply does, in a run from construction a sink is called with the frame of each
record that is answered so, once and in order, and with nothing else. A frame reports a change of
the palette when a palette was loaded since the frame before it, and the records and packets that
are not refused are counted. -/
theorem changes_reported_once {a : α} {stride : Nat} {d : Decoder α}
    (h : withAllocator a stride = .ok d) (entries : List Entry) :
    (∀ {σ : Type} (sink : σ → Frame → σ) (s : σ),
      d.enterAll sink s entries = ((d.turns entries).map Turn.answer, entries.foldl enter d,
        ((d.turns entries).filterMap Turn.frame?).foldl sink s)) ∧
    (∀ before t after, d.turns entries = before ++ t :: after → Reported before t) ∧
    (entries.foldl enter d).packetsDecoded =
      .ofNat ((d.turns entries).countP Turn.counted) := by
  obtain ⟨hw, hblank⟩ := canvas_of_withAllocator h
  have hstart : d.canvas.paletteChanged = true ↔ Pending ([] : List (Turn α)) := by
    rw [hblank]
    exact ⟨Bool.noConfusion, fun hp => (not_pending_nil hp).elim⟩
  refine ⟨fun sink s => d.enterAll_eq sink s entries, ?_, ?_⟩
  · intro before t after hturns
    obtain ⟨earlier, rfl, hd⟩ := turns_eq_append hturns
    have hpending := pending_of_run hstart earlier
    rw [← hd] at hpending
    refine ⟨isSome_frame t, fun bytes he => ?_, fun f hf => frame_spec hf, fun f hf => ?_⟩
    · rw [Turn.answer, he]
      exact t.decoder.answerTo_record bytes
    · rw [paletteChanged_frame hf, hpending]
      rfl
  · rw [packetsDecoded_of_run, packetsDecoded_of_withAllocator h, UInt64.zero_add]

/-- The decoder on the heap is built like any other, for rows without padding. -/
theorem withAllocator_heap : withAllocator (Heap.mk .ample) 300 = .ok (onHeap .ample) :=
  rfl

theorem withAllocator_onFullPool :
    withAllocator (Pool.ofCapacity 1 .ample) 300 = .ok onFullPool := rfl

/-- A scroll is refused between a palette load and a fill, whose frame still reports the change. -/
theorem change_reported_past_refusal :
    let load := Entry.instruction .loadPaletteLow rightward
    let scroll := Entry.record rightScroll.toBytes
    let fill := Entry.record (Packet.ofInstruction .memoryPreset rightward).toBytes
    ∃ before t f, onFullPool.turns [load, scroll, fill] = before ++ [t] ∧
      t.frame? = some f ∧ f.canvas.paletteChanged = true := by
  intro load scroll fill
  obtain ⟨-, hreported, -⟩ := changes_reported_once withAllocator_onFullPool [load, scroll, fill]
  let loaded := onFullPool.enter load
  have hr : Reported [⟨onFullPool, load⟩, ⟨loaded, scroll⟩] ⟨loaded.enter scroll, fill⟩ :=
    hreported _ _ [] rfl
  have hfill : ((loaded.enter scroll).execute .memoryPreset rightward).1 = .ok () :=
    congrArg Prod.fst
      (Except.ok.inj ((loaded.enter scroll).perform_eq_ok .memoryPreset rightward)).symm
  have hrefused : loaded.frameFor scroll = none := by
    have hloaded : loaded = { onFullPool with canvas := Canvas.empty.loadPalette rightward .low } :=
      congrArg Prod.snd (Except.ok.inj (onFullPool.perform_eq_ok .loadPaletteLow rightward)).symm
    have hx : Executes loaded.canvas loaded.allocator .scrollCopy rightward
        (.error (.bufferAllocationFailure (.poolExhausted 1))) loaded.canvas loaded.allocator := by
      rw [hloaded]
      exact .refused ⟨rfl, rfl⟩ rfl
    obtain ⟨l, hd⟩ := loaded.decode_of_executes parse_rightScroll rfl hx
    rw [frameFor, hd]
    rfl
  obtain ⟨f, hf⟩ := Option.isSome_iff_exists.mp
    (hr.once.mpr ⟨rfl, (hr.answered _ rfl).mpr ⟨rfl, rfl, _, rfl, hfill⟩⟩)
  refine ⟨[⟨onFullPool, load⟩, ⟨loaded, scroll⟩], _, f, rfl, hf, (hr.changed f hf).mpr (.inr ?_)⟩
  refine ⟨[], ⟨onFullPool, load⟩, [⟨loaded, scroll⟩], rfl, ⟨_, _, rfl, rfl⟩, ?_⟩
  intro u hu
  rcases List.mem_cons.mp hu with rfl | hu
  · rfl
  · cases List.mem_singleton.mp hu
    exact hrefused

end Decoder
end DiscGraphics
