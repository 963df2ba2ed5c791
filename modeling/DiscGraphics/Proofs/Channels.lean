import DiscGraphics.Proofs.Ledger
import Mathlib.Data.List.Forall2

/-!
Which bits of a record decoding depends on: the low six of the command, of the instruction and of
the sixteen data bytes. Records that agree on those draw the same from the same requests.
-/
namespace DiscGraphics

/-- A mask of no more than six bits does not see the upper two. -/
theorem and_eq_of_sixBits {a b mask : UInt8} (h : sixBits a = sixBits b)
    (hmask : 0x3F &&& mask = mask) : a &&& mask = b &&& mask := by
  have hnarrow (c : UInt8) : c &&& mask = sixBits c &&& mask := by
    rw [sixBits, UInt8.and_assoc, hmask]
  rw [hnarrow a, hnarrow b, h]

theorem nibble_eq_of_sixBits {a b : UInt8} (h : sixBits a = sixBits b) : nibble a = nibble b :=
  and_eq_of_sixBits h (by decide)

@[simp] theorem sixBits_sixBits (b : UInt8) : sixBits (sixBits b) = sixBits b := by
  rw [sixBits, sixBits, UInt8.and_assoc, UInt8.and_self]

namespace Payload

/-- Two payloads that agree on the graphics channels. -/
def SameChannels (data other : Payload) : Prop :=
  ∀ (i : Nat) (h : i < 16), sixBits data[i] = sixBits other[i]

protected theorem SameChannels.refl (data : Payload) : data.SameChannels data := fun _ _ => rfl

variable {data other : Payload}

theorem SameChannels.presetValues_eq (h : data.SameChannels other) :
    presetValues data = presetValues other :=
  Prod.ext (nibble_eq_of_sixBits (h 0 (by decide))) (nibble_eq_of_sixBits (h 1 (by decide)))

theorem SameChannels.tileBlock_eq (h : data.SameChannels other) :
    TileBlock.ofPayload data = TileBlock.ofPayload other := by
  have hclear : nibble data.first = nibble other.first := nibble_eq_of_sixBits (h 0 (by decide))
  have hmarked : nibble data.second = nibble other.second := nibble_eq_of_sixBits (h 1 (by decide))
  have hrow : data.third &&& 0x1F = other.third &&& 0x1F :=
    and_eq_of_sixBits (h 2 (by decide)) (by decide)
  have hcolumn : sixBits data.fourth = sixBits other.fourth := h 3 (by decide)
  have hbitmap : (fun y : Fin 12 => sixBits data[4 + y.val]) = fun y => sixBits other[4 + y.val] :=
    funext fun y => h (4 + y.val) (by omega)
  simp only [TileBlock.ofPayload, hclear, hmarked, hrow, hcolumn, hbitmap]

theorem SameChannels.scrollParams_eq (h : data.SameChannels other) :
    ScrollParams.ofPayload data = ScrollParams.ofPayload other := by
  have hcolor : nibble data.first = nibble other.first := nibble_eq_of_sixBits (h 0 (by decide))
  have hhorizontal : sixBits data.second = sixBits other.second := h 1 (by decide)
  have hvertical : sixBits data.third = sixBits other.third := h 2 (by decide)
  simp only [ScrollParams.ofPayload, hcolor, hhorizontal, hvertical]

theorem SameChannels.load_eq (h : data.SameChannels other) (p : Palette) (half : PaletteHalf) :
    p.load data half = p.load other half := by
  have hcolors : packedColor data = packedColor other := by
    funext i
    simp only [packedColor, h (2 * i.val) (by omega), h (2 * i.val + 1) (by omega)]
  rw [Palette.load, Palette.load, hcolors]

end Payload

namespace Packet

/-- Two packets that agree on the graphics channels. -/
structure SameChannels (p q : Packet) : Prop where
  command : sixBits p.command = sixBits q.command
  instructionByte : sixBits p.instructionByte = sixBits q.instructionByte
  data : p.data.SameChannels q.data

theorem SameChannels.isGraphics_eq {p q : Packet} (h : p.SameChannels q) :
    p.isGraphics = q.isGraphics := by
  rw [isGraphics, isGraphics, h.command]

theorem SameChannels.instruction_eq {p q : Packet} (h : p.SameChannels q) :
    p.instruction = q.instruction := by
  rw [instruction, instruction, h.instructionByte]

/-- A graphics packet built anew from what was read of one has the same channels. -/
theorem sameChannels_ofInstruction {p : Packet} (h : p.isGraphics = true) :
    p.SameChannels (ofInstruction p.instruction p.data) := by
  refine ⟨?_, ?_, .refl p.data⟩
  · rw [isGraphics, beq_iff_eq] at h
    exact h.trans (show graphicsCommand = sixBits graphicsCommand by decide)
  · rw [ofInstruction, instruction, Instruction.code_ofCode, sixBits_sixBits]

theorem data_of_parse {bytes : List UInt8} {p : Packet} (h : parse bytes = .ok p) {i : Nat}
    (hi : i < 16) : p.data[i] = bytes.getD (4 + i) 0 := by
  unfold parse at h
  split at h
  · next hlen =>
    cases h
    simp [ofRecord, hlen, show 4 + i < 24 by omega]
  · cases h

theorem getD_toBytes (p : Packet) {i : Nat} (hi : i < 16) :
    p.toBytes.getD (4 + i) 0 = p.data[i] := by
  rw [Nat.add_comm]
  simp [toBytes, List.getElem?_append, hi]

theorem parse_toBytes (p : Packet) : parse p.toBytes = .ok p := by
  obtain ⟨q, hq⟩ := parse_eq_ok p.length_toBytes
  obtain ⟨hcommand, hinstruction⟩ := bytes_of_parse hq
  have hdata : q.data = p.data := Vector.ext fun i hi => by
    rw [data_of_parse hq hi, p.getD_toBytes hi]
  rw [hq]
  obtain ⟨command, instructionByte, data⟩ := q
  cases hcommand
  cases hinstruction
  cases hdata
  rfl

end Packet

/-- One record takes the place of another: it agrees with it on the graphics channels of the
command, the instruction and the data, or it is the graphics packet read from it, written anew. -/
inductive Replaces : List UInt8 → List UInt8 → Prop where
  | rewritten {bytes other : List UInt8} : bytes.length = 24 → other.length = 24 →
      (∀ i, i = 0 ∨ i = 1 ∨ (4 ≤ i ∧ i ≤ 19) →
        sixBits (bytes.getD i 0) = sixBits (other.getD i 0)) → Replaces bytes other
  | reencoded {bytes : List UInt8} {p : Packet} : Packet.parse bytes = .ok p →
      p.isGraphics = true → Replaces bytes (Packet.ofInstruction p.instruction p.data).toBytes

theorem Replaces.packets {bytes other : List UInt8} (h : Replaces bytes other) :
    ∃ p q, Packet.parse bytes = .ok p ∧ Packet.parse other = .ok q ∧ p.SameChannels q := by
  cases h with
  | rewritten hlen hlen' hsame =>
    obtain ⟨p, hp⟩ := Packet.parse_eq_ok hlen
    obtain ⟨q, hq⟩ := Packet.parse_eq_ok hlen'
    obtain ⟨hcommand, hinstruction⟩ := Packet.bytes_of_parse hp
    obtain ⟨hcommand', hinstruction'⟩ := Packet.bytes_of_parse hq
    refine ⟨p, q, hp, hq, ?_, ?_, fun i hi => ?_⟩
    · rw [hcommand, hcommand', hsame 0 (.inl rfl)]
    · rw [hinstruction, hinstruction', hsame 1 (.inr (.inl rfl))]
    · rw [Packet.data_of_parse hp, Packet.data_of_parse hq, hsame (4 + i) (by omega)]
  | reencoded hp hg =>
    exact ⟨_, _, hp, Packet.parse_toBytes _, Packet.sameChannels_ofInstruction hg⟩

/-- Two entries of a trace that differ at most in the data of a packet, and there in no channel
that belongs to the graphics. -/
inductive TraceEntry.SameButData : TraceEntry → TraceEntry → Prop where
  | packet (index : UInt64) (i : Instruction) {data other : Payload} : data.SameChannels other →
      SameButData (.packet ⟨index, i, data⟩) (.packet ⟨index, i, other⟩)
  | same (e : TraceEntry) : SameButData e e

namespace Logger
open TraceEntry (SameButData)

/-- Two traces that go on from the same one, and differ in nothing but the data of packets. -/
def Variants (base l m : Logger) : Prop :=
  ∃ entries others, l = entries.foldl push base ∧ m = others.foldl push base ∧
    List.Forall₂ SameButData entries others

variable {base l m : Logger}

protected theorem Variants.refl (base : Logger) : base.Variants base base :=
  ⟨[], [], rfl, rfl, .nil⟩

theorem settings_pushed (base : Logger) (entries : List TraceEntry) :
    (entries.foldl push base).level = base.level ∧
      (entries.foldl push base).packetTrace = base.packetTrace := by
  induction entries generalizing base with
  | nil => exact ⟨rfl, rfl⟩
  | cons e rest ih => exact ih (base.push e)

/-- What is accepted depends on the settings, which both traces share. -/
theorem Variants.accept (h : base.Variants l m) :
    (∀ level, l.enabled level = m.enabled level) ∧ l.tracesPackets = m.tracesPackets := by
  obtain ⟨entries, others, rfl, rfl, -⟩ := h
  obtain ⟨hlevel, htrace⟩ := base.settings_pushed entries
  obtain ⟨hlevel', htrace'⟩ := base.settings_pushed others
  constructor
  · intro level
    rw [enabled, enabled, hlevel, hlevel']
  · rw [tracesPackets, tracesPackets, hlevel, hlevel', htrace, htrace']

theorem Variants.push (h : base.Variants l m) {e e' : TraceEntry} (he : SameButData e e') :
    base.Variants (l.push e) (m.push e') := by
  obtain ⟨entries, others, rfl, rfl, hsame⟩ := h
  refine ⟨entries ++ [e], others ++ [e'], ?_, ?_, List.rel_append hsame (.cons he .nil)⟩
  · rw [List.foldl_append]
    rfl
  · rw [List.foldl_append]
    rfl

theorem Variants.note (h : base.Variants l m) (remark : Option (LogLevel × TraceEntry)) :
    base.Variants (l.note remark) (m.note remark) := by
  cases remark with
  | none => exact h
  | some r =>
    rw [Logger.note, Logger.note, h.accept.1 r.1]
    split
    · exact h.push (.same r.2)
    · exact h

theorem Variants.logPacket (h : base.Variants l m) (index : UInt64) (i : Instruction)
    {data other : Payload} (hsame : data.SameChannels other) :
    base.Variants (l.logPacket ⟨index, i, data⟩) (m.logPacket ⟨index, i, other⟩) := by
  rw [Logger.logPacket, Logger.logPacket, h.accept.2]
  split
  · exact h.push (.packet index i hsame)
  · exact h

end Logger

namespace Decoder

variable {α : Type}

/-- Two decoders that differ in their traces only, and there in nothing but the data of packets. -/
structure Varies (base : Logger) (d e : Decoder α) : Prop where
  agree : d.Agree e
  trace : base.Variants d.logger e.logger

protected theorem Varies.refl (d : Decoder α) : Varies d.logger d d :=
  ⟨.refl d, .refl d.logger⟩

variable [CanvasAllocator α]

/-- An instruction reads no other bits of its data than the graphics channels. -/
theorem perform_sameChannels (d : Decoder α) (i : Instruction) {data other : Payload}
    (h : data.SameChannels other) : d.perform i data = d.perform i other := by
  cases i with
  | memoryPreset => simp only [perform, Canvas.memoryPreset, h.presetValues_eq]
  | borderPreset => simp only [perform, border, Canvas.borderPreset, h.presetValues_eq]
  | tileBlock | tileBlockXor => simp only [perform, tile, Canvas.tileBlock, h.tileBlock_eq]
  | scrollPreset | scrollCopy => simp only [perform, scroll, scrollActing, h.scrollParams_eq]
  | loadPaletteLow | loadPaletteHigh => simp only [perform, Canvas.loadPalette, h.load_eq]
  | unknown => rfl

theorem execute_sameChannels (d : Decoder α) (i : Instruction) {data other : Payload}
    (h : data.SameChannels other) : d.execute i data = d.execute i other := by
  have hperform := d.perform_sameChannels i h
  rw [perform_eq_ok, perform_eq_ok] at hperform
  exact Except.ok.inj hperform

/-- A graphics packet is traced, and then the remark of its instruction. Neither its answer nor
what it draws depends on the trace. -/
theorem decode_noting (d : Decoder α) (i : Instruction) (data : Payload) :
    ∃ remark, NoPacket remark ∧ ∀ (l : Logger) {bytes : List UInt8} {p : Packet},
      Packet.parse bytes = .ok p → p.isGraphics = true → p.instruction = i →
      p.data.SameChannels data →
      { d with logger := l }.decode bytes =
        ((d.execute i data).1.map fun _ => some ⟨(d.execute i data).2.canvas⟩,
          d.settle (d.execute i data).1 (d.execute i data).2.canvas (d.execute i data).2.allocator
            ((l.logPacket ⟨d.packetsDecoded, i, p.data⟩).note remark)) := by
  obtain ⟨remark, hremark, h⟩ := d.execute_noting i data
  refine ⟨remark, hremark, ?_⟩
  rintro l bytes p hp hg rfl hsame
  have htraced : ({ d with logger := l }.tracePacket p).execute p.instruction p.data = _ :=
    (execute_sameChannels _ _ hsame).trans
      (h (l.logPacket ⟨d.packetsDecoded, p.instruction, p.data⟩))
  have hn := d.packetsDecoded_execute p.instruction data
  simp only [decode, hp, decodePacket, hg, if_true, htraced]
  generalize d.execute p.instruction data = r at hn ⊢
  obtain ⟨x, c, a, k, n⟩ := r
  cases hn
  cases x <;> rfl

/-- A record and one that takes its place keep two decoders as they are to each other. -/
theorem Varies.decode {base : Logger} {d e : Decoder α} (h : Varies base d e)
    {bytes other : List UInt8} (hr : Replaces bytes other) :
    (d.decode bytes).1 = (e.decode other).1 ∧
      Varies base (d.decode bytes).2 (e.decode other).2 := by
  obtain ⟨c, a, l, n⟩ := d
  obtain ⟨_, _, m, _⟩ := e
  obtain ⟨⟨rfl, rfl, rfl⟩, htrace⟩ := h
  obtain ⟨p, q, hp, hq, hsame⟩ := hr.packets
  cases hg : p.isGraphics with
  | false =>
    rw [decode_skipped _ hp hg, decode_skipped _ hq (hsame.isGraphics_eq ▸ hg)]
    exact ⟨rfl, ⟨rfl, rfl, rfl⟩, htrace⟩
  | true =>
    -- Both runs are measured by the data of `q`, which fixes the remark that they leave.
    obtain ⟨remark, -, hd⟩ := decode_noting ⟨c, a, l, n⟩ q.instruction q.data
    have hleft := hd l hp hg hsame.instruction_eq hsame.data
    have hright := hd m hq (hsame.isGraphics_eq ▸ hg) rfl (.refl q.data)
    have hlogger := (htrace.logPacket n q.instruction hsame.data).note remark
    dsimp only at hleft hright
    rw [hleft, hright]
    cases (execute ⟨c, a, l, n⟩ q.instruction q.data).1 with
    | error e => exact ⟨rfl, ⟨rfl, rfl, rfl⟩, hlogger⟩
    | ok => exact ⟨rfl, ⟨rfl, rfl, rfl⟩, hlogger⟩

theorem Varies.decodeAll {base : Logger} {d e : Decoder α} (h : Varies base d e)
    {records others : List (List UInt8)} (hr : List.Forall₂ Replaces records others) :
    (d.decodeAll records).1 = (e.decodeAll others).1 ∧
      Varies base (d.decodeAll records).2 (e.decodeAll others).2 := by
  induction hr generalizing d e with
  | nil => exact ⟨rfl, h⟩
  | cons hfirst _ ih =>
    obtain ⟨hanswer, hnext⟩ := h.decode hfirst
    obtain ⟨hanswers, hlast⟩ := ih hnext
    simp only [Decoder.decodeAll, hanswer, hanswers]
    exact ⟨trivial, hlast⟩

theorem decodeAll_mapSupply {β : Type} [CanvasAllocator β] {f : β → α} (hf : Carries f)
    (d : Decoder β) (records : List (List UInt8)) :
    (d.mapSupply f).decodeAll records =
      ((d.decodeAll records).1, (d.decodeAll records).2.mapSupply f) := by
  induction records generalizing d with
  | nil => rfl
  | cons bytes rest ih =>
    simp only [decodeAll, decode_mapSupply hf, ih]

/-- Nothing tells two runs of a decoder apart but the data of traced packets. -/
structure SameRun (d : Decoder α) (records others : List (List UInt8)) : Prop where
  answers : (d.decodeAll records).1 = (d.decodeAll others).1
  agree : (d.decodeAll records).2.Agree (d.decodeAll others).2
  dealings : (d.audited.decodeAll records).2.allocator.ledger =
    (d.audited.decodeAll others).2.allocator.ledger
  trace : d.logger.Variants (d.decodeAll records).2.logger (d.decodeAll others).2.logger

/-- The other channels, the parity bytes and the encoding of a record never matter: after every
call of a run the answers and their frames, the canvas, the packet count and the dealings with the
supply are the same, whichever records take the place of others. -/
theorem only_channels_read (d : Decoder α) :
    (∀ records, (d.audited.decodeAll records).2.unaudited = (d.decodeAll records).2) ∧
    ∀ {records others : List (List UInt8)}, List.Forall₂ Replaces records others →
      ∀ n, d.SameRun (records.take n) (others.take n) := by
  refine ⟨fun records => ?_, fun {records others} h n => ?_⟩
  · have hsame : d.audited.unaudited.decodeAll records = _ :=
      d.audited.decodeAll_mapSupply Audited.carries_supply records
    rw [unaudited_audited] at hsame
    rw [hsame]
    rfl
  · have hprefix := List.forall₂_take n h
    obtain ⟨hanswers, hlast⟩ := (Varies.refl d).decodeAll hprefix
    obtain ⟨-, haudited⟩ := (Varies.refl d.audited).decodeAll hprefix
    exact ⟨hanswers, hlast.agree, congrArg Audited.ledger haudited.agree.allocator, hlast.trace⟩

/-- A scroll with all bits of the other channels set. -/
def noisyScroll : Packet := ⟨0xC9, 0xD8, Vector.ofFn fun i => rightward.get i ||| 0xC0⟩

/-- A noisy scroll is cleaned, its parity bytes included, and then one is written anew. -/
theorem only_channels_read_of_noise :
    let noisy := noisyScroll.toBytes
    let parity := noisy.map (· ||| 0xC0)
    let anew := (Packet.ofInstruction .scrollCopy noisyScroll.data).toBytes
    List.Forall₂ Replaces [parity, noisy] [rightScroll.toBytes, anew] ∧
      onFullPool.SameRun [parity, noisy] [rightScroll.toBytes, anew] := by
  intro noisy parity anew
  have hcleaned : Replaces parity rightScroll.toBytes := by
    refine .rewritten (by simp [parity, noisy]) rfl fun i hi => ?_
    have hsame : ∀ i < 24, (i = 0 ∨ i = 1 ∨ (4 ≤ i ∧ i ≤ 19)) →
        sixBits (parity.getD i 0) = sixBits (rightScroll.toBytes.getD i 0) := by decide
    exact hsame i (by omega) hi
  have hanew : Replaces noisy anew := .reencoded (Packet.parse_toBytes noisyScroll) rfl
  have hall := List.Forall₂.cons hcleaned (.cons hanew .nil)
  exact ⟨hall, onFullPool.only_channels_read.2 hall 2⟩

end Decoder
end DiscGraphics
