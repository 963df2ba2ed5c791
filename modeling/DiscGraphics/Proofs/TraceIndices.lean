import Mathlib.Data.List.Induction
import DiscGraphics.Proofs.Channels
import DiscGraphics.Proofs.Reports
import DiscGraphics.Proofs.Totals

/-!
The index that a packet is traced under, which is the number of records accepted before it. With
every record refused it falls further short of the packet's position in the stream.
-/
namespace DiscGraphics

/-- The packet of a record, if it has graphics. -/
def graphicsPacket? (bytes : List UInt8) : Option Packet :=
  match Packet.parse bytes with
  | .ok p => if p.isGraphics then some p else none
  | .error _ => none

theorem graphicsPacket?_malformed {bytes : List UInt8} (h : bytes.length ≠ 24) :
    graphicsPacket? bytes = none := by
  rw [graphicsPacket?, Packet.parse_eq_error h]

theorem graphicsPacket?_of_parse {bytes : List UInt8} {p : Packet}
    (h : Packet.parse bytes = .ok p) :
    graphicsPacket? bytes = if p.isGraphics then some p else none := by
  rw [graphicsPacket?, h]

/-- What is traced of a packet under an index. -/
def Packet.tracedUnder (index : UInt64) (p : Packet) : PacketTrace :=
  ⟨index, p.instruction, p.data⟩

namespace Logger

/-- Everything is accepted, and nothing is ever given up. -/
structure TracesAll (l : Logger) : Prop where
  level : l.level = .trace
  packetTrace : l.packetTrace = true
  capacity : l.capacity = 0

/-- The packets in a trace. -/
def packets (l : Logger) : List PacketTrace := l.entries.toList.filterMap TraceEntry.packet?

variable {l : Logger}

theorem TracesAll.push (h : l.TracesAll) (e : TraceEntry) : (l.push e).TracesAll :=
  ⟨h.level, h.packetTrace, h.capacity⟩

theorem TracesAll.packets_push (h : l.TracesAll) (e : TraceEntry) :
    (l.push e).packets = l.packets ++ e.packet?.toList := by
  have hroom : ¬(0 < l.capacity ∧ l.capacity < (l.entries.push e).size) := by
    rw [h.capacity]
    exact fun hfull => absurd hfull.1 (Nat.lt_irrefl 0)
  simp only [packets, Logger.push, if_neg hroom, Array.toList_push, List.filterMap_append]
  cases he : e.packet? <;> simp [he]

theorem TracesAll.logPacket (h : l.TracesAll) (t : PacketTrace) :
    (l.logPacket t).TracesAll ∧ (l.logPacket t).packets = l.packets ++ [t] := by
  have hon : l.tracesPackets = true := by
    rw [tracesPackets, h.packetTrace, h.level]
    decide
  rw [Logger.logPacket, if_pos hon]
  exact ⟨h.push _, h.packets_push _⟩

/-- An entry about something else leaves the packets as they are. -/
theorem TracesAll.note (h : l.TracesAll) {remark : Option (LogLevel × TraceEntry)}
    (hremark : NoPacket remark) :
    (l.note remark).TracesAll ∧ (l.note remark).packets = l.packets := by
  cases remark with
  | none => exact ⟨h, rfl⟩
  | some r =>
    rw [Logger.note]
    split
    · refine ⟨h.push r.2, ?_⟩
      rw [h.packets_push, hremark r rfl, Option.toList_none, List.append_nil]
    · exact ⟨h, rfl⟩

end Logger

namespace Decoder
open Logger (TracesAll)

variable {α : Type} [CanvasAllocator α]

omit [CanvasAllocator α] in
theorem logger_settle (d : Decoder α) (x : Except DecodeError Unit) (c : Canvas) (a : α)
    (l : Logger) : (d.settle x c a l).logger = l := by
  cases x <;> rfl

/-- A graphics packet is traced under the count of the records accepted before it. Nothing else adds
a packet to the trace. -/
theorem packets_decode {d : Decoder α} (h : d.logger.TracesAll) (bytes : List UInt8) :
    (d.decode bytes).2.logger.TracesAll ∧
      (d.decode bytes).2.logger.packets = d.logger.packets ++
        ((graphicsPacket? bytes).map fun p => p.tracedUnder d.packetsDecoded).toList := by
  by_cases hlen : bytes.length = 24
  · obtain ⟨p, hp⟩ := Packet.parse_eq_ok hlen
    rw [graphicsPacket?_of_parse hp]
    cases hg : p.isGraphics with
    | false =>
      rw [d.decode_skipped hp hg]
      exact ⟨h, (List.append_nil _).symm⟩
    | true =>
      obtain ⟨remark, hremark, hd⟩ := d.decode_noting p.instruction p.data
      obtain ⟨htraced, hpackets⟩ := h.logPacket (p.tracedUnder d.packetsDecoded)
      obtain ⟨hlater, hsame⟩ := htraced.note hremark
      have hlogger := congrArg (fun r => r.2.logger) (hd d.logger hp hg rfl (.refl p.data))
      rw [hlogger.trans (logger_settle _ _ _ _ _)]
      exact ⟨hlater, hsame.trans hpackets⟩
  · let text := (DecodeError.malformedPacket bytes.length).message
    have hremark : NoPacket (some (.error, .message .error text)) := noPacket_some rfl
    have hlogger : (d.decode bytes).2.logger =
        d.logger.note (some (.error, .message .error text)) := by
      simp only [decode, Packet.parse_eq_error hlen]
      rfl
    obtain ⟨hlater, hsame⟩ := h.note hremark
    rw [hlogger, graphicsPacket?_malformed hlen]
    exact ⟨hlater, hsame.trans (List.append_nil _).symm⟩

end Decoder

/-- A packet and the position of its record in a stream. -/
structure Placed where
  position : Nat
  packet : Packet
  deriving DecidableEq

/-- The graphics packets of a stream. Positions count all records, of whatever kind. -/
def graphicsIn (records : List (List UInt8)) : List Placed :=
  records.zipIdx.filterMap fun r => (graphicsPacket? r.1).map fun p => ⟨r.2, p⟩

theorem graphicsIn_snoc (records : List (List UInt8)) (bytes : List UInt8) :
    graphicsIn (records ++ [bytes]) =
      graphicsIn records ++ ((graphicsPacket? bytes).map (Placed.mk records.length)).toList := by
  simp only [graphicsIn, List.zipIdx_append, List.filterMap_append]
  cases h : graphicsPacket? bytes <;> simp [h]

theorem position_lt {records : List (List UInt8)} {g : Placed} (h : g ∈ graphicsIn records) :
    g.position < records.length := by
  obtain ⟨⟨bytes, k⟩, hk, hg⟩ := List.mem_filterMap.mp h
  obtain ⟨p, -, rfl⟩ := Option.map_eq_some_iff.mp hg
  simpa using (List.mem_zipIdx hk).2.1

theorem pairwise_position_lt (records : List (List UInt8)) :
    (graphicsIn records).Pairwise fun g g' => g.position < g'.position := by
  induction records using List.reverseRecOn with
  | nil => exact .nil
  | append_singleton records bytes ih =>
    rw [graphicsIn_snoc, List.pairwise_append]
    refine ⟨ih, ?_, ?_⟩
    · cases graphicsPacket? bytes <;> simp
    · intro g hg g' hg'
      obtain ⟨p, -, rfl⟩ :
          ∃ p, graphicsPacket? bytes = some p ∧ Placed.mk records.length p = g' := by
        simpa using hg'
      exact position_lt hg

section Answers

variable {ε β : Type} (answers : List (Except ε β))

/-- How many of the first `k` calls succeeded. -/
def acceptedIn (k : Nat) : Nat := (answers.take k).countP Except.isOk

/-- How many of the first `k` calls failed. -/
def refusedIn (k : Nat) : Nat := (answers.take k).countP fun r => !r.isOk

theorem acceptedIn_add_refusedIn {k : Nat} (h : k ≤ answers.length) :
    acceptedIn answers k + refusedIn answers k = k := by
  have hlen : (answers.take k).length = k := List.length_take_of_le h
  simpa [acceptedIn, refusedIn, hlen] using
    (List.length_eq_countP_add_countP Except.isOk (l := answers.take k)).symm

theorem acceptedIn_append {k : Nat} (h : k ≤ answers.length) (later : List (Except ε β)) :
    acceptedIn (answers ++ later) k = acceptedIn answers k := by
  rw [acceptedIn, List.take_append_of_le_length h, acceptedIn]

theorem acceptedIn_length : acceptedIn answers answers.length = answers.countP Except.isOk := by
  rw [acceptedIn, List.take_length]

theorem acceptedIn_of_isOk (h : ∀ r ∈ answers, r.isOk) {k : Nat} (hk : k ≤ answers.length) :
    acceptedIn answers k = k := by
  rw [acceptedIn, List.countP_eq_length.mpr fun r hr => h r (List.mem_of_mem_take hr),
    List.length_take_of_le hk]

/-- The count stands still only while every call fails. -/
theorem acceptedIn_eq_iff {j k : Nat} (h : j ≤ k) :
    acceptedIn answers j = acceptedIn answers k ↔
      ∀ r ∈ (answers.take k).drop j, r.isOk = false := by
  have hsplit := (answers.take k).take_append_drop j
  rw [List.take_take, Nat.min_eq_left h] at hsplit
  have hcount : acceptedIn answers k =
      acceptedIn answers j + ((answers.take k).drop j).countP Except.isOk := by
    rw [acceptedIn, acceptedIn, ← List.countP_append, hsplit]
  rw [hcount, Nat.left_eq_add, List.countP_eq_zero]
  simp only [Bool.not_eq_true]

end Answers

namespace Decoder
open Logger (TracesAll)

variable {α : Type} [CanvasAllocator α]

/-- What decoding some records adds to the packets in the trace. -/
theorem packets_decodeAll {d : Decoder α} (h : d.logger.TracesAll) (records : List (List UInt8)) :
    (d.decodeAll records).2.logger.TracesAll ∧
      (d.decodeAll records).2.logger.packets = d.logger.packets ++
        (graphicsIn records).map fun g => g.packet.tracedUnder
          (d.packetsDecoded + .ofNat (acceptedIn (d.decodeAll records).1 g.position)) := by
  induction records using List.reverseRecOn with
  | nil => exact ⟨h, (List.append_nil _).symm⟩
  | append_singleton records bytes ih =>
    obtain ⟨hbefore, hpackets⟩ := ih
    obtain ⟨hafter, hadded⟩ := packets_decode hbefore bytes
    have hlen := d.length_decodeAll records
    rw [decodeAll_append]
    refine ⟨hafter, hadded.trans ?_⟩
    rw [hpackets, graphicsIn_snoc, List.map_append, List.append_assoc]
    congr 2
    -- The answer to the last record counts for no packet up to it.
    · refine List.map_congr_left fun g hg => ?_
      rw [acceptedIn_append _ (hlen ▸ (Nat.le_of_lt (position_lt hg)))]
    · cases graphicsPacket? bytes with
      | none => rfl
      | some p =>
        simp only [Option.map_some, Option.toList_some, List.map_cons, List.map_nil]
        rw [acceptedIn_append _ (Nat.le_of_eq hlen.symm), ← hlen, acceptedIn_length,
          packetsDecoded_decodeAll]

/-- A decoder whose trace takes up everything and gives nothing up. -/
def tracingAll (d : Decoder α) : Decoder α :=
  d.withLogger fun l => { l.setCapacity 0 with level := .trace, packetTrace := true }

/-- The indices in the trace of a stream are counts of the records accepted. -/
structure CountsAccepted (records : List (List UInt8))
    (answers : List (Except DecodeError (Option Frame))) (traces : List PacketTrace) : Prop where
  /-- Every graphics packet is traced once, under the number of records accepted before it. -/
  traces_eq : traces = (graphicsIn records).map fun g =>
    g.packet.tracedUnder (.ofNat (acceptedIn answers g.position))
  /-- An index falls short of a position by the records refused. -/
  add_refused : ∀ k ≤ records.length, acceptedIn answers k + refusedIn answers k = k
  /-- It repeats while records are refused, and then only. -/
  repeats_iff : ∀ j k, j ≤ k → (acceptedIn answers j = acceptedIn answers k ↔
    ∀ r ∈ (answers.take k).drop j, r.isOk = false)
  /-- As long as no record is refused the indices are the positions. -/
  positions : (∀ r ∈ answers, r.isOk) →
    traces = (graphicsIn records).map fun g => g.packet.tracedUnder (.ofNat g.position)
  increasing : (∀ r ∈ answers, r.isOk) → records.length ≤ UInt64.size →
    traces.Pairwise fun t t' => t.index < t'.index

/-- A packet is traced under the number of records accepted before it. This is its position in the
stream if no record before it was refused, and less if one was. -/
theorem trace_indices_count_accepted {a : α} {stride : Nat} {d : Decoder α}
    (h : withAllocator a stride = .ok d) (records : List (List UInt8)) :
    CountsAccepted records (d.tracingAll.decodeAll records).1
      (d.tracingAll.decodeAll records).2.logger.packets := by
  obtain ⟨hw, a', hd⟩ := eq_of_withAllocator h
  have hall : d.tracingAll.logger.TracesAll := by
    rw [hd]
    exact ⟨rfl, rfl, rfl⟩
  have hnone : d.tracingAll.logger.packets = [] := by
    rw [hd]
    rfl
  have hcount : d.tracingAll.packetsDecoded = 0 := by
    rw [hd]
    rfl
  have hlen := d.tracingAll.length_decodeAll records
  have htraces := (packets_decodeAll hall records).2
  simp only [hnone, hcount, List.nil_append, UInt64.zero_add] at htraces
  have hpositions (hok : ∀ r ∈ (d.tracingAll.decodeAll records).1, r.isOk) :
      (d.tracingAll.decodeAll records).2.logger.packets =
        (graphicsIn records).map fun g => g.packet.tracedUnder (.ofNat g.position) := by
    rw [htraces]
    refine List.map_congr_left fun g hg => ?_
    rw [acceptedIn_of_isOk _ hok (hlen ▸ Nat.le_of_lt (position_lt hg))]
  refine ⟨htraces, fun k hk => acceptedIn_add_refusedIn _ (hlen ▸ hk),
    fun j k hjk => acceptedIn_eq_iff _ hjk, hpositions, fun hok hsize => ?_⟩
  rw [hpositions hok, List.pairwise_map]
  refine (pairwise_position_lt records).imp_of_mem fun {g g'} hg hg' hlt => ?_
  have hg := position_lt hg
  have hg' := position_lt hg'
  exact (UInt64.ofNat_lt_iff_lt (by omega) (by omega)).mpr hlt

/-- A record that is no packet, and then a fill. -/
def stumbling : List (List UInt8) :=
  [[9], (Packet.ofInstruction .memoryPreset rightward).toBytes]

theorem graphicsIn_stumbling :
    graphicsIn stumbling = [⟨1, .ofInstruction .memoryPreset rightward⟩] := rfl

theorem acceptedIn_stumbling :
    acceptedIn ((onHeap .ample).tracingAll.decodeAll stumbling).1 1 = 0 := rfl

/-- The fill is the second record of its stream and is traced as the first. -/
theorem packets_of_stumbling :
    withAllocator (Heap.mk .ample) 300 = .ok (onHeap .ample) ∧
      ((onHeap .ample).tracingAll.decodeAll stumbling).2.logger.packets =
        [(Packet.ofInstruction .memoryPreset rightward).tracedUnder 0] := by
  refine ⟨withAllocator_heap, ?_⟩
  rw [(trace_indices_count_accepted withAllocator_heap stumbling).traces_eq, graphicsIn_stumbling,
    List.map_singleton, acceptedIn_stumbling]
  rfl

/-- So an index is not always a position. -/
theorem trace_indices_miss_positions :
    ¬ ∀ (a : Heap) (stride : Nat) (d : Decoder Heap), withAllocator a stride = .ok d →
      ∀ records, (d.tracingAll.decodeAll records).2.logger.packets =
        (graphicsIn records).map fun g => g.packet.tracedUnder (.ofNat g.position) := by
  intro h
  have hclaimed := h (Heap.mk .ample) 300 (onHeap .ample) withAllocator_heap stumbling
  have hall : (onHeap .ample).tracingAll.logger.TracesAll := ⟨rfl, rfl, rfl⟩
  have htraced := (packets_decodeAll hall stumbling).2
  rw [hclaimed, graphicsIn_stumbling, List.map_singleton, List.map_singleton,
    acceptedIn_stumbling] at htraced
  exact absurd (congrArg (fun l => l.map PacketTrace.index) htraced) (by decide)

end Decoder
end DiscGraphics
