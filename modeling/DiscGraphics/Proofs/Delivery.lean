import DiscGraphics.Playback.Source

/-!
How a stream is cut into deliveries does not matter. A source that trickles, in whatever pieces and
however often interrupted, yields its bytes 24 by 24 and then what is left over.
-/
namespace DiscGraphics

/-- The complete records of some bytes. -/
def wholeRecords (bytes : List UInt8) : List (List UInt8) :=
  (List.range (bytes.length / 24)).map fun k => (bytes.drop (24 * k)).take 24

/-- The bytes after the last complete record. -/
def leftover (bytes : List UInt8) : List UInt8 := bytes.drop (24 * (bytes.length / 24))

theorem length_wholeRecords (bytes : List UInt8) :
    (wholeRecords bytes).length = bytes.length / 24 := by
  rw [wholeRecords, List.length_map, List.length_range]

theorem length_of_mem_wholeRecords {bytes r : List UInt8} (h : r ∈ wholeRecords bytes) :
    r.length = 24 := by
  obtain ⟨k, hk, rfl⟩ := List.mem_map.mp h
  have hlt := List.mem_range.mp hk
  rw [List.length_take, List.length_drop]
  omega

theorem length_leftover (bytes : List UInt8) : (leftover bytes).length = bytes.length % 24 := by
  rw [leftover, List.length_drop]
  omega

theorem wholeRecords_of_lt {bytes : List UInt8} (h : bytes.length < 24) :
    wholeRecords bytes = [] := by
  rw [wholeRecords, Nat.div_eq_of_lt h]
  rfl

theorem leftover_of_lt {bytes : List UInt8} (h : bytes.length < 24) : leftover bytes = bytes := by
  rw [leftover, Nat.div_eq_of_lt h]
  rfl

theorem length_div_drop {bytes : List UInt8} (h : 24 ≤ bytes.length) :
    bytes.length / 24 = (bytes.drop 24).length / 24 + 1 := by
  rw [List.length_drop]
  omega

theorem wholeRecords_of_le {bytes : List UInt8} (h : 24 ≤ bytes.length) :
    wholeRecords bytes = bytes.take 24 :: wholeRecords (bytes.drop 24) := by
  rw [wholeRecords, length_div_drop h, List.range_succ_eq_map, List.map_cons, List.map_map,
    wholeRecords]
  congr 1
  apply List.map_congr_left
  intro k _
  rw [Function.comp_apply, List.drop_drop, Nat.succ_eq_add_one, Nat.mul_add, Nat.add_comm]

theorem leftover_of_le {bytes : List UInt8} (h : 24 ≤ bytes.length) :
    leftover bytes = leftover (bytes.drop 24) := by
  rw [leftover, leftover, length_div_drop h, List.drop_drop]
  congr 1
  omega

namespace ByteSource

/-- Every answer of the script is a byte or more, or a plea to repeat the request, as long as there
are bytes. The next request asks for `room` of them, and the one that completes a record is followed
by a request for a whole one. -/
def TricklesFrom (room : Nat) : List Delivery → List UInt8 → Prop
  | [], _ => True
  | .interrupted :: script, bytes => TricklesFrom room script bytes
  | .failed _ :: _, _ => False
  | .ended :: _, bytes => bytes = []
  | .atMost n :: script, bytes =>
    bytes = [] ∨ 0 < n ∧
      TricklesFrom (if n < room then room - n else 24) script (bytes.drop (min n room))

def Trickles (s : ByteSource) : Prop := TricklesFrom 24 s.script s.bytes

/-- Once there are no bytes, it no longer matters how many are asked for. -/
theorem TricklesFrom.of_nil {room : Nat} {script : List Delivery} (h : TricklesFrom room script [])
    (other : Nat) : TricklesFrom other script [] := by
  induction script with
  | nil => trivial
  | cons d script ih =>
    cases d with
    | interrupted => exact ih h
    | failed => exact h
    | ended => exact h
    | atMost => exact .inl rfl

theorem fill_full {filled : List UInt8} (h : filled.length = 24) (script : List Delivery)
    (bytes : List UInt8) : fill filled script bytes = .ok (filled, ⟨script, bytes⟩) := by
  cases script with
  | nil => simp [fill, h]
  | cons d script => exact if_pos (Nat.le_of_eq h.symm)

theorem fill_atMost {filled : List UInt8} {room : Nat} (hroom : filled.length + room = 24)
    (hpos : 0 < room) {n : Nat} (hn : 0 < n) {bytes : List UInt8} (hb : bytes ≠ [])
    (script : List Delivery) :
    fill filled (.atMost n :: script) bytes =
      fill (filled ++ bytes.take (min n room)) script (bytes.drop (min n room)) := by
  have hspace : 24 - filled.length = room := by omega
  have hgot : bytes.take (min n room) ≠ [] := by
    intro h
    rcases List.take_eq_nil_iff.mp h with h | h
    · omega
    · exact hb h
  rw [fill, if_neg (by omega), hspace]
  dsimp only
  split
  · next h => exact absurd h hgot
  · rfl

/-- A trickling source fills a record with the bytes that come next, as far as there are any, and
trickles on. -/
theorem fill_trickles {filled : List UInt8} {room : Nat} (hroom : filled.length + room = 24)
    (hpos : 0 < room) {script : List Delivery} {bytes : List UInt8}
    (h : TricklesFrom room script bytes) :
    ∃ later, fill filled script bytes =
        .ok (filled ++ bytes.take room, ⟨later, bytes.drop room⟩) ∧
      (room ≤ bytes.length → TricklesFrom 24 later (bytes.drop room)) := by
  induction script generalizing filled room bytes with
  | nil =>
    have hspace : 24 - filled.length = room := by omega
    exact ⟨[], by rw [fill, hspace], fun _ => trivial⟩
  | cons d script ih =>
    have hopen : ¬ 24 ≤ filled.length := by omega
    cases d with
    | failed => exact h.elim
    | interrupted =>
      rw [fill, if_neg hopen]
      exact ih hroom hpos h
    | ended =>
      cases (h : bytes = [])
      refine ⟨script, ?_, fun hle => absurd hle (Nat.not_le.mpr hpos)⟩
      rw [fill, if_neg hopen, List.take_nil, List.drop_nil, List.append_nil]
    | atMost n =>
      by_cases hb : bytes = []
      · subst hb
        refine ⟨script, ?_, fun hle => absurd hle (Nat.not_le.mpr hpos)⟩
        rw [fill, if_neg hopen]
        simp
      · obtain ⟨hn, hnext⟩ := h.resolve_left hb
        rw [fill_atMost hroom hpos hn hb]
        by_cases hout : bytes.length < min n room
        · -- The bytes run out in this delivery, so the record stays short.
          have hdrop : bytes.drop (min n room) = [] := List.drop_eq_nil_of_le (by omega)
          rw [hdrop] at hnext ⊢
          rw [List.take_of_length_le (by omega)]
          have hshort : (filled ++ bytes).length + (room - bytes.length) = 24 := by
            rw [List.length_append]
            omega
          obtain ⟨later, hfill, -⟩ := ih hshort (by omega) (hnext.of_nil _)
          refine ⟨later, ?_, fun hle => by omega⟩
          rw [hfill, List.take_nil, List.append_nil, List.drop_nil,
            List.take_of_length_le (by omega), List.drop_eq_nil_of_le (by omega)]
        · have hgot : (bytes.take (min n room)).length = min n room := by
            rw [List.length_take]
            omega
          -- The delivery leaves the record open, or completes it, and then a new one is asked for.
          by_cases hlt : n < room
          · have hmin : min n room = n := by omega
            rw [if_pos hlt] at hnext
            rw [hmin] at hnext hgot hout ⊢
            have hfilled : (filled ++ bytes.take n).length + (room - n) = 24 := by
              rw [List.length_append, hgot]
              omega
            obtain ⟨later, hfill, hlater⟩ := ih hfilled (by omega) hnext
            have hsum : n + (room - n) = room := by omega
            rw [List.drop_drop, hsum] at hfill hlater
            refine ⟨later, ?_, fun hle => hlater (by rw [List.length_drop]; omega)⟩
            rw [hfill, List.append_assoc, ← List.take_add, hsum]
          · have hmin : min n room = room := by omega
            rw [if_neg hlt] at hnext
            rw [hmin] at hnext hgot ⊢
            exact ⟨script, fill_full (by rw [List.length_append, hgot, hroom]) _ _, fun _ => hnext⟩

/-- A record that was read is no longer to come. -/
theorem length_rest_lt {s rest : ByteSource} {got : List UInt8}
    (h : fill [] s.script s.bytes = .ok (got, rest)) (hlen : got.length = 24) :
    rest.bytes.length < s.bytes.length := by
  have hbytes := congrArg List.length (fill_bytes h)
  rw [List.nil_append, List.length_append, hlen] at hbytes
  omega

/-- Records already read come first, whatever is read after them. -/
theorem readAll_eq (done : List (List UInt8)) (s : ByteSource) :
    s.readAll done =
      ⟨done.reverse ++ s.transcript.records, s.transcript.rest, s.transcript.failure⟩ := by
  rw [transcript, readAll, readAll]
  split
  · simp
  · next got rest hgot =>
    split
    · next hlen =>
      have hshort := length_rest_lt hgot hlen
      rw [readAll_eq (got :: done) rest, readAll_eq [got] rest]
      simp
    · simp
termination_by s.bytes.length

theorem transcript_of_error {s : ByteSource} {e : IoError}
    (h : fill [] s.script s.bytes = .error e) : s.transcript = ⟨[], [], some e⟩ := by
  rw [transcript, readAll]
  split
  · next he =>
    rw [h] at he
    cases he
    rfl
  · next he =>
    rw [h] at he
    cases he

theorem transcript_of_fill {s rest : ByteSource} {got : List UInt8}
    (h : fill [] s.script s.bytes = .ok (got, rest)) :
    s.transcript =
      if got.length = 24 then
        ⟨got :: rest.transcript.records, rest.transcript.rest, rest.transcript.failure⟩
      else ⟨[], got, none⟩ := by
  rw [transcript, readAll]
  split
  · next he =>
    rw [h] at he
    cases he
  · next he =>
    rw [h] at he
    cases he
    split
    · rw [readAll_eq]
      rfl
    · rfl

/-- What is left over at the end is never a whole record. -/
theorem length_rest_ne (s : ByteSource) : s.transcript.rest.length ≠ 24 := by
  cases h : fill [] s.script s.bytes with
  | error e =>
    rw [transcript_of_error h, List.length_nil]
    decide
  | ok r =>
    obtain ⟨got, rest⟩ := r
    rw [transcript_of_fill h]
    split
    · next hlen =>
      have hshort := length_rest_lt h hlen
      exact length_rest_ne rest
    · next hlen => exact hlen
termination_by s.bytes.length

/-- Reading a trickling source yields all its records, what is left over, and no failure. -/
theorem transcript_trickles {s : ByteSource} (h : s.Trickles) :
    s.transcript = ⟨wholeRecords s.bytes, leftover s.bytes, none⟩ := by
  have hempty : ([] : List UInt8).length + 24 = 24 := rfl
  obtain ⟨later, hfill, hlater⟩ := fill_trickles hempty (by decide) h
  rw [List.nil_append] at hfill
  rw [transcript_of_fill hfill]
  by_cases hle : 24 ≤ s.bytes.length
  · have hshort : (s.bytes.drop 24).length < s.bytes.length := by
      rw [List.length_drop]
      omega
    rw [if_pos (by rw [List.length_take]; omega),
      transcript_trickles (s := ⟨later, s.bytes.drop 24⟩) (hlater hle), wholeRecords_of_le hle,
      leftover_of_le hle]
  · have hlt : s.bytes.length < 24 := by omega
    rw [if_neg (by rw [List.length_take]; omega), List.take_of_length_le (by omega),
      wholeRecords_of_lt hlt, leftover_of_lt hlt]
termination_by s.bytes.length

theorem trickles_ofBytes (bytes : List UInt8) : (ofBytes bytes).Trickles := trivial

end ByteSource
end DiscGraphics
