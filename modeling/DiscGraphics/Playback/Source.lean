import DiscGraphics.Files

/-!
A stream of bytes that may come in pieces, cut into records of 24 bytes. However the deliveries are
cut, no byte is lost or read twice.
-/
namespace DiscGraphics

inductive Delivery where
  /-- Up to so many of the bytes asked for. -/
  | atMost (n : Nat)
  /-- Nothing yet: the request is to be repeated. -/
  | interrupted
  | ended
  | failed (text : String)
  deriving DecidableEq, Repr

/-- Bytes to come and how the next requests for them are answered. -/
structure ByteSource where
  script : List Delivery
  bytes : List UInt8
  deriving DecidableEq, Repr

def ByteSource.ofBytes (bytes : List UInt8) : ByteSource := ⟨[], bytes⟩

/-- What reading a source to its end yields: complete records, then a shorter rest, or a failure
that cut the reading off. -/
structure Transcript where
  records : List (List UInt8)
  rest : List UInt8
  failure : Option IoError
  deriving DecidableEq, Repr

namespace ByteSource

/-- Ask for bytes until a record is complete or the stream ends. -/
def fill (filled : List UInt8) : List Delivery → List UInt8 →
    Except IoError (List UInt8 × ByteSource)
  | [], bytes =>
    let room := 24 - filled.length
    .ok (filled ++ bytes.take room, ⟨[], bytes.drop room⟩)
  | d :: script, bytes =>
    if 24 ≤ filled.length then .ok (filled, ⟨d :: script, bytes⟩)
    else
      match d with
      | .interrupted => fill filled script bytes
      | .failed text => .error (.stream text)
      | .ended => .ok (filled, ⟨script, bytes⟩)
      | .atMost n =>
        let n := min n (24 - filled.length)
        match bytes.take n with
        | [] => .ok (filled, ⟨script, bytes⟩)
        | got => fill (filled ++ got) script (bytes.drop n)

/-- Bytes are neither lost nor made up. -/
theorem fill_bytes {filled got : List UInt8} {script : List Delivery} {bytes : List UInt8}
    {s : ByteSource} (h : fill filled script bytes = .ok (got, s)) :
    got ++ s.bytes = filled ++ bytes := by
  induction script generalizing filled bytes with
  | nil =>
    cases h
    simp
  | cons d script ih =>
    simp only [fill] at h
    split at h
    · cases h
      rfl
    · split at h
      · exact ih h
      · cases h
      · cases h
        rfl
      · split at h
        · cases h
          rfl
        · rw [ih h, List.append_assoc, List.take_append_drop]

/-- Everything that reading yields, after the records already read, which are kept last first. -/
def readAll (done : List (List UInt8)) (s : ByteSource) : Transcript :=
  match _h : fill [] s.script s.bytes with
  | .error e => ⟨done.reverse, [], some e⟩
  | .ok (got, rest) =>
    if _hl : got.length = 24 then readAll (got :: done) rest
    else ⟨done.reverse, got, none⟩
termination_by s.bytes.length
decreasing_by
  have := congrArg List.length (fill_bytes (by assumption))
  simp only [List.length_append, List.length_nil] at this
  omega

def transcript (s : ByteSource) : Transcript := s.readAll []

end ByteSource
end DiscGraphics
