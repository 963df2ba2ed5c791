import DiscGraphics.Instruction

/-! Counts of what a stream held. -/
namespace DiscGraphics

abbrev Tally := List (UInt8 × Nat)

namespace Tally

def add (code : UInt8) (n : Nat) : Tally → Tally
  | [] => [(code, n)]
  | (c, k) :: rest => if c = code then (c, k + n) :: rest else (c, k) :: add code n rest

def count (code : UInt8) : Tally → Nat
  | [] => 0
  | (c, k) :: rest => if c = code then k else count code rest

def total : Tally → Nat
  | [] => 0
  | (_, k) :: rest => k + total rest

def merge (t : Tally) (other : Tally) : Tally := other.foldl (fun t e => add e.1 e.2 t) t

@[simp] theorem count_add (code other : UInt8) (n : Nat) (t : Tally) :
    count other (add code n t) = count other t + if other = code then n else 0 := by
  induction t with
  | nil => grind [add, count]
  | cons e t ih =>
    obtain ⟨c, k⟩ := e
    grind [add, count]

@[simp] theorem total_add (code : UInt8) (n : Nat) (t : Tally) :
    total (add code n t) = total t + n := by
  induction t with
  | nil => simp [add, total]
  | cons e t ih =>
    obtain ⟨c, k⟩ := e
    simp only [add]
    split <;> simp only [total] <;> omega

end Tally

/-- Counts collected while a stream was played. -/
structure PlaybackStats where
  packets : Nat := 0
  frames : Nat := 0
  /-- Records that were no graphics packets. -/
  ignored : Nat := 0
  /-- Rests too short for a record. -/
  malformed : Nat := 0
  /-- Graphics packets by the code of their instruction. -/
  instructions : Tally := []
  deriving DecidableEq, Repr, Inhabited

namespace PlaybackStats

/-- How many graphics packets carried an instruction. -/
def count (s : PlaybackStats) (i : Instruction) : Nat := s.instructions.count i.code

def merge (s other : PlaybackStats) : PlaybackStats where
  packets := s.packets + other.packets
  frames := s.frames + other.frames
  ignored := s.ignored + other.ignored
  malformed := s.malformed + other.malformed
  instructions := s.instructions.merge other.instructions

end PlaybackStats
end DiscGraphics
