/-! The memory of a host, which may grant a buffer at one time and refuse it at another. -/
namespace DiscGraphics

/-- How a host answers requests for buffers, each told by its size in bytes. -/
structure Memory where
  /-- The answers to the next requests, one after the other. -/
  next : List (Nat → Bool) := []
  /-- The answer to every request after those. -/
  later : Nat → Bool

namespace Memory

/-- A host that grants every buffer up to a size. -/
def upTo (bytes : Nat) : Memory where
  later n := decide (n ≤ bytes)

/-- The largest buffer that there can be. -/
def largestBuffer : Nat := UInt64.size / 2 - 1

/-- A host that grants every buffer there can be. -/
def ample : Memory := upTo largestBuffer

/-- Ask for a buffer. The host is not troubled with one that is larger than any. -/
def reserve (m : Memory) (bytes : Nat) : Bool × Memory :=
  if bytes ≤ largestBuffer then (m.next.headD m.later bytes, { m with next := m.next.tail })
  else (false, m)

/-- Whether buffers of a size are granted whenever they are asked for. -/
structure Lends (m : Memory) (bytes : Nat) : Prop where
  size_le : bytes ≤ largestBuffer
  next : ∀ grants ∈ m.next, grants bytes = true
  later : m.later bytes = true

/-- Whether requests of one size are all answered alike. -/
def Settled (m : Memory) : Prop := m.next = []

theorem Lends.granted {m : Memory} {bytes : Nat} (h : m.Lends bytes) :
    (m.reserve bytes).1 = true := by
  obtain ⟨next, later⟩ := m
  rw [reserve, if_pos h.size_le]
  cases next with
  | nil => exact h.later
  | cons grants rest => exact h.next grants List.mem_cons_self

/-- What is lent at any time is lent after any request as well. -/
theorem Lends.reserve {m : Memory} {bytes : Nat} (h : m.Lends bytes) (n : Nat) :
    (m.reserve n).2.Lends bytes := by
  unfold Memory.reserve
  split
  · exact ⟨h.size_le, fun grants hg => h.next grants (List.mem_of_mem_tail hg), h.later⟩
  · exact h

theorem lends_ample {bytes : Nat} (h : bytes ≤ largestBuffer) : ample.Lends bytes :=
  ⟨h, nofun, decide_eq_true h⟩

/-- Asking a settled host changes nothing. -/
theorem Settled.reserve {m : Memory} (h : m.Settled) (bytes : Nat) : (m.reserve bytes).2 = m := by
  obtain ⟨next, later⟩ := m
  cases (h : next = [])
  unfold Memory.reserve
  split <;> rfl

end Memory
end DiscGraphics
