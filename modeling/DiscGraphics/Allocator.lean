import DiscGraphics.Canvas.Basic

/-!
Where a scroll gets its second canvas from, with anything drawn on it. The heap makes a blank one
each time; a pool hands used canvases out again and bounds how many are out at once.
-/
namespace DiscGraphics

/-- A supply of canvases, which an attempt to acquire may change whether it succeeds or not. -/
class CanvasAllocator (α : Type) where
  acquire : α → Nat → Except AllocationError Canvas × α
  release : α → Canvas → α

/-- The supply that makes every canvas anew and drops what it gets back. -/
structure Heap where
  memory : Memory

instance : CanvasAllocator Heap where
  acquire a stride :=
    let (answer, memory) := Canvas.ofStride stride a.memory
    (answer, ⟨memory⟩)
  release a _ := a

/-- A supply that keeps returned canvases. A capacity of zero sets no bound. -/
structure Pool where
  capacity : Nat
  /-- Where canvases that the pool lacks are made. -/
  memory : Memory
  free : List Canvas := []
  live : Nat := 0
  reused : Nat := 0

namespace Pool

def ofCapacity (capacity : Nat) (memory : Memory) : Pool where
  capacity := capacity
  memory := memory

def available (p : Pool) : Nat := p.free.length

/-- Every canvas that the bound allows is out. -/
def Exhausted (p : Pool) : Prop := 0 < p.capacity ∧ p.capacity ≤ p.live

instance (p : Pool) : Decidable p.Exhausted := inferInstanceAs (Decidable (_ ∧ _))

def lastFirst (cs : List Canvas) : List Canvas :=
  match cs.getLast? with
  | some c => c :: cs.dropLast
  | none => []

/-- Take out the first canvas of a stride; the last of the list moves into its place. -/
def takeFirst (stride : Nat) : List Canvas → Option (Canvas × List Canvas)
  | [] => none
  | c :: cs =>
    if c.stride = stride then some (c, lastFirst cs)
    else (takeFirst stride cs).map fun (d, rest) => (d, c :: rest)

/-- The first free canvas of the right stride goes out, or else a blank one. -/
def acquire (p : Pool) (stride : Nat) : Except AllocationError Canvas × Pool :=
  if p.Exhausted then
    (.error (.poolExhausted p.capacity), p)
  else
    match takeFirst stride p.free with
    | some (c, rest) =>
      (.ok c, { p with free := rest, live := p.live + 1, reused := p.reused + 1 })
    | none =>
      match Canvas.ofStride stride p.memory with
      | (.ok c, memory) => (.ok c, { p with memory := memory, live := p.live + 1 })
      | (.error e, memory) => (.error e, { p with memory := memory })

/-- Keep a canvas for later. One that never came from the pool is kept as well. -/
def release (p : Pool) (c : Canvas) : Pool :=
  { p with free := p.free ++ [c], live := p.live - 1 }

theorem stride_of_takeFirst {stride : Nat} {cs rest : List Canvas} {c : Canvas}
    (h : takeFirst stride cs = some (c, rest)) : c.stride = stride := by
  induction cs generalizing rest with
  | nil => cases h
  | cons d cs ih =>
    rw [takeFirst] at h
    split at h
    · cases h
      assumption
    · obtain ⟨p, hp, he⟩ := Option.map_eq_some_iff.mp h
      cases he
      exact ih hp

end Pool

instance : CanvasAllocator Pool where
  acquire := Pool.acquire
  release := Pool.release

end DiscGraphics
