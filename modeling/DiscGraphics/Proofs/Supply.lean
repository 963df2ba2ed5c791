import DiscGraphics.Allocator

/-!
Supplies that never run dry. The heap and a pool without a bound supply every stride whose buffers
the host lends.
-/
namespace DiscGraphics
namespace CanvasAllocator

variable {α : Type} [CanvasAllocator α] {stride : Nat} {a b : α}

/-- The states a supply comes to while canvases of one stride are asked for and given back. -/
inductive Reaches (stride : Nat) (a : α) : α → Prop where
  | start : Reaches stride a a
  | acquire {b : α} : Reaches stride a b → Reaches stride a (CanvasAllocator.acquire b stride).2
  | release {b : α} {c : Canvas} : Reaches stride a b → c.stride = stride →
      Reaches stride a (CanvasAllocator.release b c)

/-- Whenever it is asked for a canvas of this stride, the supply has one. -/
def Supplies (stride : Nat) (a : α) : Prop :=
  ∀ b, Reaches stride a b → ∃ c, (CanvasAllocator.acquire b stride).1 = .ok c ∧ c.stride = stride

theorem Reaches.trans {c : α} (h : Reaches stride a b) (h' : Reaches stride b c) :
    Reaches stride a c := by
  induction h' with
  | start => exact h
  | acquire _ ih => exact ih.acquire
  | release _ hc ih => exact ih.release hc

/-- A supply that never runs dry gives a canvas and stays one. -/
theorem Supplies.acquire (h : Supplies stride a) :
    ∃ c a', CanvasAllocator.acquire a stride = (.ok c, a') ∧ c.stride = stride ∧
      Supplies stride a' := by
  obtain ⟨c, hc, hs⟩ := h a .start
  refine ⟨c, (CanvasAllocator.acquire a stride).2, Prod.ext hc rfl, hs, ?_⟩
  intro b hb
  exact h b ((Reaches.acquire .start).trans hb)

theorem Supplies.release (h : Supplies stride a) {c : Canvas} (hc : c.stride = stride) :
    Supplies stride (CanvasAllocator.release a c) := by
  intro b hb
  exact h b ((Reaches.release .start hc).trans hb)

/-- It is enough to find a property of the supply that grants every request and outlives it. -/
theorem supplies_of_invariant (P : α → Prop) (ha : P a)
    (hacquire : ∀ b, P b → ∃ c b', CanvasAllocator.acquire b stride = (.ok c, b') ∧
      c.stride = stride ∧ P b')
    (hrelease : ∀ b c, P b → P (CanvasAllocator.release b c)) : Supplies stride a := by
  intro b hb
  have hP : P b := by
    induction hb with
    | start => exact ha
    | acquire _ ih =>
      obtain ⟨c, b', he, _, hb'⟩ := hacquire _ ih
      rw [he]
      exact hb'
    | release _ _ ih => exact hrelease _ _ ih
  obtain ⟨c, b', he, hs, _⟩ := hacquire b hP
  exact ⟨c, by rw [he], hs⟩

section Step

variable {β : Type} [CanvasAllocator β] {t : Nat}

/-- Two supplies give one answer when the first is asked for rows of `s` bytes and the second for
rows of `t` bytes, and whatever canvases then go back, `R` relates what they have become. -/
inductive AnswerAlike (s t : Nat) (R : α → β → Prop) (a : α) (b : β) : Prop where
  | refused {e : AllocationError} {a' : α} {b' : β} :
      CanvasAllocator.acquire a s = (.error e, a') →
      CanvasAllocator.acquire b t = (.error e, b') → R a' b' → AnswerAlike s t R a b
  | granted {c k : Canvas} {a' : α} {b' : β} :
      CanvasAllocator.acquire a s = (.ok c, a') → CanvasAllocator.acquire b t = (.ok k, b') →
      c.stride = s → k.stride = t →
      (∀ c' k' : Canvas, c'.stride = s → k'.stride = t →
        R (CanvasAllocator.release a' c') (CanvasAllocator.release b' k')) →
      AnswerAlike s t R a b

/-- Supplies that are related give one answer, and stay related. -/
def InStep (s t : Nat) (R : α → β → Prop) : Prop := ∀ {a : α} {b : β}, R a b → AnswerAlike s t R a b

/-- Supplies that never run dry grant everything. -/
theorem inStep_supplies (s t : Nat) :
    InStep s t fun (a : α) (b : β) => Supplies s a ∧ Supplies t b := by
  rintro a b ⟨ha, hb⟩
  obtain ⟨c, a', hc, hcs, ha'⟩ := ha.acquire
  obtain ⟨k, b', hk, hkt, hb'⟩ := hb.acquire
  refine .granted hc hk hcs hkt ?_
  intro c' k' hc' hk'
  exact ⟨ha'.release hc', hb'.release hk'⟩

end Step

end CanvasAllocator

open CanvasAllocator

theorem Heap.supplies {stride : Nat} (h : width ≤ stride) {a : Heap}
    (ha : a.memory.Lends (stride * height)) : Supplies stride a := by
  refine supplies_of_invariant (fun a => a.memory.Lends (stride * height)) ha ?_ fun _ _ hb => hb
  intro b hb
  have hacquire : CanvasAllocator.acquire b stride =
      (.ok (Canvas.blank stride h), ⟨(b.memory.reserve (stride * height)).2⟩) := by
    change ((Canvas.ofStride stride b.memory).1, Heap.mk (Canvas.ofStride stride b.memory).2) = _
    rw [Canvas.ofStride_eq_ok h hb]
  exact ⟨_, _, hacquire, rfl, hb.reserve _⟩

/-- A pool without a bound hands out a free canvas of the stride, or else a blank one. -/
theorem Pool.supplies {stride : Nat} (h : width ≤ stride) {p : Pool} (hp : p.capacity = 0)
    (hm : p.memory.Lends (stride * height)) : Supplies stride p := by
  refine supplies_of_invariant
    (fun p => p.capacity = 0 ∧ p.memory.Lends (stride * height)) ⟨hp, hm⟩ ?_ fun _ _ hq => hq
  intro q hq
  have hfree : ¬ q.Exhausted := by
    intro he
    have := he.1
    omega
  have he : CanvasAllocator.acquire q stride = q.acquire stride := rfl
  rw [he, acquire, if_neg hfree]
  split
  · next c rest ht => exact ⟨c, _, rfl, stride_of_takeFirst ht, hq⟩
  · rw [Canvas.ofStride_eq_ok h hq.2]
    exact ⟨_, _, rfl, rfl, hq.1, hq.2.reserve _⟩

end DiscGraphics
