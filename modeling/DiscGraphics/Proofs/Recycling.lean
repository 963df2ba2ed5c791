import DiscGraphics.Proofs.Entry
import DiscGraphics.Proofs.Invariant

/-!
A pool under a decoder. One that may lend two canvases always has one for a scroll, and one that may
lend only one refuses every scroll that moves the picture, and nothing else.
-/
namespace DiscGraphics
open CanvasAllocator (acquire release)

namespace Pool

/-- A pool with one canvas out, after `n` scrolls have swapped canvases of one stride. -/
structure Turning (stride capacity n : Nat) (p : Pool) : Prop where
  capacity : p.capacity = capacity
  live : p.live = 1
  available : p.available = min n 1
  reused : p.reused = n - 1
  lends : p.memory.Lends (stride * height)
  stride : ∀ c ∈ p.free, c.stride = stride

variable {stride capacity n : Nat} {p : Pool}

/-- The only canvas that a pool may lend is out. -/
theorem Turning.refuses (h : p.Turning stride 1 n) :
    acquire p stride = (.error (.poolExhausted 1), p) := by
  have hfull : p.Exhausted := by
    rw [Exhausted, h.capacity, h.live]
    decide
  change p.acquire stride = _
  rw [Pool.acquire, if_pos hfull, h.capacity]

/-- A pool that may lend two canvases has one, and takes back another. -/
theorem Turning.swaps (h : p.Turning stride capacity n) (hcapacity : capacity ≠ 1)
    (hw : width ≤ stride) :
    ∃ next q, acquire p stride = (.ok next, q) ∧ next.stride = stride ∧
      ∀ c : Canvas, c.stride = stride → (release q c).Turning stride capacity (n + 1) := by
  obtain ⟨hcap, hlive, havailable, hreused, hlends, hstride⟩ := h
  have hroom : ¬ p.Exhausted := by
    rw [Exhausted, hcap, hlive]
    omega
  have hacquire : acquire p stride = p.acquire stride := rfl
  rw [hacquire, Pool.acquire, if_neg hroom]
  obtain ⟨cap, memory, free, live, reused⟩ := p
  cases hcap
  cases hlive
  cases hreused
  change free.length = min n 1 at havailable
  cases free with
  | nil =>
    have hnone : takeFirst stride [] = none := rfl
    simp only [hnone, Canvas.ofStride_eq_ok hw hlends]
    refine ⟨_, _, rfl, rfl, fun c hc => ⟨rfl, rfl, ?_, ?_, hlends.reserve _, ?_⟩⟩
    · exact (Nat.min_eq_right (Nat.le_add_left 1 n)).symm
    · rw [List.length_nil] at havailable
      change n - 1 = n + 1 - 1
      omega
    · intro k hk
      rw [List.mem_singleton.mp hk, hc]
  | cons k rest =>
    rw [List.length_cons] at havailable
    have hrest : rest = [] := List.length_eq_zero_iff.mp (by omega)
    subst hrest
    have hk : k.stride = stride := hstride k (List.mem_singleton_self k)
    have htake : takeFirst stride [k] = some (k, []) := if_pos hk
    simp only [htake]
    refine ⟨k, _, rfl, hk, fun c hc => ⟨rfl, rfl, ?_, ?_, hlends, ?_⟩⟩
    · exact (Nat.min_eq_right (Nat.le_add_left 1 n)).symm
    · rw [List.length_nil] at havailable
      change n - 1 + 1 = n + 1 - 1
      omega
    · intro j hj
      rw [List.mem_singleton.mp hj, hc]

end Pool

namespace Decoder

section

variable {α : Type} [CanvasAllocator α]

/-- How many of some records move the picture when they are decoded in order, and are not
refused. -/
def swapCount (d : Decoder α) : List (List UInt8) → Nat
  | [] => 0
  | bytes :: rest =>
    (if (Entry.record bytes).moves d.canvas ∧ (d.decode bytes).1.isOk then 1 else 0) +
      (d.decode bytes).2.swapCount rest

end

/-- A decoder of a given stride on a pool that has one canvas out. -/
structure Turning (stride capacity n : Nat) (d : Decoder Pool) : Prop where
  rows : d.canvas.stride = stride
  pool : d.allocator.Turning stride capacity n

variable {stride capacity n : Nat} {d : Decoder Pool}

theorem Turning.width_le (h : d.Turning stride capacity n) : width ≤ stride :=
  h.rows ▸ d.canvas.width_le_stride

/-- A pool of one canvas grants no scroll that moves the picture, any other pool grants all of them,
and other records do not ask. -/
theorem Turning.executes (h : d.Turning stride capacity n) {i : Instruction} {data : Payload}
    {x : Except DecodeError Unit} {c : Canvas} {p : Pool}
    (hx : Executes d.canvas d.allocator i data x c p) :
    if ¬ d.canvas.Moves i data then x = .ok () ∧ p.Turning stride capacity n
    else if capacity = 1 then
      x = .error (.bufferAllocationFailure (.poolExhausted 1)) ∧ p.Turning stride capacity n
    else x = .ok () ∧ p.Turning stride capacity (n + 1) := by
  have hw := h.width_le
  obtain ⟨hrows, hpool⟩ := h
  by_cases hmove : d.canvas.Moves i data
  · rw [if_neg (not_not_intro hmove)]
    by_cases hone : capacity = 1
    · subst hone
      have hrefuses := hpool.refuses
      rw [← hrows] at hrefuses
      rw [if_pos rfl]
      obtain ⟨hanswer, -, rfl⟩ := hx.of_refused hmove hrefuses
      exact ⟨hanswer, hpool⟩
    · obtain ⟨next, q, hswaps, hnext, hback⟩ := hpool.swaps hone hw
      rw [← hrows] at hswaps
      rw [if_neg hone]
      obtain ⟨hok, rfl⟩ := hx.of_granted hmove hswaps (hnext.trans hrows.symm)
      exact ⟨hok, hback _ hrows⟩
  · rw [if_pos hmove]
    obtain ⟨hok, -, rfl⟩ := hx.of_stay hmove
    exact ⟨hok, hpool⟩

/-- A record is refused a canvas when the pool has only one and the record moves the picture, and
each record that is granted one turns the pool by one. -/
theorem Turning.decode (h : d.Turning stride capacity n) (bytes : List UInt8) :
    (∀ cause, (d.decode bytes).1 = .error (.bufferAllocationFailure cause) ↔
      capacity = 1 ∧ cause = .poolExhausted 1 ∧ (Entry.record bytes).moves d.canvas) ∧
    (d.decode bytes).2.Turning stride capacity
      (n + if (Entry.record bytes).moves d.canvas ∧ (d.decode bytes).1.isOk then 1 else 0) := by
  have hd := d.decodes bytes
  generalize (d.decode bytes).1 = r, (d.decode bytes).2 = d' at hd ⊢
  cases hd with
  | malformed l hlen =>
    rw [Entry.moves_malformed hlen]
    exact ⟨fun cause => by simp, h.rows, h.pool⟩
  | skipped hp hg =>
    rw [Entry.moves_record hp, hg]
    exact ⟨fun cause => by simp, h.rows, h.pool⟩
  | failed l hp hg hx =>
    have hrows := hx.stride.trans h.rows
    have hone := h.executes hx
    rw [Entry.moves_record hp, hg]
    split at hone
    · cases hone.1
    · next hmove =>
      rw [Decidable.not_not] at hmove
      split at hone
      · next hcapacity =>
        cases hone.1
        refine ⟨fun cause => ?_, hrows, ?_⟩
        · simp [hcapacity, hmove, eq_comm]
        · simpa using hone.2
      · cases hone.1
  | shown l hp hg hx =>
    have hrows := hx.stride.trans h.rows
    have hone := h.executes hx
    rw [Entry.moves_record hp, hg]
    split at hone
    · next hstay =>
      refine ⟨fun cause => by simp [hstay], hrows, ?_⟩
      simpa [hstay] using hone.2
    · next hmove =>
      rw [Decidable.not_not] at hmove
      split at hone
      · cases hone.1
      · next hcapacity =>
        refine ⟨fun cause => by simp [hcapacity], hrows, ?_⟩
        simpa [hmove] using hone.2

theorem Turning.decodeAll (h : d.Turning stride capacity n) (records : List (List UInt8)) :
    (d.decodeAll records).2.Turning stride capacity (n + d.swapCount records) := by
  induction records generalizing d n with
  | nil => exact h
  | cons bytes rest ih =>
    have hnext := ih (h.decode bytes).2
    rw [Nat.add_assoc] at hnext
    exact hnext

/-- A new decoder has one canvas of its pool out. -/
theorem turning_of_withAllocator {memory : Memory} (hw : width ≤ stride)
    (hm : memory.Lends (stride * height)) (capacity : Nat) :
    ∃ d, withAllocator (Pool.ofCapacity capacity memory) stride = .ok d ∧
      d.Turning stride capacity 0 := by
  have hroom : ¬ (Pool.ofCapacity capacity memory).Exhausted := by
    rintro ⟨hpos, hle⟩
    exact absurd hpos (Nat.not_lt.mpr hle)
  let lending : Pool :=
    { Pool.ofCapacity capacity (memory.reserve (stride * height)).2 with live := 1 }
  have hacquire : acquire (Pool.ofCapacity capacity memory) stride =
      (.ok (.blank stride hw), lending) := by
    change Pool.acquire _ _ = _
    have hnone : Pool.takeFirst stride (Pool.ofCapacity capacity memory).free = none := rfl
    have hmade : Canvas.ofStride stride (Pool.ofCapacity capacity memory).memory = _ :=
      Canvas.ofStride_eq_ok hw hm
    rw [Pool.acquire, if_neg hroom]
    simp only [hnone, hmade]
    rfl
  refine ⟨⟨(Canvas.blank stride hw).reset, lending, .silent, 0⟩, ?_, rfl, ?_⟩
  · rw [withAllocator, if_neg (Nat.not_lt.mpr hw), hacquire]
    exact if_pos rfl
  · exact ⟨rfl, rfl, rfl, rfl, hm.reserve _, fun c hc => (List.not_mem_nil hc).elim⟩

/-- A decoder on a pool without a bound, or with a bound of two canvases or more, is never refused a
canvas; on a pool of one canvas it is refused exactly the scrolls that move the picture. After any
records one canvas is out, and the pool keeps one and has used it again for all scrolls but the
first. -/
theorem two_canvases_suffice {memory : Memory} (hw : width ≤ stride)
    (hm : memory.Lends (stride * height)) (capacity : Nat) :
    ∃ d, withAllocator (Pool.ofCapacity capacity memory) stride = .ok d ∧
      ∀ records : List (List UInt8),
        let later := (d.decodeAll records).2
        later.allocator.live = 1 ∧
          later.allocator.available = min (d.swapCount records) 1 ∧
          later.allocator.reused = d.swapCount records - 1 ∧
          ∀ bytes,
            (capacity = 0 ∨ 2 ≤ capacity →
              ∀ cause, (later.decode bytes).1 ≠ .error (.bufferAllocationFailure cause)) ∧
            (capacity = 1 → ∀ cause,
              (later.decode bytes).1 = .error (.bufferAllocationFailure cause) ↔
                cause = .poolExhausted 1 ∧ (Entry.record bytes).moves later.canvas) := by
  obtain ⟨d, hd, hstart⟩ := turning_of_withAllocator hw hm capacity
  refine ⟨d, hd, fun records => ?_⟩
  have hlater := hstart.decodeAll records
  rw [Nat.zero_add] at hlater
  refine ⟨hlater.pool.live, hlater.pool.available, hlater.pool.reused, fun bytes => ?_⟩
  obtain ⟨hrefused, -⟩ := hlater.decode bytes
  constructor
  · intro hcapacity cause h
    have hone := ((hrefused cause).mp h).1
    omega
  · intro hcapacity cause
    rw [hrefused]
    exact ⟨And.right, And.intro hcapacity⟩

/-- The one canvas of the pool is on show, so the first scroll is refused. -/
theorem single_canvas_refused :
    ∃ d, withAllocator (Pool.ofCapacity 1 .ample) 300 = .ok d ∧ d.allocator.live = 1 ∧
      d.allocator.reused = 0 ∧
      (d.decode rightScroll.toBytes).1 = .error (.bufferAllocationFailure (.poolExhausted 1)) := by
  obtain ⟨d, hd, hafter⟩ :=
    two_canvases_suffice (show width ≤ 300 by decide) (Memory.lends_ample (by decide)) 1
  obtain ⟨hlive, -, hreused, hrecord⟩ := hafter []
  obtain ⟨hw, hblank⟩ := canvas_of_withAllocator hd
  have hmoves : (Entry.record rightScroll.toBytes).moves d.canvas := by
    have hmove : d.canvas.Moves .scrollCopy rightward := by
      rw [hblank]
      exact ⟨rfl, rfl⟩
    rw [Entry.moves_record parse_rightScroll]
    exact decide_eq_true hmove
  exact ⟨d, hd, hlive, hreused, ((hrecord _).2 rfl _).mpr ⟨rfl, hmoves⟩⟩

end Decoder
end DiscGraphics
