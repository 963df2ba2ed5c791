import DiscGraphics.Proofs.Custody
import DiscGraphics.Proofs.Recycling
import DiscGraphics.Proofs.Transcript

/-!
Starting over on a used pool. Whatever canvases a reset leaves in it, the pool goes on to grant and
refuse the same scrolls as a new one.
-/
namespace DiscGraphics
open CanvasAllocator (InStep)

/-- Two pools of one capacity that have one canvas out each, whatever they lent before. -/
def Pool.BothTurning (stride capacity : Nat) (p q : Pool) : Prop :=
  ∃ n m, p.Turning stride capacity n ∧ q.Turning stride capacity m

/-- How often a pool was turned does not show in what it grants. -/
theorem Pool.inStep_bothTurning {stride : Nat} (hw : width ≤ stride) (capacity : Nat) :
    InStep stride stride (BothTurning stride capacity) := by
  rintro p q ⟨n, m, hp, hq⟩
  by_cases hone : capacity = 1
  · subst hone
    exact .refused hp.refuses hq.refuses ⟨n, m, hp, hq⟩
  · obtain ⟨c, p', hc, hcs, hp'⟩ := hp.swaps hone hw
    obtain ⟨k, q', hk, hks, hq'⟩ := hq.swaps hone hw
    refine .granted hc hk hcs hks ?_
    intro c' k' hc' hk'
    exact ⟨n + 1, m + 1, hp' c' hc', hq' k' hk'⟩

namespace Decoder

/-- What a decoder can be put through: an operation, or any change to its canvas by hand that keeps
the length of the rows. -/
inductive Deed where
  | operate (op : Operation)
  | edit (f : Canvas → Canvas) (rows : ∀ c, (f c).stride = c.stride)

def undergo {α : Type} [CanvasAllocator α] (d : Decoder α) : Deed → Decoder α
  | .operate op => d.operate op
  | .edit f _ => d.withCanvas f

variable {stride capacity n : Nat} {d : Decoder Pool}

theorem Turning.execute (h : d.Turning stride capacity n) (i : Instruction) (data : Payload) :
    ∃ m, (d.execute i data).2.Turning stride capacity m := by
  have hx := d.executes i data
  have hrows := hx.stride.trans h.rows
  have hpool := h.executes hx
  split at hpool
  · exact ⟨n, hrows, hpool.2⟩
  · split at hpool
    · exact ⟨n, hrows, hpool.2⟩
    · exact ⟨n + 1, hrows, hpool.2⟩

theorem Turning.operate (h : d.Turning stride capacity n) (op : Operation) :
    ∃ m, (d.operate op).Turning stride capacity m := by
  cases hop : op.instruction? with
  | none =>
    obtain ⟨hs, ha⟩ := d.operate_of_none hop
    exact ⟨n, hs.trans h.rows, ha ▸ h.pool⟩
  | some call =>
    obtain ⟨hs, ha⟩ := d.operate_of_some hop
    obtain ⟨m, hm⟩ := h.execute call.1 call.2
    exact ⟨m, hs.trans hm.rows, ha ▸ hm.pool⟩

/-- Whatever a decoder is put through, its pool has one canvas out. -/
theorem Turning.undergo (h : d.Turning stride capacity n) (deeds : List Deed) :
    ∃ m, (deeds.foldl Decoder.undergo d).Turning stride capacity m := by
  induction deeds generalizing d n with
  | nil => exact ⟨n, h⟩
  | cons deed rest ih =>
    cases deed with
    | operate op =>
      obtain ⟨m, hm⟩ := h.operate op
      exact ih hm
    | edit f rows => exact ih ⟨(rows _).trans h.rows, h.pool⟩

/-- After a reset a decoder cannot be told from a new one on a new pool, whatever it was put through
before: the same records get the same answers, errors included, and show the same. -/
theorem transcript_reset {memory memory' : Memory} (hw : width ≤ stride)
    (hm : memory.Lends (stride * height)) (hm' : memory'.Lends (stride * height))
    (capacity : Nat) :
    ∃ d e, withAllocator (Pool.ofCapacity capacity memory) stride = .ok d ∧
      withAllocator (Pool.ofCapacity capacity memory') stride = .ok e ∧
      ∀ (deeds : List Deed) (records : List (List UInt8)),
        (deeds.foldl undergo d).reset.transcript records = e.transcript records := by
  obtain ⟨d, hd, hstart⟩ := turning_of_withAllocator hw hm capacity
  obtain ⟨e, he, hnew⟩ := turning_of_withAllocator hw hm' capacity
  refine ⟨d, e, hd, he, ?_⟩
  intro deeds records
  obtain ⟨_, hblank⟩ := canvas_of_withAllocator he
  obtain ⟨n, hused⟩ := hstart.undergo deeds
  have hmirrors : Mirrors stride stride (Pool.BothTurning stride capacity)
      (deeds.foldl undergo d).reset e := by
    refine ⟨?_, hused.rows, hnew.rows, n, 0, hused.pool, hnew.pool⟩
    rw [hblank]
    exact .blank _ hw
  have hcount : (deeds.foldl undergo d).reset.packetsDecoded = e.packetsDecoded := by
    rw [packetsDecoded_of_withAllocator he]
    rfl
  exact hmirrors.transcript_eq (Pool.inStep_bothTurning hw capacity) hcount records

/-- A scroll swaps canvases, a scribble dirties the one on show, a snapshot is restored over it, and
another scroll leaves all of that in the pool. -/
theorem transcript_reset_of_scribble :
    ∃ d e, withAllocator (Pool.ofCapacity 2 .ample) 300 = .ok d ∧
      withAllocator (Pool.ofCapacity 2 (.upTo 64800)) 300 = .ok e ∧
      let deeds := [.operate (.enter (.record rightScroll.toBytes)),
        .edit (Canvas.mapBytes fun i _ => UInt8.ofNat i) fun _ => rfl,
        .operate (.restore Snapshot.loudSnapshot),
        .operate (.enter (.instruction .scrollCopy rightward))]
      (deeds.foldl undergo d).reset.transcript [rightScroll.toBytes, [9], rightScroll.toBytes] =
        e.transcript [rightScroll.toBytes, [9], rightScroll.toBytes] := by
  have hlends : (Memory.upTo 64800).Lends (300 * height) :=
    ⟨by decide, nofun, decide_eq_true (Nat.le_refl 64800)⟩
  obtain ⟨d, e, hd, he, hreset⟩ :=
    transcript_reset (show width ≤ 300 by decide) (Memory.lends_ample (by decide)) hlends 2
  exact ⟨d, e, hd, he, hreset _ _⟩

end Decoder
end DiscGraphics
