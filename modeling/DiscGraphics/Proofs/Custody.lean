import DiscGraphics.Proofs.Ledger
import DiscGraphics.Proofs.Restore

/-!
Who holds which canvas. A decoder holds one canvas of its supply and during a scroll a second one,
and at the end of every call one of the two has gone back.
-/
namespace DiscGraphics
open CanvasAllocator (acquire release)

/-- What the supply sees of an action. -/
def Action.dealing? : Action → Option Dealing
  | .ask stride answer => some (.asked stride answer)
  | .install _ => none
  | .giveBack c => some (.returned c)

/-- The dealings on behalf of a decoder for rows of `stride` bytes that holds so many canvases now,
and never held more than two. -/
structure InCustody (stride : Nat) (held : Int) (ledger : List Dealing) : Prop where
  held : lent ledger = held
  within : ∀ earlier, earlier <+: ledger → 0 ≤ lent earlier ∧ lent earlier ≤ 2
  asked : ∀ n answer, .asked n answer ∈ ledger → n = stride

/-- Dealings that leave a decoder with as many canvases as before, and with at most one more in
between. -/
structure Squared (stride : Nat) (dealings : List Dealing) : Prop where
  even : lent dealings = 0
  within : ∀ earlier, earlier <+: dealings → 0 ≤ lent earlier ∧ lent earlier ≤ 1
  asked : ∀ n answer, .asked n answer ∈ dealings → n = stride

/-- What comes before the end of two lists, one after the other, comes before the end of the first
or goes on into the second. -/
theorem earlier_of_append {xs ys earlier : List Dealing} (h : earlier <+: xs ++ ys) :
    earlier <+: xs ∨ ∃ later, earlier = xs ++ later ∧ later <+: ys := by
  have hcompare := List.prefix_or_prefix_of_prefix h (List.prefix_append xs ys)
  rcases hcompare with hbefore | ⟨later, rfl⟩
  · exact .inl hbefore
  · exact .inr ⟨later, rfl, (List.prefix_append_right_inj xs).mp h⟩

theorem squared_nil (stride : Nat) : Squared stride [] := by
  refine ⟨rfl, fun earlier h => ?_, fun n answer h => (List.not_mem_nil h).elim⟩
  rw [List.prefix_nil.mp h]
  decide

theorem squared_refused (stride : Nat) (e : AllocationError) :
    Squared stride [.asked stride (.error e)] := by
  refine ⟨rfl, fun earlier h => ?_, fun n answer h => ?_⟩
  · rcases List.prefix_cons_iff.mp h with rfl | ⟨rest, rfl, hrest⟩
    · decide
    · rw [List.prefix_nil.mp hrest]
      exact ⟨Int.le_refl 0, Int.zero_le_ofNat 1⟩
  · cases List.mem_singleton.mp h
    rfl

theorem squared_exchange (stride : Nat) (c k : Canvas) :
    Squared stride [.asked stride (.ok c), .returned k] := by
  refine ⟨rfl, fun earlier h => ?_, fun n answer h => ?_⟩
  · rcases List.prefix_cons_iff.mp h with rfl | ⟨rest, rfl, hrest⟩
    · decide
    · rcases List.prefix_cons_iff.mp hrest with rfl | ⟨last, rfl, hlast⟩
      · exact ⟨Int.zero_le_ofNat 1, Int.le_refl 1⟩
      · rw [List.prefix_nil.mp hlast]
        exact ⟨Int.le_refl 0, Int.zero_le_ofNat 1⟩
  · rcases List.mem_cons.mp h with h | h
    · cases h
      rfl
    · cases List.mem_singleton.mp h

theorem InCustody.append {stride : Nat} {xs ys : List Dealing} (hx : InCustody stride 1 xs)
    (hy : Squared stride ys) : InCustody stride 1 (xs ++ ys) := by
  constructor
  · rw [lent_append, hx.held, hy.even]
    rfl
  · intro earlier h
    rcases earlier_of_append h with hbefore | ⟨later, rfl, hlater⟩
    · exact hx.within earlier hbefore
    · have hmore := hy.within later hlater
      rw [lent_append, hx.held]
      omega
  · intro n answer h
    rcases List.mem_append.mp h with h | h
    · exact hx.asked n answer h
    · exact hy.asked n answer h

theorem Snapshot.restoring_of_some {α : Type} {s : Snapshot} {e : SnapshotError}
    (h : s.problem? = some e) (d : Decoder α) : s.restoring d = (.error e, d) := by
  rw [restoring, restore, h]

namespace Decoder

variable {α : Type}

/-- How a decoder begins: without asking, refused, with a canvas that it gives back for its wrong
rows, or with a canvas that it keeps. -/
inductive Opens (stride : Nat) :
    Except (DecodeError × Audited α) (Decoder (Audited α)) → Prop where
  | narrow (a : α) : stride < width →
      Opens stride (.error (.bufferAllocationFailure (.invalidStride stride), ⟨a, []⟩))
  | refused (a : α) (e : AllocationError) :
      Opens stride (.error (.bufferAllocationFailure e, ⟨a, [.asked stride (.error e)]⟩))
  | mismatched (a : α) {c : Canvas} : c.stride ≠ stride →
      Opens stride (.error (.bufferAllocationFailure (.shapeMismatch stride c.stride),
        ⟨a, [.asked stride (.ok c), .returned c]⟩))
  | ready (a : α) {c : Canvas} : c.stride = stride →
      Opens stride (.ok ⟨c.reset, ⟨a, [.asked stride (.ok c)]⟩, .silent, 0⟩)

theorem Opens.custody_of_error {stride : Nat} {e : DecodeError} {a : Audited α}
    (h : Opens stride (.error (e, a))) : InCustody stride 0 a.ledger := by
  have hsquared {dealings : List Dealing} (hd : Squared stride dealings) :
      InCustody stride 0 dealings :=
    ⟨hd.even, fun earlier h => by have := hd.within earlier h; omega, hd.asked⟩
  cases h with
  | narrow => exact hsquared (squared_nil stride)
  | refused => exact hsquared (squared_refused stride _)
  | mismatched => exact hsquared (squared_exchange stride _ _)

theorem Opens.custody_of_ok {stride : Nat} {d : Decoder (Audited α)} (h : Opens stride (.ok d)) :
    InCustody stride 1 d.allocator.ledger ∧ d.canvas.stride = stride := by
  cases h with
  | ready a hs =>
    refine ⟨⟨rfl, fun earlier h => ?_, fun n answer h => ?_⟩, hs⟩
    · rcases List.prefix_cons_iff.mp h with rfl | ⟨rest, rfl, hrest⟩
      · decide
      · rw [List.prefix_nil.mp hrest]
        exact ⟨Int.zero_le_ofNat 1, Int.ofNat_le.mpr (by decide)⟩
    · cases List.mem_singleton.mp h
      rfl

variable [CanvasAllocator α]

theorem opens (a : α) (stride : Nat) : Opens stride (withAllocator (Audited.of a) stride) := by
  unfold withAllocator
  split
  · next hw => exact .narrow a hw
  · have hasked : acquire (Audited.of a) stride = ((acquire a stride).1,
        ⟨(acquire a stride).2, [.asked stride (acquire a stride).1]⟩) := rfl
    rw [hasked]
    obtain ⟨answer, b⟩ := acquire a stride
    cases answer with
    | error e => exact .refused b e
    | ok c =>
      dsimp only
      split
      · next hs => exact .ready b hs
      · next hs => exact .mismatched _ hs

/-- Run an instruction, with all its actions on canvases written down. -/
def recorded (d : Decoder α) (i : Instruction) (data : Payload) :
    Except Fault (List Action × Except DecodeError Unit × Decoder α) :=
  match i.scrollMode? with
  | some mode => d.scrollActing data mode
  | none => (d.perform i data).map fun r => ([], r)

/-- All that an instruction can do with canvases, step by step. A canvas that goes back is either
the one just supplied, if its rows have the wrong length, or the one that was on show; and by then
the other one is drawn to the last pixel and on show. -/
inductive Handles (d : Decoder α) (i : Instruction) (data : Payload) :
    List Action → Canvas → α → Prop where
  | untouched : ¬ d.canvas.Moves i data → Handles d i data [] (d.canvas.draw i data) d.allocator
  | refused {e : AllocationError} {a : α} : d.canvas.Moves i data →
      acquire d.allocator d.canvas.stride = (.error e, a) →
      Handles d i data [.ask d.canvas.stride (.error e)] d.canvas a
  | mismatched {next : Canvas} {a : α} : d.canvas.Moves i data →
      acquire d.allocator d.canvas.stride = (.ok next, a) → next.stride ≠ d.canvas.stride →
      Handles d i data [.ask d.canvas.stride (.ok next), .giveBack next] d.canvas (release a next)
  | replaced {mode : ScrollMode} {next out : Canvas} {a : α} : d.canvas.Moves i data →
      acquire d.allocator d.canvas.stride = (.ok next, a) → next.stride = d.canvas.stride →
      i.scrollMode? = some mode →
      d.canvas.Scrolled next (d.canvas.shiftOf data) (ScrollParams.ofPayload data).color mode out →
      Handles d i data
        [.ask d.canvas.stride (.ok next), .install (out.takeOffset data), .giveBack d.canvas]
        (out.takeOffset data) (release a d.canvas)

theorem handles_scroll (d : Decoder α) (i : Instruction) (data : Payload) {mode : ScrollMode}
    (hi : i.scrollMode? = some mode) :
    ∃ actions r, d.scrollActing data mode = .ok (actions, r) ∧ d.scroll data mode = .ok r ∧
      d.Handles i data actions r.2.canvas r.2.allocator := by
  have hsome : i.scrollMode?.isSome := by rw [hi]; rfl
  suffices h : ∃ actions r, d.scrollActing data mode = .ok (actions, r) ∧
      d.Handles i data actions r.2.canvas r.2.allocator by
    obtain ⟨actions, r, hacting, hhandles⟩ := h
    exact ⟨actions, r, hacting, by rw [scroll, hacting]; rfl, hhandles⟩
  unfold scrollActing
  dsimp only
  split
  · next hz =>
    have hstay : ¬ d.canvas.Moves i data := fun hm => by
      rw [Canvas.Moves, Canvas.shiftOf, hz] at hm
      exact Bool.noConfusion hm.2
    have hdraw : d.canvas.draw i data = d.canvas.takeOffset data := by
      cases i <;> first | rfl | cases hi
    have hhandles := Handles.untouched hstay
    rw [hdraw] at hhandles
    exact ⟨_, _, rfl, hhandles⟩
  · next hz =>
    have hmove : d.canvas.Moves i data := ⟨hsome, Bool.eq_false_iff.mpr hz⟩
    obtain ⟨next, a, ha, hs, he⟩ | ⟨e, a, l, ha, he⟩ | ⟨next, a, l, ha, hs, he⟩ :=
      d.acquireCanvas_cases
    · obtain ⟨hx, hy⟩ := d.canvas.offset.shift_ofPayload data
      obtain ⟨out, hout, hscrolled⟩ := d.canvas.scrollInto_spec next hs.symm
        (Nat.le_trans hx (by decide)) (Nat.le_trans hy (by decide))
        (ScrollParams.ofPayload data).color mode
      rw [he]
      simp only [hout]
      exact ⟨_, _, rfl, .replaced hmove ha hs hi hscrolled⟩
    · rw [he]
      exact ⟨_, _, rfl, .refused hmove ha⟩
    · rw [he]
      exact ⟨_, _, rfl, .mismatched hmove ha hs⟩

/-- Writing the actions down changes nothing. -/
theorem recorded_spec (d : Decoder α) (i : Instruction) (data : Payload) :
    ∃ actions, d.recorded i data = .ok (actions, d.execute i data) ∧
      d.Handles i data actions (d.execute i data).2.canvas (d.execute i data).2.allocator := by
  have hperform := d.perform_eq_ok i data
  unfold recorded
  cases hi : i.scrollMode? with
  | none =>
    have hx := d.executes i data
    have hstay : ¬ d.canvas.Moves i data := Canvas.not_moves hi
    rw [hperform]
    refine ⟨[], rfl, ?_⟩
    generalize d.execute i data = r at hx ⊢
    obtain ⟨x, c, a, l, n⟩ := r
    cases hx with
    | drawn => exact .untouched hstay
    | scrolled _ hmove => exact absurd hmove hstay
    | refused hmove => exact absurd hmove hstay
    | mismatched hmove => exact absurd hmove hstay
  | some mode =>
    obtain ⟨actions, r, hrecorded, hscroll, hhandles⟩ := d.handles_scroll i data hi
    have hsame : d.perform i data = d.scroll data mode := by
      cases i <;> first | (cases hi; rfl) | cases hi
    rw [hperform, hscroll] at hsame
    cases hsame
    exact ⟨actions, hrecorded, hhandles⟩

/-- The actions on canvases of an instruction, in order. -/
def actions (d : Decoder α) (i : Instruction) (data : Payload) : List Action :=
  match d.recorded i data with
  | .ok r => r.1
  | .error _ => []

theorem recorded_eq_ok (d : Decoder α) (i : Instruction) (data : Payload) :
    d.recorded i data = .ok (d.actions i data, d.execute i data) := by
  obtain ⟨actions, h, -⟩ := d.recorded_spec i data
  rw [Decoder.actions, h]

theorem handles (d : Decoder α) (i : Instruction) (data : Payload) :
    d.Handles i data (d.actions i data) (d.execute i data).2.canvas
      (d.execute i data).2.allocator := by
  obtain ⟨actions, h, hhandles⟩ := d.recorded_spec i data
  rw [Decoder.actions, h]
  exact hhandles

theorem Handles.squared {d : Decoder α} {i : Instruction} {data : Payload} {actions : List Action}
    {c : Canvas} {a : α} (h : d.Handles i data actions c a) :
    Squared d.canvas.stride (actions.filterMap Action.dealing?) := by
  cases h with
  | untouched => exact squared_nil _
  | refused => exact squared_refused _ _
  | mismatched => exact squared_exchange _ _ _
  | replaced => exact squared_exchange _ _ _

theorem Handles.untouched_iff {d : Decoder α} {i : Instruction} {data : Payload}
    {actions : List Action} {c : Canvas} {a : α} (h : d.Handles i data actions c a) :
    actions = [] ↔ ¬ d.canvas.Moves i data := by
  cases h <;> simp_all

theorem Handles.ledger {d : Decoder (Audited α)} {i : Instruction} {data : Payload}
    {actions : List Action} {c : Canvas} {a : Audited α} (h : d.Handles i data actions c a) :
    a.ledger = d.allocator.ledger ++ actions.filterMap Action.dealing? := by
  have hasked {answer : Except AllocationError Canvas} {b : Audited α}
      (hb : acquire d.allocator d.canvas.stride = (answer, b)) :
      b.ledger = d.allocator.ledger ++ [.asked d.canvas.stride answer] := by
    cases hb
    rfl
  have hreturned (b : Audited α) (k : Canvas) :
      (release b k).ledger = b.ledger ++ [.returned k] := rfl
  cases h with
  | untouched => exact (List.append_nil _).symm
  | refused _ hacquire => exact hasked hacquire
  | mismatched _ hacquire =>
    rw [hreturned, hasked hacquire, List.append_assoc]
    rfl
  | replaced _ hacquire =>
    rw [hreturned, hasked hacquire, List.append_assoc]
    rfl

/-- Everything that a decoder is called for: an entry, a fresh start, or the state of a snapshot. -/
inductive Operation where
  | enter (e : Entry)
  | reset
  | restore (s : Snapshot)

def operate (d : Decoder α) : Operation → Decoder α
  | .enter e => d.enter e
  | .reset => d.reset
  | .restore s => (s.restoring d).2

/-- The instruction that an operation has run. -/
def Operation.instruction? : Operation → Option (Instruction × Payload)
  | .enter e => e.instruction?
  | .reset | .restore _ => none

/-- The actions on canvases of an operation, in order. -/
def actionsOf (d : Decoder α) (op : Operation) : List Action :=
  match op.instruction? with
  | some (i, data) => d.actions i data
  | none => []

theorem operate_of_some (d : Decoder α) {op : Operation} {i : Instruction} {data : Payload}
    (h : op.instruction? = some (i, data)) :
    (d.operate op).canvas.stride = (d.execute i data).2.canvas.stride ∧
      (d.operate op).allocator = (d.execute i data).2.allocator := by
  cases op with
  | enter e =>
    have hruns := d.runs_of_instruction? h
    refine ⟨?_, hruns.allocator⟩
    rw [operate, hruns.canvas, Entry.settled]
    split <;> rfl
  | reset => cases h
  | restore => cases h

theorem operate_of_none (d : Decoder α) {op : Operation} (h : op.instruction? = none) :
    (d.operate op).canvas.stride = d.canvas.stride ∧
      (d.operate op).allocator = d.allocator := by
  cases op with
  | enter e =>
    obtain ⟨-, hcanvas, hallocator⟩ := d.enter_of_none h
    rw [operate, hcanvas]
    exact ⟨rfl, hallocator⟩
  | reset => exact ⟨rfl, rfl⟩
  | restore s =>
    rw [operate]
    cases hs : s.problem? with
    | some e =>
      rw [Snapshot.restoring_of_some hs]
      exact ⟨rfl, rfl⟩
    | none =>
      rw [Snapshot.restoring_of_none hs]
      exact ⟨(s.restored_into d).stride, (s.restored_into d).allocator⟩

theorem operate_mapSupply {β : Type} [CanvasAllocator β] {f : β → α} (hf : Carries f)
    (d : Decoder β) (op : Operation) :
    (d.mapSupply f).operate op = (d.operate op).mapSupply f := by
  cases op with
  | enter e => exact enter_mapSupply hf d e
  | reset => rfl
  | restore s =>
    rw [operate, operate]
    cases hs : s.problem? with
    | some e => rw [Snapshot.restoring_of_some hs, Snapshot.restoring_of_some hs]
    | none =>
      simp only [Snapshot.restoring_of_none hs, Snapshot.into, mapSupply]

theorem foldl_operate_mapSupply {β : Type} [CanvasAllocator β] {f : β → α} (hf : Carries f)
    (d : Decoder β) (ops : List Operation) :
    ops.foldl operate (d.mapSupply f) = (ops.foldl operate d).mapSupply f := by
  induction ops generalizing d with
  | nil => rfl
  | cons op rest ih => rw [List.foldl_cons, operate_mapSupply hf, ih, List.foldl_cons]

/-- What an operation does with canvases. -/
structure Accounted (d : Decoder (Audited α)) (op : Operation) : Prop where
  /-- The supply sees the actions of the operation and nothing else. -/
  ledger : (d.operate op).allocator.ledger =
    d.allocator.ledger ++ (d.actionsOf op).filterMap Action.dealing?
  /-- Only a scroll that moves the picture turns to the supply. -/
  untouched : (∀ i data, op.instruction? = some (i, data) → ¬ d.canvas.Moves i data) →
    d.actionsOf op = [] ∧ (d.operate op).allocator = d.allocator
  handles : ∀ i data, op.instruction? = some (i, data) →
    d.recorded i data = .ok (d.actionsOf op, d.execute i data) ∧
      d.Handles i data (d.actionsOf op) (d.execute i data).2.canvas
        (d.execute i data).2.allocator

theorem accounted (d : Decoder (Audited α)) (op : Operation) : d.Accounted op := by
  cases hop : op.instruction? with
  | none =>
    obtain ⟨-, hallocator⟩ := d.operate_of_none hop
    have hactions : d.actionsOf op = [] := by rw [actionsOf, hop]
    refine ⟨?_, fun _ => ⟨hactions, hallocator⟩, fun i data h => ?_⟩
    · rw [hactions, hallocator]
      exact (List.append_nil _).symm
    · rw [hop] at h
      cases h
  | some call =>
    obtain ⟨i, data⟩ := call
    have hactions : d.actionsOf op = d.actions i data := by rw [actionsOf, hop]
    have hhandles := d.handles i data
    obtain ⟨-, hallocator⟩ := d.operate_of_some hop
    refine ⟨?_, fun hstay => ?_, fun j other h => ?_⟩
    · rw [hactions, hallocator]
      exact hhandles.ledger
    · have hnone := hhandles.untouched_iff.mpr (hstay i data hop)
      rw [hactions, hallocator]
      refine ⟨hnone, ?_⟩
      rw [hnone] at hhandles
      generalize (d.execute i data).2 = d' at hhandles ⊢
      obtain ⟨c, a, l, n⟩ := d'
      cases hhandles
      rfl
    · rw [hop] at h
      cases h
      rw [hactions]
      exact ⟨d.recorded_eq_ok i data, hhandles⟩

theorem squared_actionsOf (d : Decoder (Audited α)) (op : Operation) :
    Squared d.canvas.stride ((d.actionsOf op).filterMap Action.dealing?) := by
  cases hop : op.instruction? with
  | none =>
    rw [actionsOf, hop]
    exact squared_nil _
  | some call =>
    rw [actionsOf, hop]
    exact (d.handles call.1 call.2).squared

theorem stride_operate (d : Decoder α) (op : Operation) :
    (d.operate op).canvas.stride = d.canvas.stride := by
  cases hop : op.instruction? with
  | none => exact (d.operate_of_none hop).1
  | some call => exact (d.operate_of_some hop).1.trans (d.executes call.1 call.2).stride

/-- However many operations there are, one canvas is held after each of them. -/
theorem custody_of_run {stride : Nat} {d : Decoder (Audited α)}
    (h : InCustody stride 1 d.allocator.ledger) (hs : d.canvas.stride = stride)
    (ops : List Operation) :
    InCustody stride 1 (ops.foldl operate d).allocator.ledger ∧
      (ops.foldl operate d).canvas.stride = stride := by
  induction ops generalizing d with
  | nil => exact ⟨h, hs⟩
  | cons op rest ih =>
    apply ih
    · rw [(d.accounted op).ledger]
      exact h.append (hs ▸ d.squared_actionsOf op)
    · rw [stride_operate, hs]

/-- Of all canvases that a supply hands out, a decoder gives each back once, save the one it holds.
If it cannot be built, none is out. Once it is built, one is out after every operation and never
more than two on the way, and every request is for the rows it was built for. -/
theorem one_canvas_held (a : α) (stride : Nat) :
    withAllocator a stride =
      ((withAllocator (Audited.of a) stride).mapError fun e => (e.1, e.2.supply)).map unaudited ∧
    Opens stride (withAllocator (Audited.of a) stride) ∧
    (∀ e b, withAllocator (Audited.of a) stride = .error (e, b) → InCustody stride 0 b.ledger) ∧
    ∀ d, withAllocator (Audited.of a) stride = .ok d → ∀ ops : List Operation,
      ops.foldl operate d.unaudited = (ops.foldl operate d).unaudited ∧
        InCustody stride 1 (ops.foldl operate d).allocator.ledger ∧
        (ops.foldl operate d).canvas.stride = stride ∧
        ∀ op, (ops.foldl operate d).Accounted op := by
  have hopens := opens a stride
  refine ⟨withAllocator_map Audited.carries_supply (Audited.of a) stride, hopens, ?_, ?_⟩
  · intro e b h
    rw [h] at hopens
    exact hopens.custody_of_error
  · intro d h ops
    rw [h] at hopens
    obtain ⟨hstart, hs⟩ := hopens.custody_of_ok
    obtain ⟨hheld, hstride⟩ := custody_of_run hstart hs ops
    exact ⟨foldl_operate_mapSupply Audited.carries_supply d ops, hheld, hstride,
      fun op => accounted _ op⟩

/-- A supply whose second canvas has rows of 304 bytes. -/
def narrowThenWide : Script := ⟨⟨width, Nat.le_refl width⟩ :: scripted.allocator.strides⟩

theorem withAllocator_narrowThenWide :
    ∃ d, withAllocator (Audited.of narrowThenWide) 300 = .ok d := by
  have hacquire : acquire (Audited.of narrowThenWide) 300 =
      (.ok .empty, ⟨scripted.allocator, [.asked 300 (.ok .empty)]⟩) := rfl
  refine ⟨⟨.empty, ⟨scripted.allocator, [.asked 300 (.ok .empty)]⟩, .silent, 0⟩, ?_⟩
  rw [withAllocator, if_neg (by decide), hacquire]
  rfl

/-- The first scroll gives its canvas straight back, a snapshot and a fresh start ask for nothing,
and the last scroll swaps. -/
theorem one_canvas_held_of_script :
    ∃ d, withAllocator (Audited.of narrowThenWide) 300 = .ok d ∧
      let ops := [.enter (.record rightScroll.toBytes), .restore Snapshot.loudSnapshot, .reset,
        .enter (.instruction .scrollCopy rightward)]
      InCustody 300 1 (ops.foldl operate d).allocator.ledger := by
  obtain ⟨d, hd⟩ := withAllocator_narrowThenWide
  have hheld := (one_canvas_held narrowThenWide 300).2.2.2 d hd
  exact ⟨d, hd, (hheld _).2.1⟩

end Decoder
end DiscGraphics
