import DiscGraphics.Proofs.Step

/-!
Records that are refused. When a refused request leaves no mark on the supply, dropping the refused
records from a stream changes nothing for the others.
-/
namespace DiscGraphics

@[simp] theorem isOk_ok {ε α : Type} (x : α) : (.ok x : Except ε α).isOk = true := rfl

@[simp] theorem isOk_error {ε α : Type} (e : ε) : (.error e : Except ε α).isOk = false := rfl

theorem isOk_map {ε α β : Type} (f : α → β) (x : Except ε α) : (x.map f).isOk = x.isOk := by
  cases x <;> rfl

namespace CanvasAllocator

/-- In the states that are kept, a refused request leaves no mark: neither an error nor a canvas of
another stride that is given straight back changes the supply. -/
structure Steady {α : Type} [CanvasAllocator α] (Kept : α → Prop) : Prop where
  error : ∀ {a a' : α} {stride : Nat} {e : AllocationError}, Kept a →
    CanvasAllocator.acquire a stride = (.error e, a') → a' = a
  mismatch : ∀ {a a' : α} {stride : Nat} {c : Canvas}, Kept a →
    CanvasAllocator.acquire a stride = (.ok c, a') → c.stride ≠ stride →
    CanvasAllocator.release a' c = a
  acquire : ∀ {a : α}, Kept a → ∀ stride, Kept (CanvasAllocator.acquire a stride).2
  release : ∀ {a : α}, Kept a → ∀ c, Kept (CanvasAllocator.release a c)

end CanvasAllocator

open CanvasAllocator (acquire release Steady Supplies)

/-- A heap whose host answers alike at all times is only ever itself. -/
theorem Heap.steady : Steady fun a : Heap => a.memory.Settled := by
  have hself {a : Heap} (ha : a.memory.Settled) (stride : Nat) : (acquire a stride).2 = a :=
    congrArg Heap.mk (Canvas.ofStride_of_settled ha stride)
  constructor
  · intro a a' stride e ha h
    rw [← hself ha stride, h]
  · intro a a' stride c ha h hs
    exact absurd (Canvas.stride_of_ofStride (congrArg Prod.fst h)) hs
  · intro a ha stride
    rw [hself ha]
    exact ha
  · intro a ha c
    exact ha

/-- A pool that refuses has not changed, but for its host, and it never gives a canvas of another
stride. -/
theorem Pool.steady : Steady fun p : Pool => p.memory.Settled := by
  have hmemory {p : Pool} (hp : p.memory.Settled) {stride : Nat}
      {answer : Except AllocationError Canvas} {m : Memory}
      (h : Canvas.ofStride stride p.memory = (answer, m)) : m = p.memory := by
    rw [← Canvas.ofStride_of_settled hp stride, h]
  constructor
  · intro p p' stride e hp h
    change p.acquire stride = _ at h
    unfold Pool.acquire at h
    split at h
    · cases h
      rfl
    · split at h
      · cases h
      · split at h
        · cases h
        · next hm =>
          cases h
          rw [hmemory hp hm]
  · intro p p' stride c hp h hs
    change p.acquire stride = _ at h
    unfold Pool.acquire at h
    split at h
    · cases h
    · split at h
      · next ht =>
        cases h
        exact absurd (stride_of_takeFirst ht) hs
      · split at h
        · next hc =>
          cases h
          exact absurd (Canvas.stride_of_ofStride (congrArg Prod.fst hc)) hs
        · cases h
  · intro p hp stride
    change (p.acquire stride).2.memory.Settled
    unfold Pool.acquire
    split
    · exact hp
    · split
      · exact hp
      · split
        · next hm => exact hmemory hp hm ▸ hp
        · next hm => exact hmemory hp hm ▸ hp
  · intro p hp c
    exact hp

namespace Decoder

/-- The frame that an answer lets out. -/
def emitted : Except DecodeError (Option Frame) → Option Frame
  | .ok frame? => frame?
  | .error _ => none

variable {α : Type}

/-- Two decoders that differ in their traces only. -/
structure Agree (d e : Decoder α) : Prop where
  canvas : d.canvas = e.canvas
  allocator : d.allocator = e.allocator
  packetsDecoded : d.packetsDecoded = e.packetsDecoded

protected theorem Agree.refl (d : Decoder α) : d.Agree d := ⟨rfl, rfl, rfl⟩

theorem Agree.trans {d e f : Decoder α} (h : d.Agree e) (h' : e.Agree f) : d.Agree f :=
  ⟨h.canvas.trans h'.canvas, h.allocator.trans h'.allocator,
    h.packetsDecoded.trans h'.packetsDecoded⟩

variable [CanvasAllocator α] {σ : Type}

/-- Decode a record, and hand the frame to a sink before the mark is cleared. -/
def decodeInto (sink : σ → Frame → σ) (d : Decoder α) (s : σ) (bytes : List UInt8) :
    Except DecodeError Bool × Decoder α × σ :=
  match Packet.parse bytes with
  | .error e => (.error e, d.withLogger fun l => l.logMessage .error e.message, s)
  | .ok p =>
    match d.decodePacket p with
    | (.error e, d) => (.error e, d, s)
    | (.ok false, d) => (.ok false, d, s)
    | (.ok true, d) =>
      let s := sink s d.frame
      (.ok true, d.withCanvas Canvas.clearPaletteChanged, s)

theorem decodeInto_eq (sink : σ → Frame → σ) (d : Decoder α) (s : σ) (bytes : List UInt8) :
    d.decodeInto sink s bytes = ((d.decode bytes).1.map Option.isSome, (d.decode bytes).2,
      (emitted (d.decode bytes).1).toList.foldl sink s) := by
  unfold decodeInto decode
  cases Packet.parse bytes with
  | error e => rfl
  | ok p =>
    dsimp only
    obtain ⟨answer, d'⟩ := d.decodePacket p
    cases answer with
    | error e => rfl
    | ok graphics => cases graphics <;> rfl

/-- A record is counted when it is accepted. -/
theorem packetsDecoded_decode (d : Decoder α) (bytes : List UInt8) :
    (d.decode bytes).2.packetsDecoded =
      if (d.decode bytes).1.isOk then d.packetsDecoded + 1 else d.packetsDecoded := by
  have hd := d.decodes bytes
  generalize (d.decode bytes).1 = r, (d.decode bytes).2 = d' at hd ⊢
  cases hd with
  | malformed | skipped | failed | shown => rfl

/-- The three ways a record is refused, with the state that each leaves. -/
inductive Refused (d : Decoder α) (bytes : List UInt8) : DecodeError → Decoder α → Prop where
  | malformed (l : Logger) : bytes.length ≠ 24 →
      Refused d bytes (.malformedPacket bytes.length) { d with logger := l }
  | noCanvas {cause : AllocationError} {a : α} (l : Logger) :
      acquire d.allocator d.canvas.stride = (.error cause, a) →
      Refused d bytes (.bufferAllocationFailure cause) { d with allocator := a, logger := l }
  | wrongStride {next : Canvas} {a : α} (l : Logger) :
      acquire d.allocator d.canvas.stride = (.ok next, a) → next.stride ≠ d.canvas.stride →
      Refused d bytes
        (.bufferAllocationFailure (.shapeMismatch d.canvas.stride next.stride))
        { d with allocator := release a next, logger := l }

theorem Decodes.refused {d d' : Decoder α} {bytes : List UInt8} {e : DecodeError}
    (h : Decodes d bytes (.error e) d') : Refused d bytes e d' := by
  cases h with
  | malformed l hlen => exact .malformed l hlen
  | failed l _ _ hx =>
    cases hx with
    | refused _ ha => exact .noCanvas l ha
    | mismatched _ ha hs => exact .wrongStride l ha hs

theorem refused_of_decode {d : Decoder α} {bytes : List UInt8} {e : DecodeError}
    (h : (d.decode bytes).1 = .error e) : Refused d bytes e (d.decode bytes).2 := by
  have hd := d.decodes bytes
  rw [h] at hd
  exact hd.refused

theorem Refused.canvas {d d' : Decoder α} {bytes : List UInt8} {e : DecodeError}
    (h : Refused d bytes e d') : d'.canvas = d.canvas ∧ d'.packetsDecoded = d.packetsDecoded := by
  cases h <;> exact ⟨rfl, rfl⟩

theorem Refused.agree {Kept : α → Prop} (hs : Steady Kept) {d d' : Decoder α} {bytes : List UInt8}
    {e : DecodeError} (h : Refused d bytes e d') (hd : Kept d.allocator) : d'.Agree d := by
  cases h with
  | malformed => exact ⟨rfl, rfl, rfl⟩
  | noCanvas _ ha => exact ⟨rfl, hs.error hd ha, rfl⟩
  | wrongStride _ ha hne => exact ⟨rfl, hs.mismatch hd ha hne, rfl⟩

theorem Executes.kept {Kept : α → Prop} (hs : Steady Kept) {c c' : Canvas} {a a' : α}
    {i : Instruction} {data : Payload} {x : Except DecodeError Unit}
    (h : Executes c a i data x c' a') (ha : Kept a) : Kept a' := by
  have hasked : Kept (acquire a c.stride).2 := hs.acquire ha c.stride
  cases h with
  | drawn => exact ha
  | scrolled _ _ hx =>
    rw [hx] at hasked
    exact hs.release hasked c
  | refused _ hx =>
    rw [hx] at hasked
    exact hasked
  | mismatched _ hx =>
    rw [hx] at hasked
    exact hs.release hasked _

theorem kept_decode {Kept : α → Prop} (hs : Steady Kept) {d : Decoder α} (hd : Kept d.allocator)
    (bytes : List UInt8) : Kept (d.decode bytes).2.allocator := by
  have hx := d.decodes bytes
  generalize (d.decode bytes).1 = r, (d.decode bytes).2 = d' at hx ⊢
  cases hx with
  | malformed => exact hd
  | skipped => exact hd
  | failed _ _ _ hx => exact hx.kept hs hd
  | shown _ _ _ hx => exact hx.kept hs hd

theorem Agree.decode {d e : Decoder α} (h : d.Agree e) (bytes : List UInt8) :
    (d.decode bytes).1 = (e.decode bytes).1 ∧ (d.decode bytes).2.Agree (e.decode bytes).2 := by
  obtain ⟨c, a, l, n⟩ := d
  obtain ⟨_, _, m, _⟩ := e
  obtain ⟨rfl, rfl, rfl⟩ := h
  by_cases hlen : bytes.length = 24
  · obtain ⟨p, hp⟩ := Packet.parse_eq_ok hlen
    cases hg : p.isGraphics with
    | false =>
      rw [decode_skipped _ hp hg, decode_skipped _ hp hg]
      exact ⟨rfl, rfl, rfl, rfl⟩
    | true =>
      obtain ⟨x, c₁, a₁, l₁, hx, hd⟩ := decode_executed ⟨c, a, l, n⟩ hp hg
      obtain ⟨y, c₂, a₂, l₂, hy, he⟩ := decode_executed ⟨c, a, m, n⟩ hp hg
      obtain ⟨rfl, rfl, rfl⟩ := hx.unique hy
      rw [hd, he]
      cases x <;> exact ⟨rfl, rfl, rfl, rfl⟩
  · obtain ⟨l', hd⟩ := decode_malformed ⟨c, a, l, n⟩ hlen
    obtain ⟨m', he⟩ := decode_malformed ⟨c, a, m, n⟩ hlen
    rw [hd, he]
    exact ⟨rfl, rfl, rfl, rfl⟩

/-- Decode some records in order: their answers, and the state after the last. -/
def decodeAll (d : Decoder α) :
    List (List UInt8) → List (Except DecodeError (Option Frame)) × Decoder α
  | [] => ([], d)
  | bytes :: rest =>
    let later := (d.decode bytes).2.decodeAll rest
    ((d.decode bytes).1 :: later.1, later.2)

theorem decodeAll_append (d : Decoder α) (xs ys : List (List UInt8)) :
    d.decodeAll (xs ++ ys) =
      ((d.decodeAll xs).1 ++ ((d.decodeAll xs).2.decodeAll ys).1,
        ((d.decodeAll xs).2.decodeAll ys).2) := by
  induction xs generalizing d with
  | nil => rfl
  | cons bytes rest ih => rw [List.cons_append, decodeAll, ih, decodeAll, List.cons_append]

/-- The records of a stream that are not refused when it is decoded. -/
def accepted (d : Decoder α) : List (List UInt8) → List (List UInt8)
  | [] => []
  | bytes :: rest =>
    if (d.decode bytes).1.isOk then bytes :: (d.decode bytes).2.accepted rest
    else (d.decode bytes).2.accepted rest

theorem accepted_cons_ok {d : Decoder α} {bytes : List UInt8} {frame? : Option Frame}
    (h : (d.decode bytes).1 = .ok frame?) (rest : List (List UInt8)) :
    d.accepted (bytes :: rest) = bytes :: (d.decode bytes).2.accepted rest := by
  rw [accepted, h, if_pos (isOk_ok frame?)]

theorem accepted_cons_error {d : Decoder α} {bytes : List UInt8} {e : DecodeError}
    (h : (d.decode bytes).1 = .error e) (rest : List (List UInt8)) :
    d.accepted (bytes :: rest) = (d.decode bytes).2.accepted rest := by
  rw [accepted, h, if_neg (by rw [isOk_error]; exact Bool.false_ne_true)]

/-- Decoding only the accepted records keeps their answers and ends in the same state. -/
theorem decodeAll_accepted {Kept : α → Prop} (hs : Steady Kept) {d e : Decoder α}
    (hd : Kept d.allocator) (h : d.Agree e) (records : List (List UInt8)) :
    (e.decodeAll (d.accepted records)).1 = (d.decodeAll records).1.filter Except.isOk ∧
      (d.decodeAll records).2.Agree (e.decodeAll (d.accepted records)).2 := by
  induction records generalizing d e with
  | nil => exact ⟨rfl, h⟩
  | cons bytes rest ih =>
    obtain ⟨hsame, hnext⟩ := h.decode bytes
    have hkept : Kept (d.decode bytes).2.allocator := kept_decode hs hd bytes
    cases hr : (d.decode bytes).1 with
    | ok frame? =>
      obtain ⟨hanswers, hlast⟩ := ih hkept hnext
      rw [hr] at hsame
      rw [accepted_cons_ok hr, decodeAll, decodeAll, hr, ← hsame,
        List.filter_cons_of_pos (isOk_ok frame?), hanswers]
      exact ⟨rfl, hlast⟩
    | error err =>
      -- The refused record is dropped, so only the full run moves on.
      have hstill : (d.decode bytes).2.Agree e := ((refused_of_decode hr).agree hs hd).trans h
      rw [accepted_cons_error hr, decodeAll, hr, List.filter_cons_of_neg (by simp)]
      exact ih hkept hstill

theorem filterMap_emitted_filter (answers : List (Except DecodeError (Option Frame))) :
    (answers.filter Except.isOk).filterMap emitted = answers.filterMap emitted := by
  induction answers with
  | nil => rfl
  | cons r rest ih =>
    cases r with
    | ok frame? =>
      rw [List.filter_cons_of_pos (isOk_ok frame?), List.filterMap_cons, List.filterMap_cons, ih]
    | error e => exact ih

/-- A decoder on a pool whose one canvas is on show. -/
def onFullPool : Decoder Pool :=
  ⟨.empty, { capacity := 1, memory := .ample, live := 1 }, .silent, 0⟩

theorem onFullPool_refuses :
    (onFullPool.decode rightScroll.toBytes).1 =
      .error (.bufferAllocationFailure (.poolExhausted 1)) := by
  have hacquire : acquire onFullPool.allocator 300 =
      (.error (.poolExhausted 1), onFullPool.allocator) := rfl
  have hx : Executes Canvas.empty onFullPool.allocator .scrollCopy rightward
      (.error (.bufferAllocationFailure (.poolExhausted 1))) .empty onFullPool.allocator :=
    .refused ⟨rfl, rfl⟩ hacquire
  obtain ⟨l, h⟩ := onFullPool.decode_of_executes parse_rightScroll rfl hx
  rw [h]
  rfl

/-- A supply that works through a list of strides before it does as it is asked. -/
structure Script where
  strides : List { n : Nat // width ≤ n }

instance : CanvasAllocator Script where
  acquire a stride :=
    match a.strides with
    | [] => ((Canvas.ofStride stride .ample).1, a)
    | n :: rest => (.ok (Canvas.blank n.1 n.2), ⟨rest⟩)
  release a _ := a

theorem Script.error {a a' : Script} {stride : Nat} {e : AllocationError}
    (h : acquire a stride = (.error e, a')) : a' = a := by
  obtain ⟨strides⟩ := a
  cases strides with
  | nil => exact (congrArg Prod.snd h).symm
  | cons n rest => cases congrArg Prod.fst h

theorem Script.supplies {stride : Nat} (h : width ≤ stride)
    (hr : stride * height ≤ Memory.largestBuffer) : Supplies stride (Script.mk []) := by
  refine CanvasAllocator.supplies_of_invariant (· = Script.mk []) rfl ?_ fun _ _ hb => hb
  rintro _ rfl
  have hmade := congrArg Prod.fst (Canvas.ofStride_eq_ok h (Memory.lends_ample hr))
  exact ⟨_, _, Prod.ext hmade rfl, rfl, rfl⟩

/-- A decoder whose supply has a canvas of 304 bytes a row to give next. -/
def scripted : Decoder Script := ⟨.empty, ⟨[⟨304, by decide⟩]⟩, .silent, 0⟩

theorem withAllocator_script :
    withAllocator (Script.mk [⟨300, by decide⟩, ⟨304, by decide⟩]) 300 = .ok scripted := rfl

theorem scripted_executes :
    Executes Canvas.empty scripted.allocator .scrollCopy rightward
      (.error (.bufferAllocationFailure (.shapeMismatch 300 304))) .empty (Script.mk []) := by
  have hacquire : acquire scripted.allocator 300 =
      (.ok (Canvas.blank 304 (by decide)), Script.mk []) := rfl
  have hstride : (Canvas.blank 304 (by decide)).stride ≠ Canvas.empty.stride := by decide
  exact .mismatched ⟨rfl, rfl⟩ hacquire hstride

theorem scripted_refuses :
    (scripted.decode rightScroll.toBytes).1 =
        .error (.bufferAllocationFailure (.shapeMismatch 300 304)) ∧
      Supplies (scripted.decode rightScroll.toBytes).2.canvas.stride
        (scripted.decode rightScroll.toBytes).2.allocator := by
  obtain ⟨l, hfirst⟩ := scripted.decode_of_executes parse_rightScroll rfl scripted_executes
  have hspent : Supplies 300 (Script.mk []) := Script.supplies (by decide) (by decide)
  rw [hfirst]
  exact ⟨rfl, hspent⟩

end Decoder
end DiscGraphics
