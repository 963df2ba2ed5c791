import DiscGraphics.Proofs.Refusal

/-!
A pool neither loses a canvas nor hands one out twice. With requests of one stride there are never
more canvases than were once out together.
-/
namespace DiscGraphics

/-- A canvas and the number it was made under. -/
structure Numbered where
  number : Nat
  canvas : Canvas

/-- A call on a pool: a canvas is asked for, or the one of some number comes back, with what its
holder has drawn on it. -/
inductive PoolCall where
  | acquire (stride : Nat)
  | release (number : Nat) (c : Canvas)

namespace Pool

theorem takeFirst_eq_none {stride : Nat} {cs : List Canvas} :
    takeFirst stride cs = none ↔ ∀ c ∈ cs, c.stride ≠ stride := by
  induction cs with
  | nil => simp [takeFirst]
  | cons c cs ih =>
    rw [takeFirst, List.forall_mem_cons]
    split
    · next hc => simp [hc]
    · next hc => rw [Option.map_eq_none_iff, ih, and_iff_right hc]

/-- What the pool answers, if the call asks for something. -/
def answer? (p : Pool) : PoolCall → Option (Except AllocationError Canvas)
  | .acquire stride => some (p.acquire stride).1
  | .release _ _ => none

def call (p : Pool) : PoolCall → Pool
  | .acquire stride => (p.acquire stride).2
  | .release _ c => p.release c

/-- The answers to some calls, one after the other, and the pool after them. -/
def serve (p : Pool) : List PoolCall → List (Except AllocationError Canvas) × Pool
  | [] => ([], p)
  | call :: rest =>
    let later := (p.call call).serve rest
    ((p.answer? call).toList ++ later.1, later.2)

/-- Why a pool refuses a request: its bound is reached, or it has no free canvas of the stride and
cannot make one. -/
def Refuses (p : Pool) (stride : Nat) (e : AllocationError) : Prop :=
  if 0 < p.capacity ∧ p.live = p.capacity then e = .poolExhausted p.capacity
  else (∀ c ∈ p.free, c.stride ≠ stride) ∧ (Canvas.ofStride stride p.memory).1 = .error e

/-- How a pool answers a request. -/
structure Answers (p : Pool) (n : Nat) : Prop where
  stride : ∀ c, (p.acquire n).1 = .ok c → c.stride = n
  refused : ∀ e, (p.acquire n).1 = .error e ↔ p.Refuses n e
  /-- All that is left of a request in vain is that the host was asked, if the bound let it come to
  that. -/
  unchanged : ∀ e, (p.acquire n).1 = .error e → (p.acquire n).2 =
    if 0 < p.capacity ∧ p.live = p.capacity then p
    else { p with memory := (Canvas.ofStride n p.memory).2 }

theorem stride_of_acquire {p : Pool} {stride : Nat} {c : Canvas}
    (h : (p.acquire stride).1 = .ok c) : c.stride = stride := by
  unfold Pool.acquire at h
  split at h
  · cases h
  · split at h
    · next ht =>
      cases h
      exact stride_of_takeFirst ht
    · split at h
      · next hc =>
        cases h
        exact Canvas.stride_of_ofStride (congrArg Prod.fst hc)
      · cases h

/-- A pool with no more canvases out than its bound allows answers every request as it should. -/
theorem answers_of_live_le {p : Pool} (h : 0 < p.capacity → p.live ≤ p.capacity) (stride : Nat) :
    p.Answers stride := by
  have hbound : p.Exhausted ↔ 0 < p.capacity ∧ p.live = p.capacity :=
    and_congr_right fun hpos => ⟨Nat.le_antisymm (h hpos), Nat.le_of_eq ∘ Eq.symm⟩
  suffices hanswer : ∀ e, ((p.acquire stride).1 = .error e ↔ p.Refuses stride e) ∧
      ((p.acquire stride).1 = .error e → (p.acquire stride).2 =
        if 0 < p.capacity ∧ p.live = p.capacity then p
        else { p with memory := (Canvas.ofStride stride p.memory).2 }) from
    ⟨fun c => stride_of_acquire, fun e => (hanswer e).1, fun e => (hanswer e).2⟩
  intro e
  rw [Pool.acquire, Refuses]
  by_cases hfull : p.Exhausted
  · rw [if_pos hfull, if_pos (hbound.mp hfull), if_pos (hbound.mp hfull)]
    exact ⟨by rw [Except.error.injEq, eq_comm], fun _ => rfl⟩
  rw [if_neg hfull, if_neg (mt hbound.mpr hfull), if_neg (mt hbound.mpr hfull)]
  cases htake : takeFirst stride p.free with
  | some found =>
    have hsome : ¬ ∀ c ∈ p.free, c.stride ≠ stride := fun hnone => by
      rw [takeFirst_eq_none.mpr hnone] at htake
      cases htake
    exact ⟨⟨fun he => (by cases he), fun he => absurd he.1 hsome⟩, fun he => (by cases he)⟩
  | none =>
    rw [and_iff_right (takeFirst_eq_none.mp htake)]
    obtain ⟨answer, memory⟩ := Canvas.ofStride stride p.memory
    cases answer with
    | ok c => exact ⟨⟨fun he => (by cases he), fun he => (by cases he)⟩, fun he => (by cases he)⟩
    | error cause => exact ⟨Iff.rfl, fun _ => rfl⟩

end Pool

/-- The books of a pool: the canvases that are free, in its order, those that are out, and how many
were made and handed out again. -/
structure Stock where
  capacity : Nat
  memory : Memory
  free : List Numbered := []
  out : List Numbered := []
  made : Nat := 0
  reused : Nat := 0

namespace Stock

def ofCapacity (capacity : Nat) (memory : Memory) : Stock where
  capacity := capacity
  memory := memory

/-- The pool that the books are about. -/
def pool (s : Stock) : Pool where
  capacity := s.capacity
  memory := s.memory
  free := s.free.map Numbered.canvas
  live := s.out.length
  reused := s.reused

def lastFirst (ks : List Numbered) : List Numbered :=
  match ks.getLast? with
  | some k => k :: ks.dropLast
  | none => []

def takeFirst (stride : Nat) : List Numbered → Option (Numbered × List Numbered)
  | [] => none
  | k :: ks =>
    if k.canvas.stride = stride then some (k, lastFirst ks)
    else (takeFirst stride ks).map (Prod.map id (k :: ·))

def handOut (s : Stock) (k : Numbered) : Stock := { s with out := k :: s.out }

/-- A request, with the number of what is handed out. A canvas that is made gets the next number. -/
def acquire (s : Stock) (stride : Nat) : Except AllocationError Numbered × Stock :=
  if s.pool.Exhausted then (.error (.poolExhausted s.capacity), s)
  else
    match takeFirst stride s.free with
    | some (k, rest) => (.ok k, { s with free := rest, reused := s.reused + 1 }.handOut k)
    | none =>
      match Canvas.ofStride stride s.memory with
      | (.ok c, memory) =>
        (.ok ⟨s.made, c⟩, { s with memory := memory, made := s.made + 1 }.handOut ⟨s.made, c⟩)
      | (.error e, memory) => (.error e, { s with memory := memory })

def release (s : Stock) (number : Nat) (c : Canvas) : Stock :=
  { s with
    free := s.free ++ [⟨number, c⟩]
    out := s.out.eraseP fun k => k.number == number }

def answer? (s : Stock) : PoolCall → Option (Except AllocationError Numbered)
  | .acquire stride => some (s.acquire stride).1
  | .release _ _ => none

def call (s : Stock) : PoolCall → Stock
  | .acquire stride => (s.acquire stride).2
  | .release number c => s.release number c

def serve (s : Stock) : List PoolCall → List (Except AllocationError Numbered) × Stock
  | [] => ([], s)
  | call :: rest =>
    let later := (s.call call).serve rest
    ((s.answer? call).toList ++ later.1, later.2)

/-- What may come back is a canvas that is out. Drawing on it has not changed the length of its
rows. -/
def Permits (s : Stock) : PoolCall → Prop
  | .acquire _ => True
  | .release number c => ∃ k ∈ s.out, k.number = number ∧ k.canvas.stride = c.stride

/-- In a run of calls only canvases that are out come back. -/
def PermitsAll (s : Stock) : List PoolCall → Prop
  | [] => True
  | call :: rest => s.Permits call ∧ (s.call call).PermitsAll rest

/-- The largest number of canvases that are out at one time in a run of calls. -/
def peak (s : Stock) : List PoolCall → Nat
  | [] => s.out.length
  | call :: rest => max s.out.length ((s.call call).peak rest)

theorem lastFirst_perm (ks : List Numbered) : (lastFirst ks).Perm ks := by
  unfold lastFirst
  split
  · next k hk =>
    rw [List.getLast?_eq_some_iff] at hk
    obtain ⟨front, rfl⟩ := hk
    rw [List.dropLast_concat]
    exact (List.perm_append_singleton k front).symm
  · next hk => rw [List.getLast?_eq_none_iff.mp hk]

theorem map_lastFirst (ks : List Numbered) :
    (lastFirst ks).map Numbered.canvas = Pool.lastFirst (ks.map Numbered.canvas) := by
  unfold lastFirst Pool.lastFirst
  rw [List.getLast?_map]
  cases ks.getLast? with
  | none => rfl
  | some k => simp only [Option.map_some, List.map_cons, List.map_dropLast]

/-- What is taken out was there before, with all that is left. -/
theorem takeFirst_perm {stride : Nat} {ks rest : List Numbered} {k : Numbered}
    (h : takeFirst stride ks = some (k, rest)) : ks.Perm (k :: rest) := by
  induction ks generalizing rest with
  | nil => cases h
  | cons j ks ih =>
    rw [takeFirst] at h
    split at h
    · cases h
      exact (lastFirst_perm ks).symm.cons k
    · obtain ⟨⟨i, left⟩, htail, he⟩ := Option.map_eq_some_iff.mp h
      cases he
      exact ((ih htail).cons j).trans (.swap i j left)

theorem takeFirst_map (stride : Nat) (ks : List Numbered) :
    Pool.takeFirst stride (ks.map Numbered.canvas) =
      (takeFirst stride ks).map (Prod.map Numbered.canvas (List.map Numbered.canvas)) := by
  induction ks with
  | nil => rfl
  | cons k ks ih =>
    rw [List.map_cons, Pool.takeFirst, takeFirst, ih]
    split
    · rw [Option.map_some, Prod.map_apply, map_lastFirst]
    · rw [Option.map_map, Option.map_map]
      rfl

section

variable {s : Stock}

/-- A request is answered as the pool answers it, with a number beside the canvas. -/
theorem pool_acquire (s : Stock) (stride : Nat) :
    s.pool.acquire stride =
      ((s.acquire stride).1.map Numbered.canvas, (s.acquire stride).2.pool) := by
  have hfree : s.pool.free = s.free.map Numbered.canvas := rfl
  rw [Pool.acquire, Stock.acquire, hfree, takeFirst_map]
  split
  · rfl
  · cases takeFirst stride s.free with
    | some found => rfl
    | none =>
      have hmemory : s.pool.memory = s.memory := rfl
      simp only [Option.map_none, hmemory]
      obtain ⟨answer, memory⟩ := Canvas.ofStride stride s.memory
      cases answer <;> rfl

theorem pool_release {number : Nat} {c : Canvas} (h : s.Permits (.release number c)) :
    s.pool.release c = (s.release number c).pool := by
  obtain ⟨k, hk, hnumber, -⟩ := h
  have hout : (s.out.eraseP fun k => k.number == number).length = s.out.length - 1 :=
    List.length_eraseP_of_mem hk (by simp [hnumber])
  rw [Pool.release, release, pool, pool, hout, List.map_append]
  rfl

/-- One call does to the pool what it does to the books. -/
theorem pool_call {call : PoolCall} (h : s.Permits call) :
    s.pool.call call = (s.call call).pool := by
  cases call with
  | acquire stride => rw [Pool.call, pool_acquire, Stock.call]
  | release number c => exact pool_release h

theorem pool_answer? (s : Stock) (call : PoolCall) :
    s.pool.answer? call = (s.answer? call).map (Except.map Numbered.canvas) := by
  cases call with
  | acquire stride => rw [Pool.answer?, pool_acquire, answer?, Option.map_some]
  | release => rfl

/-- The books follow the pool through any calls. -/
theorem pool_serve {calls : List PoolCall} (h : s.PermitsAll calls) :
    s.pool.serve calls =
      ((s.serve calls).1.map (Except.map Numbered.canvas), (s.serve calls).2.pool) := by
  induction calls generalizing s with
  | nil => rfl
  | cons call rest ih =>
    obtain ⟨hcall, hrest⟩ := h
    rw [Pool.serve, pool_call hcall, ih hrest, pool_answer?, serve]
    simp only [List.map_append, Option.toList_map]

end

/-- Every number up to the last is entered once, under those out or those free, and no more are out
than the bound allows. -/
structure Balanced (s : Stock) : Prop where
  once : ((s.out ++ s.free).map Numbered.number).Perm (List.range s.made)
  bound : 0 < s.capacity → s.out.length ≤ s.capacity

section

variable {s : Stock}

theorem balanced_ofCapacity (capacity : Nat) (memory : Memory) :
    (ofCapacity capacity memory).Balanced :=
  ⟨.nil, fun _ => Nat.zero_le _⟩

/-- The ways in which a request can end. -/
theorem acquire_cases (s : Stock) (stride : Nat) :
    (∃ e memory, s.acquire stride = (.error e, { s with memory := memory })) ∨
    (¬ s.pool.Exhausted ∧ ∃ k rest, takeFirst stride s.free = some (k, rest) ∧
      s.acquire stride = (.ok k, { s with free := rest, reused := s.reused + 1 }.handOut k)) ∨
    (¬ s.pool.Exhausted ∧ takeFirst stride s.free = none ∧
      ∃ c memory, Canvas.ofStride stride s.memory = (.ok c, memory) ∧ s.acquire stride =
        (.ok ⟨s.made, c⟩,
          { s with memory := memory, made := s.made + 1 }.handOut ⟨s.made, c⟩)) := by
  unfold acquire
  split
  · exact .inl ⟨_, s.memory, rfl⟩
  · next hroom =>
    cases htake : takeFirst stride s.free with
    | some found => exact .inr (.inl ⟨hroom, found.1, found.2, rfl, rfl⟩)
    | none =>
      obtain ⟨answer, memory⟩ := Canvas.ofStride stride s.memory
      cases answer with
      | ok c => exact .inr (.inr ⟨hroom, rfl, c, memory, rfl, rfl⟩)
      | error e => exact .inl ⟨e, memory, rfl⟩

theorem Balanced.acquire (h : s.Balanced) (stride : Nat) : (s.acquire stride).2.Balanced := by
  have hbound (hroom : ¬ s.pool.Exhausted) (hpos : 0 < s.capacity) :
      s.out.length + 1 ≤ s.capacity :=
    Nat.lt_of_not_le fun hfull => hroom ⟨hpos, hfull⟩
  obtain ⟨e, memory, he⟩ | ⟨hroom, k, rest, htake, hk⟩ | ⟨hroom, -, c, memory, -, hc⟩ :=
    s.acquire_cases stride
  · rw [he]
    exact ⟨h.once, h.bound⟩
  · rw [hk]
    refine ⟨?_, hbound hroom⟩
    -- The canvas moves from the end of the list to its head.
    have hmoved : (k :: s.out ++ rest).Perm (s.out ++ s.free) :=
      (List.perm_middle.symm).trans ((takeFirst_perm htake).symm.append_left s.out)
    exact (hmoved.map Numbered.number).trans h.once
  · rw [hc]
    refine ⟨?_, hbound hroom⟩
    rw [handOut, List.range_succ]
    exact (h.once.cons s.made).trans (List.perm_append_singleton s.made _).symm

theorem Balanced.release (h : s.Balanced) {number : Nat} {c : Canvas}
    (hout : s.Permits (.release number c)) : (s.release number c).Balanced := by
  obtain ⟨k, hk, rfl, -⟩ := hout
  obtain ⟨j, before, after, -, hnumber, hout, herase⟩ :=
    List.exists_of_eraseP hk (p := fun j => j.number == k.number) (beq_self_eq_true _)
  have hsame : j.number = k.number := eq_of_beq hnumber
  refine ⟨?_, fun hpos => ?_⟩
  · have honce := h.once
    rw [hout, List.append_assoc, List.map_append, List.cons_append, List.map_cons, hsame] at honce
    rw [Stock.release, herase, List.append_assoc, ← List.append_assoc after, List.map_append,
      List.map_append, List.map_singleton]
    exact ((List.perm_append_singleton _ _).append_left _).trans honce
  · exact Nat.le_trans List.length_eraseP_le (h.bound hpos)

theorem Balanced.call (h : s.Balanced) {call : PoolCall} (hcall : s.Permits call) :
    (s.call call).Balanced := by
  cases call with
  | acquire stride => exact h.acquire stride
  | release number c => exact h.release hcall

theorem Balanced.serve (h : s.Balanced) {calls : List PoolCall} (hcalls : s.PermitsAll calls) :
    (s.serve calls).2.Balanced := by
  induction calls generalizing s with
  | nil => exact h
  | cons call rest ih => exact ih (h.call hcalls.1) hcalls.2

theorem capacity_call (s : Stock) (call : PoolCall) : (s.call call).capacity = s.capacity := by
  cases call with
  | acquire stride =>
    rw [Stock.call]
    obtain ⟨e, memory, he⟩ | ⟨-, k, rest, -, hk⟩ | ⟨-, -, c, memory, -, hc⟩ :=
      s.acquire_cases stride
    · rw [he]
    · rw [hk, handOut]
    · rw [hc, handOut]
  | release => rfl

theorem capacity_serve (s : Stock) (calls : List PoolCall) :
    (s.serve calls).2.capacity = s.capacity := by
  induction calls generalizing s with
  | nil => rfl
  | cons call rest ih => rw [serve, ih, capacity_call]

/-- Every canvas that is handed out was made for it or handed out again. -/
theorem handedOut_call (s : Stock) (call : PoolCall) :
    (s.call call).reused + (s.call call).made =
      s.reused + s.made + (s.answer? call).toList.countP Except.isOk := by
  cases call with
  | acquire stride =>
    rw [Stock.call, answer?, Option.toList_some]
    obtain ⟨e, memory, he⟩ | ⟨-, k, rest, -, hk⟩ | ⟨-, -, c, memory, -, hc⟩ :=
      s.acquire_cases stride
    · rw [he]
      rfl
    · rw [hk, List.countP_singleton, handOut]
      simp only [isOk_ok, if_true]
      omega
    · rw [hc, List.countP_singleton, handOut]
      simp only [isOk_ok, if_true]
      omega
  | release => rfl

theorem handedOut_serve (s : Stock) (calls : List PoolCall) :
    (s.serve calls).2.reused + (s.serve calls).2.made =
      s.reused + s.made + (s.serve calls).1.countP Except.isOk := by
  induction calls generalizing s with
  | nil => rfl
  | cons call rest ih =>
    rw [serve, ih, handedOut_call, List.countP_append, Nat.add_assoc]

end

section OneStride

/-- All canvases of the pool have rows of one length. -/
def Uniform (stride : Nat) (s : Stock) : Prop := ∀ k ∈ s.out ++ s.free, k.canvas.stride = stride

variable {stride : Nat} {s : Stock}

theorem Uniform.call (h : s.Uniform stride) {call : PoolCall} (hcall : s.Permits call)
    (hasks : ∀ n, call = .acquire n → n = stride) : (s.call call).Uniform stride := by
  cases call with
  | acquire n =>
    obtain rfl := hasks n rfl
    rw [Stock.call]
    obtain ⟨e, memory, he⟩ | ⟨-, k, rest, htake, hk⟩ | ⟨-, -, c, memory, hmade, hc⟩ :=
      s.acquire_cases n
    · rw [he]
      exact h
    · rw [hk]
      intro j hj
      have hperm := (takeFirst_perm htake).append_left s.out
      exact h j (hperm.mem_iff.mpr (List.perm_middle.mem_iff.mpr hj))
    · rw [hc]
      intro j hj
      rcases List.mem_cons.mp hj with rfl | hj
      · exact Canvas.stride_of_ofStride (congrArg Prod.fst hmade)
      · exact h j hj
  | release number c =>
    obtain ⟨k, hk, -, hrows⟩ := hcall
    intro j hj
    rcases List.mem_append.mp hj with hj | hj
    · exact h j (List.mem_append_left _ (List.mem_of_mem_eraseP hj))
    rcases List.mem_append.mp hj with hj | hj
    · exact h j (List.mem_append_right _ hj)
    · rw [List.mem_singleton.mp hj, ← hrows]
      exact h k (List.mem_append_left _ hk)

theorem out_le_peak (s : Stock) (calls : List PoolCall) : s.out.length ≤ s.peak calls := by
  cases calls with
  | nil => exact Nat.le_refl _
  | cons => exact Nat.le_max_left _ _

theorem Balanced.made_eq (h : s.Balanced) : s.made = s.out.length + s.free.length := by
  have hlength := h.once.length_eq
  rwa [List.length_map, List.length_append, List.length_range, eq_comm] at hlength

/-- When a canvas is made, all canvases there are have gone out. -/
theorem made_call (h : s.Balanced) (huniform : s.Uniform stride) {call : PoolCall}
    (hasks : ∀ n, call = .acquire n → n = stride) :
    (s.call call).made = s.made ∨
      (s.call call).made = s.made + 1 ∧ (s.call call).made = (s.call call).out.length := by
  cases call with
  | acquire n =>
    obtain rfl := hasks n rfl
    rw [Stock.call]
    obtain ⟨e, memory, he⟩ | ⟨-, k, rest, -, hk⟩ | ⟨-, htake, c, memory, -, hc⟩ :=
      s.acquire_cases n
    · exact .inl (by rw [he])
    · exact .inl (by rw [hk, handOut])
    · have hfree : s.free = [] := by
        cases hfree : s.free with
        | nil => rfl
        | cons k ks =>
          have hk : k ∈ s.out ++ s.free :=
            List.mem_append_right _ (hfree ▸ List.mem_cons_self)
          rw [hfree, takeFirst, if_pos (huniform k hk)] at htake
          cases htake
      have hmade := h.made_eq
      rw [hfree] at hmade
      rw [hc]
      exact .inr ⟨rfl, congrArg (· + 1) hmade⟩
  | release => exact .inl rfl

/-- With requests of one stride, as many canvases are made as are out at one time. -/
theorem made_serve (h : s.Balanced) (huniform : s.Uniform stride) {calls : List PoolCall}
    (hcalls : s.PermitsAll calls) (hasks : ∀ n, .acquire n ∈ calls → n = stride) :
    (s.serve calls).2.made = max s.made (s.peak calls) := by
  induction calls generalizing s with
  | nil =>
    rw [peak, Nat.max_eq_left (by have := h.made_eq; omega)]
    rfl
  | cons call rest ih =>
    have hcall : ∀ n, call = .acquire n → n = stride :=
      fun n hn => hasks n (hn ▸ List.mem_cons_self)
    have hlater := ih (h.call hcalls.1) (huniform.call hcalls.1 hcall) hcalls.2
      fun n hn => hasks n (List.mem_cons_of_mem _ hn)
    have hnow := made_call h huniform hcall
    have hpeak := (s.call call).out_le_peak rest
    have hmade := h.made_eq
    -- No more are out than were made, and when one is made, as many are out as there are.
    rw [serve, hlater, peak]
    omega

end OneStride

end Stock

/-- The books are those of a pool with a given bound, and they are right. -/
structure Pool.Agrees (bound : Nat) (p : Pool) (s : Stock) : Prop where
  capacity : p.capacity = bound
  free : p.free = s.free.map Numbered.canvas
  live : p.live = s.out.length
  live_le : 0 < bound → p.live ≤ bound
  /-- Every canvas ever made is out or free, and it is so once. -/
  once : ((s.out ++ s.free).map Numbered.number).Perm (List.range s.made)

/-- However a new pool is used, as long as only canvases that are out come back, its books are
right, its requests are answered by the rules, and what it handed out it made or handed out again,
whenever the host lends it a buffer and whenever not. If all requests are for one stride, it made as
many canvases as were ever out together. -/
theorem Pool.canvases_conserved (capacity : Nat) (memory : Memory) {calls : List PoolCall}
    (h : (Stock.ofCapacity capacity memory).PermitsAll calls) :
    let run := (Pool.ofCapacity capacity memory).serve calls
    let books := (Stock.ofCapacity capacity memory).serve calls
    run.1 = books.1.map (Except.map Numbered.canvas) ∧ run.2.Agrees capacity books.2 ∧
      (∀ stride, run.2.Answers stride) ∧
      run.2.reused + books.2.made = run.1.countP Except.isOk ∧
      ∀ stride, (∀ n, .acquire n ∈ calls → n = stride) →
        books.2.made = (Stock.ofCapacity capacity memory).peak calls := by
  intro run books
  have hrun : run = (books.1.map (Except.map Numbered.canvas), books.2.pool) := Stock.pool_serve h
  have hstart := Stock.balanced_ofCapacity capacity memory
  have hbooks : books.2.Balanced := hstart.serve h
  have hcapacity : books.2.capacity = capacity := Stock.capacity_serve _ calls
  have hbound : 0 < capacity → books.2.out.length ≤ capacity := hcapacity ▸ hbooks.bound
  rw [hrun]
  refine ⟨rfl, ⟨hcapacity, rfl, rfl, hbound, hbooks.once⟩, ?_, ?_, ?_⟩
  · exact answers_of_live_le hbooks.bound
  · have hok : Except.isOk ∘ Except.map Numbered.canvas =
        (Except.isOk : Except AllocationError Numbered → Bool) := funext (isOk_map _)
    rw [List.countP_map, hok]
    exact (Stock.handedOut_serve _ calls).trans (Nat.zero_add _)
  · intro stride hasks
    have huniform : (Stock.ofCapacity capacity memory).Uniform stride := fun k hk =>
      (List.not_mem_nil hk).elim
    exact (Stock.made_serve hstart huniform h hasks).trans (Nat.zero_max _)

/-- A host that refuses the second buffer it is asked for. -/
def balking : Memory where
  next := [fun _ => true, fun _ => false]
  later _ := true

/-- Two canvases go out and another is refused; one comes back, soiled, and goes out again. -/
def busyHour : List PoolCall :=
  [.acquire 300, .acquire 300, .acquire 300, .acquire 300, .release 0 (Canvas.empty.fill 7),
    .acquire 300]

/-- The host refuses the second request and the bound the fourth, so two canvases are made, and one
of them is handed out twice. -/
theorem Pool.two_canvases_made :
    (Stock.ofCapacity 2 balking).PermitsAll busyHour ∧
      ((Pool.ofCapacity 2 balking).serve busyHour).2.reused = 1 ∧
      ((Stock.ofCapacity 2 balking).serve busyHour).2.made = 2 := by
  let balkingNow : Memory := { balking with next := [fun _ => false] }
  let lending : Memory := { balking with next := [] }
  have hfirst : Canvas.ofStride 300 balking = (.ok .empty, balkingNow) := rfl
  have hrefused : Canvas.ofStride 300 balkingNow =
      (.error (.outOfMemory (300 * height)), lending) := rfl
  have hlater : Canvas.ofStride 300 lending = (.ok .empty, lending) := rfl
  have hempty : Canvas.empty.stride = 300 := rfl
  have hsoiled : (Canvas.empty.fill 7).stride = 300 := rfl
  have hpermits : (Stock.ofCapacity 2 balking).PermitsAll busyHour := by
    simp [busyHour, Stock.PermitsAll, Stock.Permits, Stock.call, Stock.acquire, Stock.takeFirst,
      Stock.handOut, Stock.ofCapacity, Stock.pool, Exhausted, hfirst, hrefused, hlater, hempty,
      hsoiled]
  have hpeak : (Stock.ofCapacity 2 balking).peak busyHour = 2 := by
    simp [busyHour, Stock.peak, Stock.call, Stock.acquire, Stock.release, Stock.takeFirst,
      Stock.handOut, Stock.ofCapacity, Stock.pool, Exhausted, hfirst, hrefused, hlater, hsoiled]
  have hgranted : ((Pool.ofCapacity 2 balking).serve busyHour).1.countP Except.isOk = 3 := by
    simp [busyHour, serve, call, answer?, acquire, release, takeFirst, ofCapacity, Exhausted,
      hfirst, hrefused, hlater, hsoiled, List.countP_cons]
  have hasks : ∀ n, .acquire n ∈ busyHour → n = 300 := by simp [busyHour]
  obtain ⟨-, -, -, hcount, hmade⟩ := Pool.canvases_conserved 2 balking hpermits
  rw [hmade 300 hasks, hpeak, hgranted] at hcount
  exact ⟨hpermits, Nat.add_right_cancel hcount, (hmade 300 hasks).trans hpeak⟩

end DiscGraphics
