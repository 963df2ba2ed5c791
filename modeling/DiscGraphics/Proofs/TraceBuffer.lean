import DiscGraphics.Logger
import DiscGraphics.Proofs.OpenFiles

/-!
What a logger keeps. Of the entries that it accepts, the trace is a suffix, as long as the bounds
allow, and the log file holds all that came while it was open.
-/
namespace DiscGraphics

/-- What can be done to a logger. -/
inductive LogAct where
  | setLevel (level : LogLevel)
  | tracePackets (on : Bool)
  | setCapacity (n : Nat)
  | clear
  | offer (e : TraceEntry)
  | openFile (path : String)
  | closeFile

/-- An entry as a log file has it. -/
def TraceEntry.line (e : TraceEntry) : String := e.render ++ "\n"

def TraceEntry.lines (es : List TraceEntry) : String := String.join (es.map TraceEntry.line)

theorem TraceEntry.lines_append (es : List TraceEntry) (e : TraceEntry) :
    lines (es ++ [e]) = lines es ++ e.line := by
  simp [lines]

theorem toList_extract_size {α : Type} (xs : Array α) (k : Nat) :
    (xs.extract k xs.size).toList = xs.toList.drop k := by
  rw [Array.toList_extract, List.extract_eq_take_drop]
  exact List.take_of_length_le (Nat.le_of_eq (by rw [List.length_drop, Array.length_toList]))

namespace Logger

/-- Log a packet, a scroll or a message, up to writing it to the log file. -/
def offer (l : Logger) : TraceEntry → Logger
  | .packet trace => l.logPacket trace
  | .scroll trace => l.logScroll trace
  | .message level text => l.logMessage level text

section

variable {m : Type → Type} [Monad m] [Files m]

def act (l : Logger) : LogAct → m (Except HostError Unit × Logger)
  | .setLevel level => pure (.ok (), { l with level := level })
  | .tracePackets on => pure (.ok (), { l with packetTrace := on })
  | .setCapacity n => pure (.ok (), l.setCapacity n)
  | .clear => pure (.ok (), l.clear)
  | .offer e => do
    let l ← (l.offer e).flush
    pure (.ok (), l)
  | .openFile path => do
    match ← Files.create path with
    | .ok handle => pure (.ok (), l.openOutput handle)
    | .error e => pure (.error e, l)
  | .closeFile => pure (.ok (), l.closeOutput)

/-- Do some things to a logger, one after the other. -/
def actAll (l : Logger) : List LogAct → m (List (Except HostError Unit) × Logger)
  | [] => pure ([], l)
  | a :: rest => do
    let (answer, l) ← l.act a
    let (answers, l) ← l.actAll rest
    pure (answer :: answers, l)

end

/-- What was done to a logger, as far as it matters for what it keeps. It is told without regard to
the logger itself. -/
structure Past where
  level : LogLevel := .none
  packetTrace : Bool := false
  bound : Nat := 10000
  /-- The bounds in force before, since the trace was last cleared. -/
  earlier : List Nat := []
  /-- The entries accepted since the trace was last cleared. -/
  accepted : List TraceEntry := []
  /-- The entries accepted since the log file was opened, if one is open. -/
  logged : Option (List TraceEntry) := none

namespace Past

/-- Which entries are accepted. Packets are traced at the most talkative level only, and only when
that is switched on; scrolls are worth as much as a message for debugging. -/
def Allows (p : Past) : TraceEntry → Prop
  | .packet _ => p.packetTrace = true ∧ p.level = .trace
  | .scroll _ => p.level = .debug ∨ p.level = .trace
  | .message level _ => level ≠ .none ∧ level ≤ p.level

instance (p : Past) : (e : TraceEntry) → Decidable (p.Allows e)
  | .packet _ => inferInstanceAs (Decidable (_ ∧ _))
  | .scroll _ => inferInstanceAs (Decidable (_ ∨ _))
  | .message _ _ => inferInstanceAs (Decidable (_ ∧ _))

def accept (p : Past) (e : TraceEntry) : Past :=
  { p with accepted := p.accepted ++ [e], logged := p.logged.map (· ++ [e]) }

/-- An entry is accepted if it is allowed when it comes. A log file that could not be opened leaves
the one before it open. -/
def after (p : Past) (a : LogAct) (answer : Except HostError Unit) : Past :=
  match a with
  | .setLevel level => { p with level := level }
  | .tracePackets on => { p with packetTrace := on }
  | .setCapacity n => { p with bound := n, earlier := p.bound :: p.earlier }
  | .clear => { p with accepted := [], earlier := [] }
  | .offer e => if p.Allows e then p.accept e else p
  | .openFile _ => if answer.isOk then { p with logged := some [] } else p
  | .closeFile => { p with logged := none }

/-- What was done, told by the acts and their answers. -/
def ofRun (acts : List LogAct) (answers : List (Except HostError Unit)) : Past :=
  (acts.zip answers).foldl (fun p act => p.after act.1 act.2) {}

/-- How many entries are sure to be kept: all that were accepted, or as many as the smallest of the
bounds that were in force. A bound of zero is none. -/
def kept (p : Past) : Nat :=
  match ((p.bound :: p.earlier).filter (0 < ·)).min? with
  | some least => min p.accepted.length least
  | none => p.accepted.length

theorem le_kept_iff {p : Past} {k : Nat} : k ≤ p.kept ↔
    k ≤ p.accepted.length ∧ ∀ b ∈ p.bound :: p.earlier, 0 < b → k ≤ b := by
  unfold kept
  split
  · next least hleast =>
    rw [Nat.le_min, List.le_min?_iff hleast]
    simp only [List.mem_filter, decide_eq_true_eq, and_imp]
  · next hnone =>
    rw [List.min?_eq_none_iff, List.filter_eq_nil_iff] at hnone
    simp only [decide_eq_true_eq] at hnone
    exact (and_iff_left fun b hb hpos => absurd hpos (hnone b hb)).symm

theorem kept_le_length (p : Past) : p.kept ≤ p.accepted.length :=
  (le_kept_iff.mp (Nat.le_refl _)).1

theorem kept_le_bound {p : Past} {b : Nat} (hb : b ∈ p.bound :: p.earlier) (hpos : 0 < b) :
    p.kept ≤ b :=
  (le_kept_iff.mp (Nat.le_refl _)).2 b hb hpos

end Past

/-- The logger has the settings of its past, and its trace is what the bounds have left of it. -/
structure Follows (l : Logger) (p : Past) : Prop where
  level : l.level = p.level
  packetTrace : l.packetTrace = p.packetTrace
  capacity : l.capacity = p.bound
  suffix : l.entries.toList <:+ p.accepted
  size_le : 0 < p.bound → l.entries.size ≤ p.bound
  kept_le : p.kept ≤ l.entries.size

section Trace

variable {l : Logger} {p : Past}

theorem suffix_last (l : Logger) (n : Nat) : (l.last n).toList <:+ l.entries.toList := by
  rw [last, toList_extract_size]
  exact List.drop_suffix ..

theorem size_last (l : Logger) (n : Nat) : (l.last n).size = min n l.entries.size := by
  rw [last, Array.size_extract]
  omega

/-- What is sure to be kept is kept: enough for a number that is no larger than the accepted entries
are many, nor than any of the bounds. -/
theorem Follows.le_size (h : l.Follows p) {k : Nat} (hk : k ≤ p.accepted.length)
    (hbounds : ∀ b ∈ p.bound :: p.earlier, 0 < b → k ≤ b) : k ≤ l.entries.size :=
  Nat.le_trans (Past.le_kept_iff.mpr ⟨hk, hbounds⟩) h.kept_le

/-- An entry that is accepted is the last one, and only the oldest may go. -/
theorem Follows.push (h : l.Follows p) (e : TraceEntry) : (l.push e).Follows (p.accept e) := by
  have hsuffix : (l.entries.push e).toList <:+ p.accepted ++ [e] := by
    obtain ⟨front, hfront⟩ := h.suffix
    exact ⟨front, by rw [Array.toList_push, ← List.append_assoc, hfront]⟩
  have hlength := (p.accept e).kept_le_length
  have hbounds (b : Nat) (hb : b ∈ p.bound :: p.earlier) : 0 < b → (p.accept e).kept ≤ b :=
    Past.kept_le_bound (p := p.accept e) hb
  have hpushed : (l.entries.push e).size = l.entries.size + 1 := Array.size_push ..
  have hcapacity := h.capacity
  have hbound := h.size_le
  by_cases hfull : 0 < l.capacity ∧ l.capacity < (l.entries.push e).size
  · have hentries : (l.push e).entries = (l.entries.push e).extract 1 (l.entries.push e).size :=
      if_pos hfull
    have hsize : (l.push e).entries.size = p.bound := by
      rw [hentries, Array.size_extract]
      omega
    refine ⟨h.level, h.packetTrace, h.capacity, ?_, fun _ => Nat.le_of_eq hsize, ?_⟩
    · rw [hentries, toList_extract_size]
      exact (List.drop_suffix ..).trans hsuffix
    · exact Nat.le_trans (hbounds p.bound List.mem_cons_self (by omega)) (Nat.le_of_eq hsize.symm)
  · have hentries : (l.push e).entries = l.entries.push e := if_neg hfull
    have hsize : (l.push e).entries.size = l.entries.size + 1 := by rw [hentries, hpushed]
    refine ⟨h.level, h.packetTrace, h.capacity, ?_, ?_, ?_⟩
    · rwa [hentries]
    · intro hpos
      have hroom : l.entries.size + 1 ≤ p.bound := by
        replace hpos : 0 < p.bound := hpos
        omega
      exact Nat.le_trans (Nat.le_of_eq hsize) hroom
    · -- One more is sure to be kept at most, and one more is there.
      have hbefore : (p.accept e).kept - 1 ≤ l.entries.size := by
        refine h.le_size ?_ fun b hb hpos => Nat.le_trans (Nat.sub_le ..) (hbounds b hb hpos)
        rw [Past.accept, List.length_append, List.length_singleton] at hlength
        exact Nat.sub_le_of_le_add hlength
      omega

theorem Follows.setCapacity (h : l.Follows p) (n : Nat) :
    (l.setCapacity n).Follows { p with bound := n, earlier := p.bound :: p.earlier } := by
  let q : Past := { p with bound := n, earlier := p.bound :: p.earlier }
  have hbefore : q.kept ≤ l.entries.size :=
    h.le_size q.kept_le_length fun b hb hpos =>
      Past.kept_le_bound (p := q) (List.mem_cons_of_mem _ hb) hpos
  unfold Logger.setCapacity
  split
  · next hfull =>
    have hsize : (l.last n).size = n :=
      (l.size_last n).trans (Nat.min_eq_left (Nat.le_of_lt hfull.2))
    refine ⟨h.level, h.packetTrace, rfl, (l.suffix_last n).trans h.suffix, ?_, ?_⟩
    · exact fun _ => Nat.le_of_eq hsize
    · exact Nat.le_trans (Past.kept_le_bound (p := q) List.mem_cons_self hfull.1)
        (Nat.le_of_eq hsize.symm)
  · next hroom =>
    refine ⟨h.level, h.packetTrace, rfl, h.suffix, ?_, hbefore⟩
    exact fun hpos => Nat.not_lt.mp fun hlt => hroom ⟨hpos, hlt⟩

theorem files_setCapacity (l : Logger) (n : Nat) :
    (l.setCapacity n).output = l.output ∧ (l.setCapacity n).writes = l.writes := by
  unfold setCapacity
  split <;> exact ⟨rfl, rfl⟩

theorem Follows.clear (h : l.Follows p) :
    l.clear.Follows { p with accepted := [], earlier := [] } :=
  ⟨h.level, h.packetTrace, h.capacity, List.suffix_refl _, fun _ => Nat.zero_le _,
    Past.kept_le_length _⟩

theorem Follows.tracesPackets_iff (h : l.Follows p) :
    l.tracesPackets = true ↔ p.packetTrace = true ∧ p.level = .trace := by
  have htop (level : LogLevel) : LogLevel.trace ≤ level ↔ level = .trace := by
    cases level <;> decide
  rw [tracesPackets, Bool.and_eq_true, decide_eq_true_iff, htop, h.packetTrace, h.level]

theorem Follows.enabled_debug_iff (h : l.Follows p) :
    l.enabled .debug = true ↔ p.level = .debug ∨ p.level = .trace := by
  rw [enabled, h.level]
  cases p.level <;> decide

theorem Follows.enabled_iff (h : l.Follows p) (level : LogLevel) :
    l.enabled level = true ↔ level ≠ .none ∧ level ≤ p.level := by
  rw [enabled, Bool.and_eq_true, bne_iff_ne, decide_eq_true_iff, h.level]

/-- The logger goes by the rule. -/
theorem Follows.offer_eq (h : l.Follows p) (e : TraceEntry) :
    l.offer e = if p.Allows e then l.push e else l := by
  by_cases he : p.Allows e
  · rw [if_pos he]
    cases e with
    | packet => exact if_pos (h.tracesPackets_iff.mpr he)
    | scroll => exact if_pos (h.enabled_debug_iff.mpr he)
    | message level => exact if_pos ((h.enabled_iff level).mpr he)
  · rw [if_neg he]
    cases e with
    | packet => exact if_neg (mt h.tracesPackets_iff.mp he)
    | scroll => exact if_neg (mt h.enabled_debug_iff.mp he)
    | message level => exact if_neg (mt (h.enabled_iff level).mp he)

/-- An entry that is allowed is the last of the trace once it is logged. -/
theorem back?_push (l : Logger) (e : TraceEntry) : (l.push e).entries.back? = some e := by
  have hlast : (l.entries.push e).back? = some e := Array.back?_push ..
  unfold Logger.push
  dsimp only
  split
  · next hfull =>
    have hmore : ¬ (l.entries.push e).toList.length ≤ 1 := by
      rw [Array.length_toList, Array.size_push] at *
      omega
    rw [← Array.getLast?_toList, toList_extract_size, List.getLast?_drop, if_neg hmore,
      Array.getLast?_toList, hlast]
  · exact hlast

end Trace

/-- The log file has all that was accepted since it was opened. -/
inductive Mirrors {ω : Type} (Holds : ω → FileHandle → String → Prop) (w : ω) :
    Option (List TraceEntry) → Option FileHandle → Prop where
  | closed : Mirrors Holds w none none
  | opened {es : List TraceEntry} {file : FileHandle} : Holds w file (TraceEntry.lines es) →
      Mirrors Holds w (some es) (some file)

theorem Mirrors.mono {ω : Type} {Holds : ω → FileHandle → String → Prop} {w w' : ω}
    {logged : Option (List TraceEntry)} {output : Option FileHandle}
    (h : Mirrors Holds w logged output)
    (hheld : ∀ {file text}, Holds w file text → Holds w' file text) :
    Mirrors Holds w' logged output := by
  cases h with
  | closed => exact .closed
  | opened hholds => exact .opened (hheld hholds)

/-- Where a logger and the files stand after what was done to them. Nothing is left to be
written. -/
structure Stands {ω : Type} (Sound : ω → Prop) (Holds : ω → FileHandle → String → Prop)
    (l : Logger) (p : Past) (w : ω) : Prop where
  follows : l.Follows p
  sound : Sound w
  mirrors : Mirrors Holds w p.logged l.output
  settled : l.writes = []

section Run

variable {ω : Type} [Files (StateM ω)] {Sound : ω → Prop} {Holds : ω → FileHandle → String → Prop}
  {l l' : Logger} {p : Past} {w w' : ω}

/-- The line of an accepted entry is written behind those that the file has. -/
theorem Stands.push (hr : Retains ω Sound Holds) (h : l.Stands Sound Holds p w) (e : TraceEntry)
    (hrun : ((l.push e).flush : StateM ω _).run w = (l', w')) :
    l'.Stands Sound Holds (p.accept e) w' := by
  obtain ⟨hfollows, hsound, hmirrors, hsettled⟩ := h
  generalize houtput : l.output = output, hlogged : p.logged = logged at hmirrors
  have hwrites : (l.push e).writes = l.output.toList.map fun file => (file, e.line) := by
    rw [Logger.push, hsettled]
    rfl
  have hfollows' := hfollows.push e
  have hlogged' : (p.accept e).logged = logged.map (· ++ [e]) := hlogged ▸ rfl
  rw [flush, hwrites, houtput] at hrun
  cases hmirrors with
  | closed =>
    cases hrun
    refine ⟨{ hfollows' with }, hsound, ?_, rfl⟩
    rw [hlogged', show (l.push e).output = none from houtput]
    exact .closed
  | @opened es file hholds =>
    cases ha : (Files.append file e.line : StateM ω _).run w with
    | mk r w₁ =>
    replace hrun : (({ l.push e with writes := [] } : Logger),
      ((Files.append file e.line : StateM ω _).run w).2) = (l', w') := hrun
    rw [ha] at hrun
    cases hrun
    refine ⟨{ hfollows' with }, hr.append_sound hsound ha, ?_, rfl⟩
    rw [hlogged', show (l.push e).output = some file from houtput, Option.map_some]
    refine .opened ?_
    rw [TraceEntry.lines_append]
    exact hr.appended hholds ha

/-- An entry that is refused leaves nothing to be written. -/
theorem Stands.flush (h : l.Stands Sound Holds p w)
    (hrun : (l.flush : StateM ω _).run w = (l', w')) : l'.Stands Sound Holds p w' := by
  rw [Logger.flush, h.settled] at hrun
  cases hrun
  exact ⟨{ h.follows with }, h.sound, h.mirrors, rfl⟩

/-- What is done to a logger is done to what is told of it. -/
theorem Stands.act (hr : Retains ω Sound Holds) (h : l.Stands Sound Holds p w) {a : LogAct}
    {answer : Except HostError Unit} (hrun : (l.act a : StateM ω _).run w = ((answer, l'), w')) :
    l'.Stands Sound Holds (p.after a answer) w' := by
  cases a with
  | setLevel level =>
    cases hrun
    exact ⟨{ h.follows with level := rfl }, h.sound, h.mirrors, h.settled⟩
  | tracePackets on =>
    cases hrun
    exact ⟨{ h.follows with packetTrace := rfl }, h.sound, h.mirrors, h.settled⟩
  | setCapacity n =>
    cases hrun
    obtain ⟨houtput, hwrites⟩ := l.files_setCapacity n
    refine ⟨h.follows.setCapacity n, h.sound, ?_, hwrites.trans h.settled⟩
    rw [houtput]
    exact h.mirrors
  | clear =>
    cases hrun
    exact ⟨h.follows.clear, h.sound, h.mirrors, h.settled⟩
  | offer e =>
    cases hflush : ((l.offer e).flush : StateM ω _).run w with
    | mk l₁ w₁ =>
    replace hrun : ((Except.ok (), ((l.offer e).flush : StateM ω _).run w |>.1),
      ((l.offer e).flush : StateM ω _).run w |>.2) = ((answer, l'), w') := hrun
    rw [hflush] at hrun
    cases hrun
    rw [h.follows.offer_eq] at hflush
    rw [Past.after]
    split at hflush
    · next hallowed =>
      rw [if_pos hallowed]
      exact h.push hr e hflush
    · next hrefused =>
      rw [if_neg hrefused]
      exact h.flush hflush
  | openFile path =>
    cases hc : (Files.create path : StateM ω _).run w with
    | mk r w₁ =>
    have hsound := hr.create_sound h.sound hc
    rw [Logger.act, StateT.run_bind, hc] at hrun
    cases r with
    | ok handle =>
      cases hrun
      exact ⟨{ h.follows with }, hsound, .opened (hr.created h.sound hc), h.settled⟩
    | error e =>
      cases hrun
      exact ⟨h.follows, hsound, h.mirrors.mono fun hholds => hr.refused hholds hc, h.settled⟩
  | closeFile =>
    cases hrun
    exact ⟨{ h.follows with }, h.sound, .closed, h.settled⟩

theorem run_actAll_cons (l : Logger) (w : ω) (a : LogAct) (rest : List LogAct) :
    (l.actAll (a :: rest) : StateM ω _).run w =
      let first := (l.act a : StateM ω _).run w
      let later := (first.1.2.actAll rest : StateM ω _).run first.2
      ((first.1.1 :: later.1.1, later.1.2), later.2) := rfl

theorem Stands.actAll (hr : Retains ω Sound Holds) (h : l.Stands Sound Holds p w)
    {acts : List LogAct} {answers : List (Except HostError Unit)}
    (hrun : (l.actAll acts : StateM ω _).run w = ((answers, l'), w')) :
    answers.length = acts.length ∧
      l'.Stands Sound Holds ((acts.zip answers).foldl (fun p act => p.after act.1 act.2) p) w' := by
  induction acts generalizing l p w answers with
  | nil =>
    cases hrun
    exact ⟨rfl, h⟩
  | cons a rest ih =>
    cases hact : (l.act a : StateM ω _).run w with
    | mk r w₁ =>
    obtain ⟨answer, l₁⟩ := r
    cases hlater : (l₁.actAll rest : StateM ω _).run w₁ with
    | mk r w₂ =>
    obtain ⟨later, l₂⟩ := r
    simp only [run_actAll_cons, hact, hlater] at hrun
    cases hrun
    obtain ⟨hlength, hlast⟩ := ih (h.act hr hact) hlater
    exact ⟨congrArg (· + 1) hlength, hlast⟩

end Run

/-- What the trace of a logger is after what was done to it: the last of the entries accepted since
it was cleared, no more than its bound, and as many as the bounds have allowed. The next entry joins
them at the end, or it does not if it is not allowed. -/
structure Keeps (l : Logger) (p : Past) : Prop where
  suffix : l.entries.toList <:+ p.accepted
  size_le : 0 < p.bound → l.entries.size ≤ p.bound
  kept_le : p.kept ≤ l.entries.size
  last : ∀ n, (l.last n).toList <:+ l.entries.toList ∧ (l.last n).size = min n l.entries.size
  allowed : ∀ e, p.Allows e → (l.offer e).entries.back? = some e
  refused : ∀ e, ¬ p.Allows e → l.offer e = l

theorem Follows.keeps {l : Logger} {p : Past} (h : l.Follows p) : l.Keeps p where
  suffix := h.suffix
  size_le := h.size_le
  kept_le := h.kept_le
  last n := ⟨l.suffix_last n, l.size_last n⟩
  allowed e he := by rw [h.offer_eq, if_pos he, back?_push]
  refused e he := by rw [h.offer_eq, if_neg he]

/-- A log file is open if one was opened and not closed, and it has a line for every entry accepted
since then. -/
structure Logs {ω : Type} (Holds : ω → FileHandle → String → Prop) (l : Logger) (p : Past) (w : ω) :
    Prop where
  closed : p.logged = none → l.output = none
  opened : ∀ es, p.logged = some es →
    ∃ file, l.output = some file ∧ Holds w file (TraceEntry.lines es)

theorem Stands.logs {ω : Type} {Sound : ω → Prop} {Holds : ω → FileHandle → String → Prop}
    {l : Logger} {p : Past} {w : ω} (h : l.Stands Sound Holds p w) : l.Logs Holds p w := by
  have hmirrors := h.mirrors
  generalize houtput : l.output = output, hlogged : p.logged = logged at hmirrors
  cases hmirrors with
  | closed =>
    refine ⟨fun _ => houtput, fun es hes => ?_⟩
    cases hlogged.symm.trans hes
  | @opened es file hholds =>
    refine ⟨fun hnone => ?_, fun es' hes => ?_⟩
    · cases hlogged.symm.trans hnone
    · cases hlogged.symm.trans hes
      exact ⟨file, houtput, hholds⟩

theorem stands_silent {ω : Type} {Sound : ω → Prop} {Holds : ω → FileHandle → String → Prop} {w : ω}
    (hw : Sound w) : silent.Stands Sound Holds {} w :=
  ⟨⟨rfl, rfl, rfl, List.suffix_refl _, fun _ => Nat.zero_le _, Past.kept_le_length _⟩, hw, .closed,
    rfl⟩

/-- Whatever the files do, they hold something. -/
theorem retains_true (ω : Type) [Files (StateM ω)] :
    Retains ω (fun _ => True) (fun _ _ _ => True) := by
  constructor <;> intros <;> trivial

/-- The trace is a bounded suffix of what was accepted, and the log file is all of it. Whatever is
done to a new logger, in any order and with any bounds, its trace holds the last of the entries
accepted since it was cleared: no more of them than a bound in force allows, and no fewer than there
are or than the smallest bound since then has allowed. If the files keep what is written to them, an
open log file holds a line for every entry accepted since it was opened, whatever the trace has
given up. -/
theorem trace_is_suffix_and_file_is_all {ω : Type} [Files (StateM ω)] {w w' : ω}
    (acts : List LogAct) {answers : List (Except HostError Unit)} {l : Logger}
    (hrun : (silent.actAll acts : StateM ω _).run w = ((answers, l), w')) :
    answers.length = acts.length ∧ l.Keeps (.ofRun acts answers) ∧
      ∀ (Sound : ω → Prop) (Holds : ω → FileHandle → String → Prop), Retains ω Sound Holds →
        Sound w → l.Logs Holds (.ofRun acts answers) w' := by
  -- What the trace keeps does not depend on the files, so there is nothing to ask of them.
  obtain ⟨hlength, hstands⟩ := (stands_silent trivial).actAll (retains_true ω) hrun
  refine ⟨hlength, hstands.follows.keeps, fun Sound Holds hr hw => ?_⟩
  exact ((stands_silent hw).actAll hr hrun).2.logs

/-- A log file, a bound of two that is lifted again, and messages on both sides of the level. -/
def busyActs : List LogAct :=
  [.openFile "log", .setLevel .debug, .setCapacity 2, .offer (.message .error "a"),
    .offer (.message .info "b"), .offer (.message .trace "c"), .offer (.message .debug "d"),
    .setCapacity 0]

theorem answers_busyActs :
    ((silent.actAll busyActs : StateM FileTree _).run .empty).1.1 = List.replicate 8 (.ok ()) := rfl

theorem trace_and_file_of_busyActs :
    ∃ l t, (silent.actAll busyActs : StateM FileTree _).run .empty =
        ((List.replicate 8 (.ok ()), l), t) ∧
      l.entries.toList <:+ [.message .error "a", .message .info "b", .message .debug "d"] ∧
      2 ≤ l.entries.size ∧
      ∃ file, l.output = some file ∧ t.Holds file "[ERROR] a\n[INFO] b\n[DEBUG] d\n" := by
  have hanswers := answers_busyActs
  cases hrun : (silent.actAll busyActs : StateM FileTree _).run .empty with
  | mk r t =>
  obtain ⟨answers, l⟩ := r
  rw [hrun] at hanswers
  cases hanswers
  obtain ⟨-, hkeeps, hlogs⟩ := trace_is_suffix_and_file_is_all busyActs hrun
  have hlines := (hlogs _ _ FileTree.retains FileTree.sound_empty).opened _ rfl
  exact ⟨l, t, rfl, hkeeps.suffix, hkeeps.kept_le, hlines⟩

end Logger
end DiscGraphics
