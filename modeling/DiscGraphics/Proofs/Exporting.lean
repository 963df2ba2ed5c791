import DiscGraphics.Proofs.Emission
import DiscGraphics.Proofs.Saving
import Mathlib.Data.List.Induction
import Mathlib.Data.List.Nodup

/-!
What an exporter has done about the frames it was handed. The pictures due are saved in order, up to
the first whose saving is reported to have failed.
-/
namespace DiscGraphics

/-- The multiples of a number up to another one, in order. Zero has none. -/
def multiples (n up : Nat) : List Nat := (List.range (up / n)).map fun i => n * (i + 1)

theorem multiples_zero_right (n : Nat) : multiples n 0 = [] := by
  rw [multiples, Nat.zero_div]
  rfl

theorem multiples_succ (n up : Nat) :
    multiples n (up + 1) =
      multiples n up ++ if 0 < n ∧ (up + 1) % n = 0 then [up + 1] else [] := by
  rw [multiples, multiples, Nat.succ_div]
  by_cases hdvd : n ∣ up + 1
  · have hmod : (up + 1) % n = 0 := Nat.mod_eq_zero_of_dvd hdvd
    have hpos : 0 < n := Nat.pos_of_dvd_of_pos hdvd up.succ_pos
    have hlast : n * (up / n + 1) = up + 1 := by
      have hdiv : up / n + 1 = (up + 1) / n := by rw [Nat.succ_div, if_pos hdvd]
      rw [hdiv, Nat.mul_div_cancel' hdvd]
    rw [if_pos hdvd, if_pos ⟨hpos, hmod⟩, List.range_succ, List.map_append, List.map_singleton,
      hlast]
  · have hmod : ¬ (0 < n ∧ (up + 1) % n = 0) := fun h => hdvd (Nat.dvd_of_mod_eq_zero h.2)
    rw [if_neg hdvd, if_neg hmod, Nat.add_zero, List.append_nil]

section Names

/-- A padded number can be read back. -/
theorem value_padNumber (w k : Nat) : Nat.ofDigitChars 10 (padNumber w k).toList 0 = k := by
  have hzeros (n : Nat) (digits : List Char) :
      Nat.ofDigitChars 10 (List.replicate n '0' ++ digits) 0 = Nat.ofDigitChars 10 digits 0 := by
    induction n with
    | zero => rfl
    | succ n ih =>
      rw [List.replicate_succ, List.cons_append, Nat.ofDigitChars_cons]
      exact ih
  rw [padNumber, String.toList_append, String.toList_ofList, hzeros, Nat.toString_eq_repr,
    Nat.toList_repr, Nat.ofDigitChars_toDigits (by decide) (by decide)]

theorem toList_frameName (k : Nat) :
    (frameName k).toList = "frame_".toList ++ ((padNumber 8 k).toList ++ ".png".toList) := by
  rw [frameName, String.toList_append, String.toList_append, List.append_assoc]
  rfl

theorem frameName_injective : Function.Injective frameName := by
  intro j k h
  have hnames := congrArg String.toList h
  rw [toList_frameName, toList_frameName] at hnames
  have hdigits := List.append_cancel_right (List.append_cancel_left hnames)
  rw [← value_padNumber 8 j, hdigits, value_padNumber]

theorem join_frameName_injective (base : String) :
    Function.Injective fun k => Path.join base (frameName k) := by
  intro j k h
  have hrelative (n : Nat) : Path.isAbsolute (frameName n) = false := by
    rw [Path.isAbsolute, toList_frameName]
    rfl
  apply frameName_injective
  rw [← String.toList_inj] at h ⊢
  simp only [Path.join, hrelative, Bool.false_eq_true, if_false] at h
  split at h <;> simp only [String.toList_append] at h <;> exact List.append_cancel_left h

end Names

/-- The numbers of the frames up to some number whose pictures are due. The exporter counts in words
of 64 bits. -/
def numbersDue (n : UInt64) (up : Nat) : List Nat :=
  (List.range' 1 up).filter fun k => 0 < n ∧ UInt64.ofNat k % n = 0

theorem numbersDue_succ (n : UInt64) (up : Nat) :
    numbersDue n (up + 1) =
      numbersDue n up ++ if 0 < n ∧ UInt64.ofNat (up + 1) % n = 0 then [up + 1] else [] := by
  rw [numbersDue, List.range'_1_concat, List.filter_append, List.filter_cons, List.filter_nil,
    Nat.add_comm 1]
  simp only [decide_eq_true_eq, numbersDue]

theorem due_iff {k : Nat} (hk : k < UInt64.size) (n : UInt64) :
    0 < n ∧ UInt64.ofNat k % n = 0 ↔ 0 < n.toNat ∧ k % n.toNat = 0 := by
  rw [UInt64.lt_iff_toNat_lt, ← UInt64.toNat_inj, UInt64.toNat_mod, UInt64.toNat_ofNat_of_lt' hk,
    UInt64.toNat_zero]

/-- As long as the count is right, these are the multiples of the interval. -/
theorem numbersDue_eq_multiples (n : UInt64) {up : Nat} (h : up < UInt64.size) :
    numbersDue n up = multiples n.toNat up := by
  induction up with
  | zero => exact (multiples_zero_right _).symm
  | succ up ih =>
    rw [numbersDue_succ, multiples_succ, ih (Nat.lt_of_succ_lt h)]
    simp only [due_iff h]

theorem le_of_mem_numbersDue {n : UInt64} {up k : Nat} (h : k ∈ numbersDue n up) : k ≤ up := by
  have hmem := (List.mem_range'_1.mp (List.mem_filter.mp h).1).2
  omega

/-- Where the picture of the `k`-th frame goes. -/
def ExportConfig.framePath (config : ExportConfig) (source : Option String) (k : Nat) : String :=
  Path.join (exportDirectory config.outputDirectory source) (frameName (UInt64.ofNat k).toNat)

theorem ExportConfig.framePath_of_lt (config : ExportConfig) (source : Option String) {k : Nat}
    (h : k < UInt64.size) : config.framePath source k =
      Path.join (exportDirectory config.outputDirectory source) (frameName k) := by
  rw [framePath, UInt64.toNat_ofNat_of_lt' h]

/-- As long as the count is right, no two frames go to one file. -/
theorem ExportConfig.nodup_framePath (config : ExportConfig) (source : Option String) (n : UInt64)
    {up : Nat} (h : up < UInt64.size) :
    ((numbersDue n up).map (config.framePath source)).Nodup := by
  have hlt {k : Nat} (hk : k ∈ numbersDue n up) : k < UInt64.size :=
    Nat.lt_of_le_of_lt (le_of_mem_numbersDue hk) h
  refine List.Nodup.map_on ?_ ((List.nodup_range').filter _)
  intro j hj k hk hpaths
  rw [config.framePath_of_lt source (hlt hj), config.framePath_of_lt source (hlt hk)] at hpaths
  exact join_frameName_injective _ hpaths

/-- The picture of the `k`-th frame with its path, if one is due. -/
def ExportConfig.dueAt (config : ExportConfig) (source : Option String) (f : Frame) (k : Nat) :
    Option (String × Picture) :=
  if 0 < config.frameInterval ∧ UInt64.ofNat k % config.frameInterval = 0 then
    some (config.framePath source k, f.picture config.cropBorder)
  else none

/-- The pictures that are due once some frames were handed over. -/
def ExportConfig.due (config : ExportConfig) (source : Option String) (frames : List Frame) :
    List (String × Picture) :=
  (frames.zipIdx 1).filterMap fun p => config.dueAt source p.1 p.2

theorem ExportConfig.due_snoc (config : ExportConfig) (source : Option String)
    (frames : List Frame) (f : Frame) :
    config.due source (frames ++ [f]) =
      config.due source frames ++ (config.dueAt source f (frames.length + 1)).toList := by
  rw [due, due, List.zipIdx_append, List.filterMap_append, List.zipIdx_singleton, Nat.add_comm 1,
    List.filterMap_cons]
  cases config.dueAt source f (frames.length + 1) <;> rfl

/-- Pictures known by the numbers of their frames are due by those numbers. -/
theorem ExportConfig.due_eq_map (config : ExportConfig) (source : Option String)
    (frames : List Frame) {picture : Nat → Picture}
    (h : ∀ i f, frames[i]? = some f → f.picture config.cropBorder = picture (i + 1)) :
    config.due source frames = (numbersDue config.frameInterval frames.length).map fun k =>
      (config.framePath source k, picture k) := by
  induction frames using List.reverseRecOn with
  | nil => rfl
  | append_singleton frames f ih =>
    have hbefore : ∀ i g, frames[i]? = some g → g.picture config.cropBorder = picture (i + 1) := by
      intro i g hg
      obtain ⟨hi, -⟩ := List.getElem?_eq_some_iff.mp hg
      exact h i g (by rw [List.getElem?_append_left hi, hg])
    have hlast : f.picture config.cropBorder = picture (frames.length + 1) :=
      h frames.length f List.getElem?_concat_length
    rw [due_snoc, ih hbefore, List.length_append, List.length_singleton, numbersDue_succ,
      List.map_append, dueAt, hlast]
    congr 1
    split <;> rfl

/-- Something is done about each of some pictures in turn. -/
inductive InTurn (Does : String × Picture → List Deed → Prop) :
    List (String × Picture) → List Deed → Prop where
  | nil : InTurn Does [] []
  | snoc {due : List (String × Picture)} {deeds more : List Deed} {p : String × Picture} :
      InTurn Does due deeds → Does p more → InTurn Does (due ++ [p]) (deeds ++ more)

theorem InTurn.eq_nil {Does : String × Picture → List Deed → Prop} {deeds : List Deed}
    (h : InTurn Does [] deeds) : deeds = [] := by
  generalize hdue : ([] : List (String × Picture)) = due at h
  cases h with
  | nil => rfl
  | snoc => exact absurd hdue.symm (by simp)

theorem InTurn.of_snoc {Does : String × Picture → List Deed → Prop}
    (due : List (String × Picture)) {p : String × Picture} {deeds : List Deed}
    (h : InTurn Does (due ++ [p]) deeds) :
    ∃ before last, InTurn Does due before ∧ Does p last ∧ deeds = before ++ last := by
  generalize hall : due ++ [p] = all at h
  cases h with
  | nil => exact absurd hall (by simp)
  | snoc hbefore hlast =>
    obtain ⟨rfl, hp⟩ := List.append_inj' hall rfl
    cases hp
    exact ⟨_, _, hbefore, hlast, rfl⟩

theorem InTurn.mono {Does Does' : String × Picture → List Deed → Prop}
    {due : List (String × Picture)} {deeds : List Deed} (h : InTurn Does due deeds)
    (himp : ∀ p more, (∀ deed ∈ more, deed ∈ deeds) → Does p more → Does' p more) :
    InTurn Does' due deeds := by
  induction h with
  | nil => exact .nil
  | snoc _ hdoes ih =>
    have hearlier := ih fun p more hmem =>
      himp p more fun deed hdeed => List.mem_append_left _ (hmem deed hdeed)
    exact hearlier.snoc (himp _ _ (fun _ hdeed => List.mem_append_right _ hdeed) hdoes)

variable [PngEncoder]

/-- How the saving of some pictures can go, and what is then reported: none is reported to have
failed, or it ends with the first that is. -/
inductive Written (due : List (String × Picture)) :
    List Deed → Except ExportError (Array String) → Prop where
  | all {deeds : List Deed} : InTurn (Saves · · (.ok ())) due deeds →
      Written due deeds (.ok (due.map Prod.fst).toArray)
  | cut (before after : List (String × Picture)) (p : String × Picture) (e : ExportError)
      {deeds more : List Deed} : due = before ++ p :: after →
      InTurn (Saves · · (.ok ())) before deeds → Saves p more (.error e) →
      Written due (deeds ++ more) (.error e)

section Written

variable {due : List (String × Picture)} {deeds : List Deed}
  {result : Except ExportError (Array String)}

theorem Written.more_due {e : ExportError} (h : Written due deeds (.error e))
    (later : List (String × Picture)) : Written (due ++ later) deeds (.error e) := by
  cases h with
  | cut before after p _ hdue hbefore hfailed =>
    refine .cut before (after ++ later) p e ?_ hbefore hfailed
    rw [hdue, List.append_assoc, List.cons_append]

theorem Written.of_ok {paths : Array String} (h : Written due deeds (.ok paths)) :
    InTurn (Saves · · (.ok ())) due deeds ∧ paths = (due.map Prod.fst).toArray := by
  cases h with
  | all hall => exact ⟨hall, rfl⟩

/-- Without a refusal every picture is saved whole. -/
theorem Written.whole_of_unrefused (h : Written due deeds result)
    (hnone : ∀ deed ∈ deeds, ¬ deed.Refused) :
    InTurn SavedWhole due deeds ∧ result = .ok (due.map Prod.fst).toArray := by
  cases h with
  | all hall =>
    refine ⟨hall.mono fun p more hmem hsaves => ?_, rfl⟩
    exact (hsaves.whole_of_unrefused fun deed hdeed => hnone deed (hmem deed hdeed)).1
  | cut before after p e hdue hbefore hfailed =>
    have hno := hfailed.whole_of_unrefused fun deed hdeed =>
      hnone deed (List.mem_append_right _ hdeed)
    cases hno.2

end Written

/-- Where an exporter stands after some frames, beside what it has asked of the files. -/
structure FrameExporter.Stands (config : ExportConfig) (source : Option String)
    (frames : List Frame) (deeds : List Deed) (e : FrameExporter) : Prop where
  directory : e.directory = exportDirectory config.outputDirectory source
  interval : e.interval = config.frameInterval
  cropBorder : e.cropBorder = config.cropBorder
  framesSeen : e.framesSeen = UInt64.ofNat frames.length
  written : Written (config.due source frames) deeds e.finish

namespace FrameExporter

variable {config : ExportConfig} {source : Option String} {frames : List Frame}
  {deeds : List Deed} {e : FrameExporter}

/-- Where the picture of the next frame goes. -/
def nextPath (e : FrameExporter) : String :=
  Path.join e.directory (frameName (e.framesSeen + 1).toNat)

/-- A frame that is counted, and nothing else. -/
def counted (e : FrameExporter) : FrameExporter := { e with framesSeen := e.framesSeen + 1 }

/-- How an exporter takes the answer to saving the picture of the next frame. -/
def answered (e : FrameExporter) : Except ExportError Unit → FrameExporter
  | .ok () => { e.counted with written := e.written.push e.nextPath }
  | .error error => { e.counted with failure := some error }

theorem Stands.seen_snoc (h : Stands config source frames deeds e) (f : Frame) :
    e.framesSeen + 1 = UInt64.ofNat (frames ++ [f]).length := by
  rw [h.framesSeen, List.length_append, List.length_singleton, UInt64.ofNat_add]
  rfl

theorem Stands.dueAt_next (h : Stands config source frames deeds e) (f : Frame) :
    config.dueAt source f (frames.length + 1) =
      if 0 < e.interval ∧ (e.framesSeen + 1) % e.interval = 0 then
        some (e.nextPath, f.picture e.cropBorder)
      else none := by
  have hseen := h.seen_snoc f
  rw [List.length_append, List.length_singleton] at hseen
  rw [ExportConfig.dueAt, ExportConfig.framePath, nextPath, h.directory, h.interval, h.cropBorder,
    hseen]

/-- A frame whose picture is due, and how its saving went. -/
theorem Stands.answered (h : Stands config source frames deeds e)
    (hw : e.Wanted (e.framesSeen + 1)) (f : Frame) {more : List Deed}
    {answer : Except ExportError Unit}
    (hsaves : Saves (e.nextPath, f.picture e.cropBorder) more answer) :
    Stands config source (frames ++ [f]) (deeds ++ more) (e.answered answer) := by
  obtain ⟨hpos, hnone, hmod⟩ := hw
  have hdue : config.due source (frames ++ [f]) =
      config.due source frames ++ [(e.nextPath, f.picture e.cropBorder)] := by
    rw [config.due_snoc, h.dueAt_next, if_pos ⟨hpos, hmod⟩]
    rfl
  have hwritten := h.written
  rw [finish, hnone] at hwritten
  obtain ⟨hbefore, hpaths⟩ := hwritten.of_ok
  cases answer with
  | ok =>
    refine ⟨h.directory, h.interval, h.cropBorder, h.seen_snoc f, ?_⟩
    have hfinish : (e.answered (.ok ())).finish =
        .ok ((config.due source (frames ++ [f])).map Prod.fst).toArray := by
      rw [finish, FrameExporter.answered, counted, hnone, hpaths, hdue, List.map_append]
      simp
    rw [hfinish]
    refine .all ?_
    rw [hdue]
    exact hbefore.snoc hsaves
  | error error =>
    refine ⟨h.directory, h.interval, h.cropBorder, h.seen_snoc f, ?_⟩
    exact .cut _ [] _ error hdue hbefore hsaves

/-- A frame whose picture is not due, or comes after a failure. -/
theorem Stands.counted (h : Stands config source frames deeds e)
    (hw : ¬ e.Wanted (e.framesSeen + 1)) (f : Frame) :
    Stands config source (frames ++ [f]) deeds e.counted := by
  refine ⟨h.directory, h.interval, h.cropBorder, h.seen_snoc f, ?_⟩
  have hwritten := h.written
  have hfinish : e.counted.finish = e.finish := rfl
  rw [hfinish, config.due_snoc, h.dueAt_next]
  by_cases hdue : 0 < e.interval ∧ (e.framesSeen + 1) % e.interval = 0
  · -- A picture was due, so something had failed before.
    obtain ⟨error, herror⟩ := Option.ne_none_iff_exists'.mp fun hnone => hw ⟨hdue.1, hnone, hdue.2⟩
    rw [finish, herror] at hwritten ⊢
    exact hwritten.more_due _
  · rw [if_neg hdue, Option.toList_none, List.append_nil]
    exact hwritten

section Files

variable {m : Type → Type} [Monad m] [Files m]

theorem onFrame_of_wanted [LawfulMonad m] (h : e.Wanted (e.framesSeen + 1)) (f : Frame) :
    (e.onFrame f : m FrameExporter) = e.answered <$> f.save e.nextPath e.cropBorder := by
  have hseen : e.counted.Wanted (e.framesSeen + 1) := h
  unfold onFrame
  dsimp only
  rw [counted] at hseen
  rw [if_pos hseen, map_eq_pure_bind]
  congr 1
  funext answer
  cases answer <;> rfl

theorem onFrame_of_not_wanted (h : ¬ e.Wanted (e.framesSeen + 1)) (f : Frame) :
    (e.onFrame f : m FrameExporter) = pure e.counted := by
  unfold onFrame
  exact if_neg h

end Files

variable {ω : Type} [Files (StateM ω)]

/-- One more frame: its picture is saved if it is due and nothing has failed before. -/
theorem Stands.onFrame (h : Stands config source frames deeds e) (f : Frame) (c : Chronicle ω) :
    let r := (e.onFrame f : StateM (Chronicle ω) FrameExporter).run c
    ∃ more, c.Grows more [] r.2 ∧ Stands config source (frames ++ [f]) (deeds ++ more) r.1 := by
  by_cases hw : e.Wanted (e.framesSeen + 1)
  · rw [onFrame_of_wanted hw]
    obtain ⟨more, hgrows, hsaves⟩ := f.save_saves e.nextPath e.cropBorder c
    exact ⟨more, hgrows, h.answered hw f hsaves⟩
  · rw [onFrame_of_not_wanted hw]
    refine ⟨[], .refl c, ?_⟩
    rw [List.append_nil]
    exact h.counted hw f

omit [PngEncoder] in
/-- Lines of a log are left out of a chronicle. -/
theorem grows_writeLines (lines : List (FileHandle × String)) (c : Chronicle ω) :
    c.Grows [] [] ((Logger.writeLines lines : StateM (Chronicle ω) Unit).run c).2 := by
  induction lines generalizing c with
  | nil => exact .refl c
  | cons line rest ih =>
    exact (Chronicle.grows_ignore (Files.append line.1 line.2) c).trans (ih _)

theorem Stands.passOn (h : Stands config source frames deeds e) (frame? : Option Frame)
    (c : Chronicle ω) :
    let r := (passOn FrameExporter.onFrame e frame? : StateM (Chronicle ω) FrameExporter).run c
    ∃ more, c.Grows more [] r.2 ∧
      Stands config source (frames ++ frame?.toList) (deeds ++ more) r.1 := by
  cases frame? with
  | none =>
    refine ⟨[], .refl c, ?_⟩
    rw [Option.toList_none, List.append_nil, List.append_nil]
    exact h
  | some f => exact h.onFrame f c

/-- Whatever else is sent out between them, the frames of a run reach the exporter in order. -/
theorem Stands.deliver (h : Stands config source frames deeds e) (emissions : List Emission)
    (c : Chronicle ω) :
    let r := (deliver FrameExporter.onFrame emissions e : StateM (Chronicle ω) FrameExporter).run c
    ∃ more, c.Grows more [] r.2 ∧
      Stands config source (frames ++ emissions.filterMap Emission.frame?) (deeds ++ more) r.1 := by
  induction emissions generalizing frames deeds e c with
  | nil =>
    refine ⟨[], .refl c, ?_⟩
    rw [List.filterMap_nil, List.append_nil, List.append_nil]
    exact h
  | cons emission rest ih =>
    have hlines := grows_writeLines emission.lines c
    obtain ⟨first, hfirst, hstands⟩ := h.passOn emission.frame?
      ((Logger.writeLines emission.lines : StateM (Chronicle ω) Unit).run c).2
    obtain ⟨later, hlater, hlast⟩ := ih hstands _
    refine ⟨first ++ later, hlines.trans (hfirst.trans hlater), ?_⟩
    have hframes : (emission :: rest).filterMap Emission.frame? =
        emission.frame?.toList ++ rest.filterMap Emission.frame? := by
      rw [List.filterMap_cons]
      cases emission.frame? <;> rfl
    rw [hframes, ← List.append_assoc, ← List.append_assoc]
    exact hlast

end FrameExporter
end DiscGraphics
