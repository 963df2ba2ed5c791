import DiscGraphics.Proofs.ExportedPictures
import DiscGraphics.Proofs.Paths

/-!
Where exports go: into one directory, one step below the output directory, unless the name of the
source is two or three dots and an extension.
-/
namespace DiscGraphics
open DiscGraphics.Path (Ordinary Descends DotsAndExtension)

/-- The name that the directory of a source is given. -/
def sourceName (source : Option String) : String := (source.bind Path.fileStem?).getD "default"

theorem exportDirectory_eq (base : String) (source : Option String) :
    exportDirectory base source = Path.join base (sourceName source) := rfl

/-- A source whose name is two or three dots and an extension. -/
def NamedByDots (source : Option String) : Prop :=
  ∃ name ∈ source.bind Path.fileName?, DotsAndExtension name

/-- The name is a stem, unless there is no name to take one from. -/
theorem sourceName_eq (source : Option String) :
    sourceName source = ((source.bind Path.fileName?).map Path.stem).getD "default" := by
  cases source <;> rfl

theorem ordinary_sourceName_iff (source : Option String) :
    Ordinary (sourceName source) ↔ ¬ NamedByDots source := by
  rw [sourceName_eq, NamedByDots]
  cases hname : source.bind Path.fileName? with
  | none =>
    have hdefault : Ordinary "default" := ⟨by decide, by decide, by decide, by decide⟩
    simpa using hdefault
  | some name =>
    obtain ⟨path, -, hpath⟩ := Option.bind_eq_some_iff.mp hname
    simpa using Path.ordinary_stem_iff (Path.ordinary_of_fileName? hpath)

/-- What is left of such a name. -/
theorem sourceName_of_namedByDots {source : Option String} (h : NamedByDots source) :
    sourceName source = "." ∨ sourceName source = ".." := by
  obtain ⟨name, hname, hdots⟩ := h
  obtain ⟨path, -, hpath⟩ := Option.bind_eq_some_iff.mp hname
  rw [sourceName_eq, hname]
  exact Path.stem_of_dotsAndExtension (Path.ordinary_of_fileName? hpath) hdots

section PictureNames

/-- A text that begins with a letter other than a dot is no step by itself. -/
theorem ordinary_of_head {name : String} {c : Char} {cs : List Char} (h : name.toList = c :: cs)
    (hdot : c ≠ '.') (hslash : '/' ∉ name.toList) : Ordinary name := by
  refine ⟨?_, ?_, ?_, hslash⟩ <;> rintro rfl
  · cases h
  · exact hdot (List.cons.inj h).1.symm
  · exact hdot (List.cons.inj h).1.symm

theorem not_mem_padNumber {c : Char} (h : c.isDigit = false) (w k : Nat) :
    c ∉ (padNumber w k).toList := by
  have hzero : c ≠ '0' := by
    rintro rfl
    exact absurd h (by decide)
  rw [padNumber, String.toList_append, String.toList_ofList, Nat.toString_eq_repr, Nat.toList_repr,
    List.mem_append, not_or]
  refine ⟨fun hc => hzero (List.eq_of_mem_replicate hc), fun hc => ?_⟩
  rw [Nat.isDigit_of_mem_toDigits (by decide) (by decide) hc] at h
  cases h

theorem ordinary_frameName (k : Nat) : Ordinary (frameName k) := by
  have hpad := not_mem_padNumber (c := '/') (by decide) 8 k
  refine ordinary_of_head (toList_frameName k) (by decide) ?_
  rw [toList_frameName, List.mem_append, List.mem_append, not_or, not_or]
  exact ⟨by decide, hpad, by decide⟩

theorem not_mem_stamp (now : Moment) : '/' ∉ now.stamp.toList := by
  have hpad (w k : Nat) := not_mem_padNumber (c := '/') (by decide) w k
  have hline : '/' ∉ "_".toList := by decide
  simp only [Moment.stamp, String.toList_append, List.mem_append, not_or]
  exact ⟨⟨⟨⟨⟨⟨hpad _ _, hpad _ _⟩, hpad _ _⟩, hline⟩, hpad _ _⟩, hpad _ _⟩, hpad _ _⟩

theorem FinalName.ordinary {name : String} (h : FinalName name) : Ordinary name := by
  obtain rfl | ⟨now, rfl⟩ := h
  · exact ⟨by decide, by decide, by decide, by decide⟩
  · have hlist : (s!"final_{now.stamp}.png").toList =
        "final_".toList ++ (now.stamp.toList ++ ".png".toList) := by
      rw [String.toList_append, String.toList_append, List.append_assoc]
      rfl
    refine ordinary_of_head hlist (by decide) ?_
    rw [hlist, List.mem_append, List.mem_append, not_or, not_or]
    exact ⟨by decide, not_mem_stamp now, by decide⟩

end PictureNames

/-- Whether something that is asked of the files keeps to a directory: it makes the directory, makes
a file in it by an ordinary name, or writes to a file that was made so. -/
inductive Deed.KeepsTo (directory : String) (deeds : List Deed) : Deed → Prop where
  | madeDirectories (answer : Except HostError Unit) :
      KeepsTo directory deeds (.madeDirectories directory answer)
  | created {name : String} (answer : Except HostError FileHandle) : Ordinary name →
      KeepsTo directory deeds (.created (Path.join directory name) answer)
  | wrote {name : String} {file : FileHandle} (data : ByteArray)
      (answer : Except (HostError × Nat) Unit) : Ordinary name →
      .created (Path.join directory name) (.ok file) ∈ deeds →
      KeepsTo directory deeds (.wrote file data answer)

section KeepsTo

variable {directory : String}

theorem Deed.KeepsTo.mono {deeds more : List Deed} {deed : Deed} (h : deed.KeepsTo directory deeds)
    (hsub : ∀ d ∈ deeds, d ∈ more) : deed.KeepsTo directory more := by
  cases h with
  | madeDirectories answer => exact .madeDirectories answer
  | created answer hname => exact .created answer hname
  | wrote data answer hname hmade => exact .wrote data answer hname (hsub _ hmade)

theorem keepsTo_madeDirectories (directory : String) (answer : Except HostError Unit) :
    ∀ deed ∈ [Deed.madeDirectories directory answer],
      deed.KeepsTo directory [.madeDirectories directory answer] := by
  intro deed hdeed
  rw [List.mem_singleton.mp hdeed]
  exact .madeDirectories answer

theorem keepsTo_append {xs ys : List Deed} (hx : ∀ deed ∈ xs, deed.KeepsTo directory xs)
    (hy : ∀ deed ∈ ys, deed.KeepsTo directory ys) :
    ∀ deed ∈ xs ++ ys, deed.KeepsTo directory (xs ++ ys) := by
  refine List.forall_mem_append.mpr ⟨fun deed hdeed => ?_, fun deed hdeed => ?_⟩
  · exact (hx deed hdeed).mono fun _ hd => List.mem_append_left _ hd
  · exact (hy deed hdeed).mono fun _ hd => List.mem_append_right _ hd

variable [PngEncoder]

theorem Saves.keepsTo {name : String} {picture : Picture} {deeds : List Deed}
    {answer : Except ExportError Unit} (h : Saves (Path.join directory name, picture) deeds answer)
    (hname : Ordinary name) : ∀ deed ∈ deeds, deed.KeepsTo directory deeds := by
  intro deed hdeed
  cases h with
  | noFile e =>
    rw [List.mem_singleton.mp hdeed]
    exact .created _ hname
  | encodes hencodes =>
    obtain rfl | hwrite := List.mem_cons.mp hdeed
    · exact .created _ hname
    · obtain ⟨data, answer, rfl⟩ := hencodes.on_file deed hwrite
      exact .wrote data answer hname List.mem_cons_self

theorem SavesFinal.keepsTo {picture : Picture} {deeds : List Deed}
    {answer : Except ExportError String} (h : SavesFinal directory picture deeds answer)
    (hordinary : ∀ name, FinalName name → Ordinary name) :
    ∀ deed ∈ deeds, deed.KeepsTo directory deeds := by
  cases h with
  | noDirectory e => exact keepsTo_madeDirectories directory _
  | saves hname hsaves =>
    exact keepsTo_append (keepsTo_madeDirectories directory _)
      (hsaves.keepsTo (hordinary _ hname))

/-- Pictures that are due in a directory are saved there. -/
theorem InTurn.keepsTo {due : List (String × Picture)} {deeds : List Deed}
    (h : InTurn (Saves · · (.ok ())) due deeds)
    (hdue : ∀ path ∈ due.map Prod.fst, ∃ name, Ordinary name ∧ path = Path.join directory name) :
    ∀ deed ∈ deeds, deed.KeepsTo directory deeds := by
  induction h with
  | nil => exact nofun
  | @snoc due deeds more p _ hsaves ih =>
    rw [List.map_append, List.forall_mem_append] at hdue
    obtain ⟨path, picture⟩ := p
    obtain ⟨name, hname, rfl⟩ := hdue.2 path List.mem_cons_self
    exact keepsTo_append (ih hdue.1) (hsaves.keepsTo hname)

theorem Written.keepsTo {due : List (String × Picture)} {deeds : List Deed}
    {result : Except ExportError (Array String)} (h : Written due deeds result)
    (hdue : ∀ path ∈ due.map Prod.fst, ∃ name, Ordinary name ∧ path = Path.join directory name) :
    ∀ deed ∈ deeds, deed.KeepsTo directory deeds := by
  cases h with
  | all hall => exact hall.keepsTo hdue
  | cut before after p e hparts hbefore hfailed =>
    rw [hparts, List.map_append, List.map_cons, List.forall_mem_append, List.forall_mem_cons]
      at hdue
    obtain ⟨path, picture⟩ := p
    obtain ⟨name, hname, rfl⟩ := hdue.2.1
    exact keepsTo_append (hbefore.keepsTo hdue.1) (hfailed.keepsTo hname)

end KeepsTo

variable {ω : Type} [Files (StateM ω)]

/-- A program asks the files for a directory and for what lies in it by an ordinary name, and for
nothing else. -/
def AsksWithin {β : Type} (directory : String) (x : StateM (Chronicle ω) β) : Prop :=
  ∀ c : Chronicle ω, ∃ added : List Deed, c.Grows added [] (x.run c).2 ∧
    ∀ deed ∈ added, deed.KeepsTo directory added

section Within

variable {config : ExportConfig} {source : Option String}

theorem asksWithin_open? (config : ExportConfig) (source : Option String) :
    AsksWithin (exportDirectory config.outputDirectory source)
      (FrameExporter.open? config source : StateM (Chronicle ω) _) := by
  intro c
  have hmade := c.grows_makeDirectories (exportDirectory config.outputDirectory source)
  obtain ⟨⟨answer, c'⟩, hrun⟩ : ∃ r, (Files.makeDirectories
    (exportDirectory config.outputDirectory source) : StateM (Chronicle ω) _).run c = r := ⟨_, rfl⟩
  rw [hrun] at hmade
  refine ⟨[.madeDirectories (exportDirectory config.outputDirectory source) answer], ?_,
    keepsTo_madeDirectories _ answer⟩
  rw [FrameExporter.open?, run_bind_of_run hrun]
  cases answer <;> exact hmade

variable [PngEncoder]

/-- Frames handed to an exporter one after the other. -/
theorem FrameExporter.Stands.foldlM {seen : List Frame} {deeds : List Deed} {e : FrameExporter}
    (h : e.Stands config source seen deeds) (frames : List Frame) (c : Chronicle ω) :
    let r := (frames.foldlM FrameExporter.onFrame e : StateM (Chronicle ω) FrameExporter).run c
    ∃ more, c.Grows more [] r.2 ∧ r.1.Stands config source (seen ++ frames) (deeds ++ more) := by
  induction frames generalizing seen deeds e c with
  | nil =>
    refine ⟨[], .refl c, ?_⟩
    rw [List.append_nil, List.append_nil]
    exact h
  | cons f rest ih =>
    obtain ⟨first, hfirst, hstands⟩ := h.onFrame f c
    obtain ⟨later, hlater, hlast⟩ := ih hstands _
    refine ⟨first ++ later, hfirst.trans hlater, ?_⟩
    rw [List.append_assoc, List.append_assoc] at hlast
    exact hlast

omit [PngEncoder] in
theorem ExportConfig.path_of_dueAt {f : Frame} {k : Nat} {p : String × Picture}
    (h : config.dueAt source f k = some p) : p.1 = config.framePath source k := by
  rw [dueAt] at h
  split at h
  · rw [← Option.some.inj h]
  · cases h

omit [PngEncoder] in
theorem ExportConfig.path_of_due {frames : List Frame} {path : String}
    (h : path ∈ (config.due source frames).map Prod.fst) : ∃ name, Ordinary name ∧
      path = Path.join (exportDirectory config.outputDirectory source) name := by
  obtain ⟨p, hp, rfl⟩ := List.mem_map.mp h
  obtain ⟨q, -, hq⟩ := List.mem_filterMap.mp hp
  exact ⟨_, ordinary_frameName _, path_of_dueAt hq⟩

theorem asksWithin_frames {w : ω} {e : FrameExporter}
    (h : ((FrameExporter.open? config source : StateM ω _).run w).1 = .ok e)
    (frames : List Frame) :
    AsksWithin (exportDirectory config.outputDirectory source)
      (frames.foldlM FrameExporter.onFrame e : StateM (Chronicle ω) _) := by
  intro c
  obtain ⟨more, hgrows, hstands⟩ := (FrameExporter.stands_of_open? h).foldlM frames c
  exact ⟨more, hgrows, hstands.written.keepsTo fun _ => ExportConfig.path_of_due⟩

theorem asksWithin_saveFinal [Clock (StateM ω)] (f : Frame) (config : ExportConfig)
    (source : Option String) :
    AsksWithin (exportDirectory config.outputDirectory source)
      (f.saveFinal source config : StateM (Chronicle ω) _) := by
  intro c
  obtain ⟨deeds, hgrows, hsaves⟩ := f.saveFinal_saves source config c
  exact ⟨deeds, hgrows, hsaves.keepsTo fun _ => FinalName.ordinary⟩

end Within

/-- All that exports for a source ask of the files lies within one directory. -/
structure ExportsWithin (ω : Type) [Files (StateM ω)] [Clock (StateM ω)] [PngEncoder]
    (config : ExportConfig) (source : Option String) (directory : String) : Prop where
  opened : AsksWithin directory (FrameExporter.open? config source : StateM (Chronicle ω) _)
  frames : ∀ (w : ω) (e : FrameExporter),
    ((FrameExporter.open? config source : StateM ω _).run w).1 = .ok e →
    ∀ frames : List Frame, AsksWithin directory
      (frames.foldlM FrameExporter.onFrame e : StateM (Chronicle ω) _)
  final : ∀ f : Frame, AsksWithin directory (f.saveFinal source config : StateM (Chronicle ω) _)

/-- A directory lies right below another one, under an ordinary name. Its files lie below both, and
a tree of files that has the other directory has it there. -/
structure LiesBelow (base name directory : String) : Prop where
  joined : directory = Path.join base name
  descends : Descends base [name] directory
  file : ∀ file, Ordinary file → Descends base [name, file] (Path.join directory file)
  place : ∀ (t : FileTree) (trail place : FileTree.Trail)
    (entries : List (String × FileTree.Entry)), t.locate base = .ok trail →
    t.at? trail = some (.directory entries) → t.locate directory = .ok place →
    place = (name, entries.lookup name) :: trail

/-- A directory is another one itself, or the one above it. -/
structure Strays (base directory : String) : Prop where
  joined : directory = Path.join base "." ∨ directory = Path.join base ".."
  not_below : ∀ name, ¬ Descends base [name] directory
  place : ∀ (t : FileTree) (trail place : FileTree.Trail), t.locate base = .ok trail →
    t.locate directory = .ok place → place = trail ∨ place = trail.tail

theorem liesBelow_of_ordinary {name : String} (h : Ordinary name) (base : String) :
    LiesBelow base name (Path.join base name) where
  joined := rfl
  descends := h.descends base
  file _ hfile := (h.descends base).trans (hfile.descends _)
  place _ _ _ _ hbase hdir hplace := FileTree.place_of_ordinary h hbase hdir hplace

theorem strays_of_dots {dots : String} (h : dots = "." ∨ dots = "..") (base : String) :
    Strays base (Path.join base dots) where
  joined := h.imp (congrArg _) (congrArg _)
  not_below := Path.not_descends_dots h base
  place _ _ _ hbase hplace := FileTree.place_of_dots h hbase hplace

/-- Exports for a source keep to one directory. It lies right below the output directory, under an
ordinary name, unless the source is named by two or three dots and an extension; then it is the
output directory or the one above. -/
theorem exports_below_unless_named_by_dots [Clock (StateM ω)] [PngEncoder] (config : ExportConfig)
    (source : Option String) :
    ExportsWithin ω config source (exportDirectory config.outputDirectory source) ∧
    (¬ NamedByDots source → ∃ name, LiesBelow config.outputDirectory name
      (exportDirectory config.outputDirectory source)) ∧
    (NamedByDots source → Strays config.outputDirectory
      (exportDirectory config.outputDirectory source)) := by
  refine ⟨⟨asksWithin_open? config source, fun w e h frames => asksWithin_frames h frames,
    fun f => asksWithin_saveFinal f config source⟩, ?_, ?_⟩
  · intro h
    rw [exportDirectory_eq]
    exact ⟨_, liesBelow_of_ordinary ((ordinary_sourceName_iff source).mpr h) _⟩
  · intro h
    rw [exportDirectory_eq]
    exact strays_of_dots (sourceName_of_namedByDots h) _

theorem not_namedByDots_of_letter : ¬ NamedByDots (some "songs/..a.cdg") := by
  rintro ⟨name, hname, ext, hext, hdots⟩
  have hfile : (some "songs/..a.cdg").bind Path.fileName? = some "..a.cdg" := by decide
  rw [hfile] at hname
  cases hname
  rcases hdots with h | h
  · have hlist := congrArg String.toList h
    rw [String.toList_append] at hlist
    have hsplit : "..".toList ++ "a.cdg".toList = "..".toList ++ ext.toList := hlist
    rw [← List.append_cancel_left hsplit] at hext
    exact hext (by decide)
  · have hlist := congrArg (fun s => s.toList[2]?) h
    rw [String.toList_append] at hlist
    cases hlist

theorem namedByDots_of_extension : NamedByDots (some "songs/...cdg") :=
  ⟨"...cdg", by decide, "cdg", by decide, .inr rfl⟩

local instance : PngEncoder := .storing

/-- Dots before a name do no harm, but without one the pictures end up beside the output
directory. -/
theorem exports_of_dotted_sources :
    ExportsWithin CrampedDisk {} (some "songs/..a.cdg") "frames/..a" ∧
      (∃ name, LiesBelow "frames" name "frames/..a") ∧
      ExportsWithin CrampedDisk {} (some "songs/...cdg") "frames/.." ∧
      Strays "frames" "frames/.." := by
  have hbelow : exportDirectory "frames" (some "songs/..a.cdg") = "frames/..a" := by decide
  have habove : exportDirectory "frames" (some "songs/...cdg") = "frames/.." := by decide
  obtain ⟨hwithin, hlies, -⟩ :=
    exports_below_unless_named_by_dots (ω := CrampedDisk) {} (some "songs/..a.cdg")
  obtain ⟨hwithin', -, hstrays⟩ :=
    exports_below_unless_named_by_dots (ω := CrampedDisk) {} (some "songs/...cdg")
  rw [hbelow] at hwithin hlies
  rw [habove] at hwithin' hstrays
  exact ⟨hwithin, hlies not_namedByDots_of_letter, hwithin', hstrays namedByDots_of_extension⟩

/-- So the directory of a source is not always one in the output directory. -/
theorem export_leaves_output_directory :
    ¬ ∀ (base : String) (source : Option String), ∃ name, Ordinary name ∧
      exportDirectory base source = Path.join base name := by
  intro h
  obtain ⟨name, hname, hjoined⟩ := h "frames" (some "songs/...cdg")
  have hdown := hname.descends "frames"
  rw [← hjoined] at hdown
  have hparent : exportDirectory "frames" (some "songs/...cdg") = Path.join "frames" ".." := by
    decide
  rw [hparent] at hdown
  exact Path.not_descends_dots (.inr rfl) "frames" name hdown

end DiscGraphics
