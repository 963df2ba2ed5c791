import DiscGraphics.Exporter
import DiscGraphics.Proofs.BufferedFile

/-!
How the saving of a picture can go. A refusal ends it and is reported, unless it comes only when the
ending is written and the buffer is emptied for the last time.
-/
namespace DiscGraphics
open BufferedFile (capacity Pours)

/-- Whether something is a write to a file. -/
def Deed.On (file : FileHandle) (deed : Deed) : Prop :=
  ∃ data answer, deed = .wrote file data answer

theorem FileHandle.on_of_mem_took {file : FileHandle} {writes : List ByteArray} {deed : Deed}
    (h : deed ∈ file.took writes) : deed.On file := by
  obtain ⟨data, -, rfl⟩ := List.mem_map.mp h
  exact ⟨data, _, rfl⟩

namespace BufferedFile

variable {b b' : BufferedFile} {data : ByteArray} {least : Nat} {deeds : List Deed}
  {answer : Except HostError Unit}

theorem Pours.handle (h : b.Pours data least deeds answer b') : b'.handle = b.handle := by
  cases h <;> rfl

theorem Pours.on_handle (h : b.Pours data least deeds answer b') :
    ∀ deed ∈ deeds, deed.On b.handle := by
  intro deed hdeed
  cases h with
  | taken => exact FileHandle.on_of_mem_took hdeed
  | refused _ _ _ lost =>
    obtain hbefore | hlast := List.mem_append.mp hdeed
    · exact FileHandle.on_of_mem_took hbefore
    · exact ⟨lost, _, List.mem_singleton.mp hlast⟩

end BufferedFile

variable [PngEncoder]

/-- All that the file of a picture is to hold. -/
def Picture.encoded (p : Picture) : ByteArray :=
  joined (PngEncoder.pieces p) ++ joined PngEncoder.ending

/-- What writing a picture to an open file comes to, and all that is asked of the file for it. -/
inductive Picture.Encodes (p : Picture) (file : FileHandle) :
    List Deed → Except ExportError Unit → Prop where
  | whole (writes : List ByteArray) : joined writes = p.encoded →
      Encodes p file (file.took writes) (.ok ())
  /-- The first refusal comes behind the last piece, when all but a bufferful and the ending is
  taken. Nobody hears of it. -/
  | unheard (writes : List ByteArray) (rest lost : ByteArray) (e : HostError) (count : Nat)
      (later : List Deed) : joined writes ++ rest = p.encoded →
      rest.size ≤ capacity + (joined PngEncoder.ending).size → (∀ deed ∈ later, deed.On file) →
      Encodes p file (file.took writes ++ .wrote file lost (.error (e, count)) :: later) (.ok ())
  /-- A piece is not taken, when no less than a bufferful of the pieces is left. -/
  | reported (writes : List ByteArray) (rest lost : ByteArray) (e : HostError) (count : Nat)
      (later : List Deed) : joined writes ++ rest = joined (PngEncoder.pieces p) →
      capacity ≤ rest.size → (∀ deed ∈ later, deed.On file) →
      Encodes p file (file.took writes ++ .wrote file lost (.error (e, count)) :: later)
        (.error (.pngEncoding (.host e)))

section Encode

variable {p : Picture} {file : FileHandle} {b b' : BufferedFile} {least least' : Nat}
  {deeds more later : List Deed} {answer : Except ExportError Unit} {e : HostError}

omit [PngEncoder] in
theorem empty_size_le (file : FileHandle) :
    (BufferedFile.mk file .empty).waiting.size ≤ capacity := Nat.zero_le _

/-- Nothing is refused, and nothing waits at the end. -/
theorem Picture.Encodes.of_taken
    (h : Pours ⟨file, .empty⟩ (joined (PngEncoder.pieces p)) least deeds (.ok ()) b)
    (hend : b.Pours (joined PngEncoder.ending) least' more (.ok ()) b')
    (hnone : b'.waiting = .empty) : p.Encodes file (deeds ++ more) (.ok ()) := by
  have hall := h.andThen hend
  generalize deeds ++ more = all at hall
  cases hall with
  | taken writes waiting _ hjoined =>
    rw [show waiting = .empty from hnone, ByteArray.append_empty, ByteArray.empty_append] at hjoined
    exact .whole writes hjoined

/-- The pieces are taken, and then something is refused. -/
theorem Picture.Encodes.of_late_refusal
    (h : Pours ⟨file, .empty⟩ (joined (PngEncoder.pieces p)) least deeds (.ok ()) b)
    (hend : b.Pours (joined PngEncoder.ending) least' more (.error e) b')
    (hlater : ∀ deed ∈ later, deed.On file) :
    p.Encodes file (deeds ++ (more ++ later)) (.ok ()) := by
  cases h with
  | taken writes waiting hsize hjoined =>
    cases hend with
    | refused writes' _ rest lost _ count _ hjoined' =>
      have hwrites : file.took writes ++ (file.took writes' ++
          [.wrote file lost (.error (e, count))] ++ later) =
          file.took (writes ++ writes') ++ .wrote file lost (.error (e, count)) :: later := by
        rw [FileHandle.took_append, List.append_assoc, List.append_assoc, List.singleton_append]
      have hsizes := congrArg ByteArray.size hjoined'
      simp only [ByteArray.size_append] at hsizes
      rw [hwrites]
      refine .unheard _ rest lost e count later ?_ (by omega) hlater
      rw [joined_append, ByteArray.append_assoc, hjoined', ← ByteArray.append_assoc, hjoined,
        ByteArray.empty_append]
      rfl

/-- A piece is not taken. -/
theorem Picture.Encodes.of_early_refusal
    (h : Pours ⟨file, .empty⟩ (joined (PngEncoder.pieces p)) capacity deeds (.error e) b)
    (hlater : ∀ deed ∈ later, deed.On file) :
    p.Encodes file (deeds ++ later) (.error (.pngEncoding (.host e))) := by
  cases h with
  | refused writes _ rest lost _ count _ hjoined hrest =>
    rw [ByteArray.empty_append] at hjoined
    rw [List.append_assoc, List.singleton_append]
    exact .reported writes rest lost e count later hjoined hrest hlater

/-- The pieces, then the ending whatever became of them, and then what still waits. -/
theorem Picture.Encodes.of_pours {b₁ b₂ : BufferedFile} {first second third : List Deed}
    {answer ended closed : Except HostError Unit}
    (hpieces : Pours ⟨file, .empty⟩ (joined (PngEncoder.pieces p)) capacity first answer b)
    (hending : b.Pours (joined PngEncoder.ending) least second ended b₁)
    (hclosing : b₁.Pours .empty least' third closed b₂)
    (hnone : closed = .ok () → b₂.waiting = .empty) :
    p.Encodes file (first ++ (second ++ third))
      (answer.mapError fun e => .pngEncoding (.host e)) := by
  have hfile : b.handle = file := hpieces.handle
  have hfile₁ : b₁.handle = file := hending.handle.trans hfile
  have hon : ∀ deed ∈ third, deed.On file := hfile₁ ▸ hclosing.on_handle
  cases answer with
  | error e =>
    refine .of_early_refusal hpieces (List.forall_mem_append.mpr ⟨?_, hon⟩)
    exact hfile ▸ hending.on_handle
  | ok =>
    cases ended with
    | error e => exact .of_late_refusal hpieces hending hon
    | ok =>
      have hrest := hending.andThen hclosing
      rw [ByteArray.append_empty] at hrest
      cases closed with
      | ok => exact .of_taken hpieces hrest (hnone rfl)
      | error e =>
        have hnothing : ∀ deed ∈ ([] : List Deed), deed.On file := nofun
        have hlate := Picture.Encodes.of_late_refusal hpieces hrest hnothing
        rwa [List.append_nil] at hlate

theorem Picture.Encodes.on_file (h : p.Encodes file deeds answer) :
    ∀ deed ∈ deeds, deed.On file := by
  have hcut {writes : List ByteArray} {lost : ByteArray} {refusal : HostError × Nat}
      {later : List Deed} (hlater : ∀ deed ∈ later, deed.On file) :
      ∀ deed ∈ file.took writes ++ .wrote file lost (.error refusal) :: later, deed.On file := by
    refine List.forall_mem_append.mpr ⟨fun _ hdeed => FileHandle.on_of_mem_took hdeed, ?_⟩
    exact List.forall_mem_cons.mpr ⟨⟨lost, _, rfl⟩, hlater⟩
  cases h with
  | whole => exact fun _ hdeed => FileHandle.on_of_mem_took hdeed
  | unheard _ _ _ _ _ _ _ _ hlater => exact hcut hlater
  | reported _ _ _ _ _ _ _ _ hlater => exact hcut hlater

end Encode

variable {ω : Type} [Files (StateM ω)]

omit [PngEncoder] in
theorem BufferedFile.close_pours {b : BufferedFile} (h : b.waiting.size ≤ capacity)
    (c : Chronicle ω) :
    let r := (b.close : StateM (Chronicle ω) Unit).run c
    ∃ deeds answer b', c.Grows deeds [] r.2 ∧ b.Pours .empty b.waiting.size deeds answer b' ∧
      (answer = .ok () → b'.waiting = .empty) := by
  obtain ⟨deeds, hgrows, hpours, hnone⟩ := flush_pours h c
  exact ⟨deeds, _, _, hgrows, hpours, hnone⟩

theorem Picture.encode_encodes (p : Picture) (file : FileHandle) (c : Chronicle ω) :
    let r := (p.encode file : StateM (Chronicle ω) _).run c
    ∃ deeds, c.Grows deeds [] r.2 ∧ p.Encodes file deeds r.1 := by
  rw [Picture.encode]
  obtain ⟨first, hfirst, hpieces⟩ :=
    BufferedFile.writeAll_pours (empty_size_le file) (PngEncoder.pieces p) c
  obtain ⟨⟨⟨answer, b⟩, c₁⟩, hrun⟩ : ∃ r, (BufferedFile.writeAll ⟨file, .empty⟩
    (PngEncoder.pieces p) : StateM (Chronicle ω) _).run c = r := ⟨_, rfl⟩
  rw [run_bind_of_run hrun]
  rw [hrun] at hfirst hpieces
  obtain ⟨second, hsecond, hending⟩ :=
    BufferedFile.writeAll_pours hpieces.size_le PngEncoder.ending c₁
  obtain ⟨⟨⟨ended, b₁⟩, c₂⟩, hrun⟩ : ∃ r,
    (b.writeAll PngEncoder.ending : StateM (Chronicle ω) _).run c₁ = r := ⟨_, rfl⟩
  dsimp only
  rw [run_bind_of_run hrun]
  rw [hrun] at hsecond hending
  obtain ⟨third, closed, b₂, hthird, hclosing, hnone⟩ :=
    BufferedFile.close_pours hending.size_le c₂
  obtain ⟨⟨_, c₃⟩, hrun⟩ : ∃ r, (b₁.close : StateM (Chronicle ω) Unit).run c₂ = r := ⟨_, rfl⟩
  dsimp only
  rw [run_bind_of_run hrun]
  rw [hrun] at hthird
  exact ⟨first ++ (second ++ third), hfirst.trans (hsecond.trans hthird),
    .of_pours hpieces hending hclosing hnone⟩

/-- What saving a picture under a path comes to, and all that is asked of the files for it. -/
inductive Saves (p : String × Picture) : List Deed → Except ExportError Unit → Prop where
  | noFile (e : HostError) : Saves p [.created p.1 (.error e)] (.error (.io (.host e)))
  | encodes {file : FileHandle} {deeds : List Deed} {answer : Except ExportError Unit} :
      p.2.Encodes file deeds answer → Saves p (.created p.1 (.ok file) :: deeds) answer

theorem Frame.save_saves (f : Frame) (path : String) (crop : Bool) (c : Chronicle ω) :
    let r := (f.save path crop : StateM (Chronicle ω) _).run c
    ∃ deeds, c.Grows deeds [] r.2 ∧ Saves (path, f.picture crop) deeds r.1 := by
  rw [Frame.save]
  have hgrows := c.grows_create path
  obtain ⟨⟨answer, c'⟩, hrun⟩ : ∃ r, (Files.create path : StateM (Chronicle ω) _).run c = r :=
    ⟨_, rfl⟩
  rw [run_bind_of_run hrun]
  rw [hrun] at hgrows
  cases answer with
  | error e => exact ⟨_, hgrows, .noFile e⟩
  | ok file =>
    obtain ⟨deeds, hmore, hencodes⟩ := (f.picture crop).encode_encodes file c'
    exact ⟨_, hgrows.trans hmore, .encodes hencodes⟩

/-- A picture that is saved, and of which everything was taken. -/
def SavedWhole (p : String × Picture) (deeds : List Deed) : Prop :=
  ∃ file writes, joined writes = p.2.encoded ∧
    deeds = .created p.1 (.ok file) :: file.took writes

/-- Without a refusal a picture is saved whole, and that is reported. -/
theorem Saves.whole_of_unrefused {p : String × Picture} {deeds : List Deed}
    {answer : Except ExportError Unit} (h : Saves p deeds answer)
    (hnone : ∀ deed ∈ deeds, ¬ deed.Refused) : SavedWhole p deeds ∧ answer = .ok () := by
  cases h with
  | noFile e => exact (hnone (.created p.1 (.error e)) List.mem_cons_self rfl).elim
  | @encodes file =>
    next hencodes =>
    cases hencodes with
    | whole writes hjoined => exact ⟨⟨file, writes, hjoined, rfl⟩, rfl⟩
    | unheard _ _ lost e count | reported _ _ lost e count =>
      refine (hnone (.wrote file lost (.error (e, count))) ?_ rfl).elim
      exact List.mem_cons_of_mem _ (List.mem_append_right _ List.mem_cons_self)

/-- Once there is a file, no failure is reported of a picture that fits the buffer. -/
theorem Saves.noFile_of_small {p : String × Picture} {deeds : List Deed} {error : ExportError}
    (h : Saves p deeds (.error error))
    (hsmall : (joined (PngEncoder.pieces p.2)).size < capacity) :
    ∃ e, deeds = [.created p.1 (.error e)] ∧ error = .io (.host e) := by
  cases h with
  | noFile e => exact ⟨e, rfl, rfl⟩
  | encodes hencodes =>
    cases hencodes with
    | reported writes rest lost e count later hjoined hrest =>
      have hsize := congrArg ByteArray.size hjoined
      rw [ByteArray.size_append] at hsize
      omega

section Final

/-- A name that final pictures are given. -/
def FinalName (name : String) : Prop :=
  name = "final.png" ∨ ∃ now : Moment, name = s!"final_{now.stamp}.png"

/-- What saving a picture as the final one into a directory comes to, and all that is asked of the
files for it. -/
inductive SavesFinal (directory : String) (picture : Picture) :
    List Deed → Except ExportError String → Prop where
  | noDirectory (e : HostError) : SavesFinal directory picture
      [.madeDirectories directory (.error e)] (.error (.io (.host e)))
  | saves {name : String} {deeds : List Deed} {answer : Except ExportError Unit} :
      FinalName name → Saves (Path.join directory name, picture) deeds answer →
      SavesFinal directory picture (.madeDirectories directory (.ok ()) :: deeds)
        (answer.map fun _ => Path.join directory name)

variable [Clock (StateM ω)]

omit [PngEncoder] in
/-- Asking for the time is all that a name can take. -/
theorem ExportConfig.finalName_run (config : ExportConfig) (c : Chronicle ω) :
    let r := (config.finalName : StateM (Chronicle ω) String).run c
    FinalName r.1 ∧ c.Grows [] [] r.2 := by
  rw [ExportConfig.finalName]
  split
  · exact ⟨.inr ⟨_, rfl⟩, Chronicle.grows_ignore Clock.now c⟩
  · exact ⟨.inl rfl, .refl c⟩

theorem Frame.saveFinal_saves (f : Frame) (source : Option String) (config : ExportConfig)
    (c : Chronicle ω) :
    let r := (f.saveFinal source config : StateM (Chronicle ω) _).run c
    ∃ deeds, c.Grows deeds [] r.2 ∧
      SavesFinal (exportDirectory config.outputDirectory source) (f.picture config.cropBorder)
        deeds r.1 := by
  rw [Frame.saveFinal]
  have hmade := c.grows_makeDirectories (exportDirectory config.outputDirectory source)
  obtain ⟨⟨answer, c₁⟩, hrun⟩ : ∃ r, (Files.makeDirectories
    (exportDirectory config.outputDirectory source) : StateM (Chronicle ω) _).run c = r := ⟨_, rfl⟩
  dsimp only
  rw [run_bind_of_run hrun]
  rw [hrun] at hmade
  cases answer with
  | error e => exact ⟨_, hmade, .noDirectory e⟩
  | ok =>
    obtain ⟨hfinal, hnaming⟩ := config.finalName_run c₁
    obtain ⟨⟨name, c₂⟩, hrun⟩ : ∃ r,
      (config.finalName : StateM (Chronicle ω) String).run c₁ = r := ⟨_, rfl⟩
    dsimp only
    rw [run_bind_of_run hrun]
    rw [hrun] at hfinal hnaming
    obtain ⟨deeds, hsaving, hsaves⟩ := f.save_saves
      (Path.join (exportDirectory config.outputDirectory source) name) config.cropBorder c₂
    exact ⟨_, hmade.trans (hnaming.trans hsaving), .saves hfinal hsaves⟩

/-- Without a refusal the final picture is saved whole, and the answer says where. -/
theorem SavesFinal.whole_of_unrefused {directory : String} {picture : Picture} {deeds : List Deed}
    {answer : Except ExportError String} (h : SavesFinal directory picture deeds answer)
    (hnone : ∀ deed ∈ deeds, ¬ deed.Refused) : ∃ name saving, FinalName name ∧
      deeds = .madeDirectories directory (.ok ()) :: saving ∧
      SavedWhole (Path.join directory name, picture) saving ∧
      answer = .ok (Path.join directory name) := by
  cases h with
  | noDirectory e =>
    exact (hnone (.madeDirectories directory (.error e)) List.mem_cons_self rfl).elim
  | @saves name deeds _ hname hsaves =>
    obtain ⟨hwhole, rfl⟩ :=
      hsaves.whole_of_unrefused fun deed hdeed => hnone deed (List.mem_cons_of_mem _ hdeed)
    exact ⟨name, deeds, hname, rfl, hwhole, rfl⟩

end Final

end DiscGraphics
