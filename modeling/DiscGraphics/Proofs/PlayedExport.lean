import DiscGraphics.Proofs.ColorTable
import DiscGraphics.Proofs.Exporting
import DiscGraphics.Proofs.Resume
import DiscGraphics.Proofs.Succession

/-!
Playing into an exporter. While none is refused, the exporter has seen the frames of all records so
far, whether they come from a stream or from a file read in portions.
-/
namespace DiscGraphics

section Records

theorem toList_of_isEmpty {data : ByteArray} (h : data.isEmpty) : data.toList = [] := by
  obtain ⟨bytes⟩ := data
  cases Array.eq_empty_of_size_eq_zero (beq_iff_eq.mp h)
  rw [ByteArray.toList, ByteArray.toList.loop]
  rfl

/-- Records may be cut from the bytes as they come, if what is left over is put in front. -/
theorem records_append (bytes more : List UInt8) :
    wholeRecords (bytes ++ more) = wholeRecords bytes ++ wholeRecords (leftover bytes ++ more) ∧
      leftover (bytes ++ more) = leftover (leftover bytes ++ more) := by
  by_cases hle : 24 ≤ bytes.length
  · have hlong : 24 ≤ (bytes ++ more).length := by
      rw [List.length_append]
      omega
    have hshort : (bytes.drop 24).length < bytes.length := by
      rw [List.length_drop]
      omega
    obtain ⟨hrecords, hrest⟩ := records_append (bytes.drop 24) more
    rw [wholeRecords_of_le hlong, wholeRecords_of_le hle, leftover_of_le hlong, leftover_of_le hle,
      List.take_append_of_le_length hle, List.drop_append_of_le_length hle, hrecords,
      List.cons_append]
    exact ⟨rfl, hrest⟩
  · have hlt : bytes.length < 24 := Nat.lt_of_not_le hle
    rw [wholeRecords_of_lt hlt, leftover_of_lt hlt]
    exact ⟨rfl, rfl⟩
termination_by bytes.length

/-- What one more portion is cut into, with what was left over in front of it. -/
theorem transcript_portion (bytes more : List UInt8) :
    (ByteSource.ofBytes (leftover bytes ++ more)).transcript =
      ⟨wholeRecords (leftover bytes ++ more), leftover (bytes ++ more), none⟩ := by
  rw [ByteSource.transcript_trickles (ByteSource.trickles_ofBytes _), (records_append bytes more).2]
  rfl

end Records

namespace Decoder

variable {α : Type} [CanvasAllocator α]

theorem attempted_eq_self_of_isOk {d : Decoder α} {records : List (List UInt8)}
    (h : ∀ r ∈ (d.decodeAll (d.attempted records)).1, r.isOk) : d.attempted records = records := by
  induction records generalizing d with
  | nil => rfl
  | cons bytes rest ih =>
    cases hr : (d.decode bytes).1 with
    | error e =>
      rw [attempted_cons_error hr, decodeAll, hr] at h
      exact absurd (h _ List.mem_cons_self) (by simp)
    | ok frame? =>
      rw [attempted_cons_ok hr, decodeAll] at h
      rw [attempted_cons_ok hr, ih (List.forall_mem_cons.mp h).2]

/-- One decoder is another one after some records, none of which was refused, and they are
counted. -/
structure Through (d : Decoder α) (records : List (List UInt8)) (d' : Decoder α)
    (stats : PlaybackStats) : Prop where
  accepted : ∀ r ∈ (d.decodeAll records).1, r.isOk
  decoder : d'.Agree (d.decodeAll records).2
  frames : stats.frames = ((d.decodeAll records).1.filterMap emitted).length

theorem Through.refl (d : Decoder α) : d.Through [] d {} :=
  ⟨fun _ h => absurd h List.not_mem_nil, .refl d, rfl⟩

theorem Through.run {d d' : Decoder α} {records : List (List UInt8)} {stats : PlaybackStats}
    (h : d.Through records d' stats) {more : List (List UInt8)}
    (hrun : (d'.run stats more).failure = none) :
    d.Through (records ++ more) (d'.run stats more).decoder (d'.run stats more).stats ∧
      (d.decodeAll (records ++ more)).1.filterMap emitted =
        (d.decodeAll records).1.filterMap emitted ++
          (d'.run stats more).emissions.filterMap Emission.frame? := by
  have hfollows := run_follows h.decoder stats more
  have hok : ∀ r ∈ ((d.decodeAll records).2.decodeAll more).1, r.isOk := by
    have hanswers := findSome?_refusal?_eq_none.mp (hfollows.failure.symm.trans hrun)
    rwa [attempted_eq_self_of_isOk hanswers] at hanswers
  rw [attempted_eq_self _ hok] at hfollows
  rw [decodeAll_append, List.filterMap_append, hfollows.frames]
  refine ⟨⟨?_, ?_, ?_⟩, rfl⟩
  · rw [decodeAll_append]
    exact List.forall_mem_append.mpr ⟨h.accepted, hok⟩
  · rw [decodeAll_append]
    exact hfollows.decoder
  · rw [decodeAll_append, List.filterMap_append, List.length_append, hfollows.counted.frames,
      h.frames]

section Portions

variable {ω σ : Type} [Files (StateM ω)] {sink : σ → Frame → StateM ω σ} {file : FileHandle}
  {reads : Nat} {rest : List UInt8} {d d' : Decoder α} {stats stats' : PlaybackStats} {s s' : σ}
  {w v v' : ω} {data : ByteArray} {e : HostError}

theorem playPortions_again
    (hread : (Files.readPortion file portionSize : StateM ω _).run w = (.error e, v))
    (h : e.isInterruption) :
    (d.playPortions sink file (reads + 1) rest stats s : StateM ω _).run w =
      (d.playPortions sink file reads rest stats s : StateM ω _).run v := by
  rw [playPortions, run_bind_of_run hread]
  dsimp only
  rw [if_pos h]

theorem playPortions_broken
    (hread : (Files.readPortion file portionSize : StateM ω _).run w = (.error e, v))
    (h : ¬ e.isInterruption) :
    (d.playPortions sink file (reads + 1) rest stats s : StateM ω _).run w =
      (some (.error (.io (.host e)), d, stats, s), v) := by
  rw [playPortions, run_bind_of_run hread]
  dsimp only
  rw [if_neg h]
  rfl

theorem playPortions_end
    (hread : (Files.readPortion file portionSize : StateM ω _).run w = (.ok data, v))
    (h : data.isEmpty) :
    (d.playPortions sink file (reads + 1) rest stats s : StateM ω _).run w =
      (some (.ok rest, d, stats, s), v) := by
  rw [playPortions, run_bind_of_run hread]
  dsimp only
  rw [if_pos h]
  rfl

theorem playPortions_refused {error : DecodeError}
    (hread : (Files.readPortion file portionSize : StateM ω _).run w = (.ok data, v))
    (h : ¬ data.isEmpty)
    (hplayed : (d.playRecords sink (ByteSource.ofBytes (rest ++ data.toList)).transcript.records
      stats s : StateM ω _).run v = ((some error, d', stats', s'), v')) :
    (d.playPortions sink file (reads + 1) rest stats s : StateM ω _).run w =
      (some (.error (.decode error), d', stats', s'), v') := by
  rw [playPortions, run_bind_of_run hread]
  dsimp only
  rw [if_neg h, run_bind_of_run hplayed]
  rfl

theorem playPortions_next
    (hread : (Files.readPortion file portionSize : StateM ω _).run w = (.ok data, v))
    (h : ¬ data.isEmpty)
    (hplayed : (d.playRecords sink (ByteSource.ofBytes (rest ++ data.toList)).transcript.records
      stats s : StateM ω _).run v = ((none, d', stats', s'), v')) :
    (d.playPortions sink file (reads + 1) rest stats s : StateM ω _).run w =
      (d'.playPortions sink file reads (ByteSource.ofBytes (rest ++ data.toList)).transcript.rest
        stats' s' : StateM ω _).run v' := by
  rw [playPortions, run_bind_of_run hread]
  dsimp only
  rw [if_neg h, run_bind_of_run hplayed]

theorem playPortions_of_le {reads' : Nat} (hle : reads ≤ reads')
    {answer : Except PlayerError (List UInt8) × Decoder α × PlaybackStats × σ}
    (h : (d.playPortions sink file reads rest stats s : StateM ω _).run w = (some answer, v)) :
    (d.playPortions sink file reads' rest stats s : StateM ω _).run w = (some answer, v) := by
  induction reads generalizing reads' rest d stats s w with
  | zero => cases h
  | succ reads ih =>
    obtain ⟨reads', rfl⟩ : ∃ k, reads' = k + 1 := ⟨reads' - 1, by omega⟩
    replace hle : reads ≤ reads' := Nat.le_of_succ_le_succ hle
    obtain ⟨⟨portion, w'⟩, hread⟩ : ∃ r, (Files.readPortion file portionSize :
      StateM ω (Except HostError ByteArray)).run w = r := ⟨_, rfl⟩
    cases portion with
    | error e =>
      by_cases hagain : e.isInterruption
      · rw [playPortions_again hread hagain] at h ⊢
        exact ih hle h
      · rw [playPortions_broken hread hagain] at h ⊢
        exact h
    | ok data =>
      by_cases hend : data.isEmpty
      · rw [playPortions_end hread hend] at h ⊢
        exact h
      · obtain ⟨⟨⟨failed, d', stats', s'⟩, v'⟩, hplayed⟩ : ∃ r, (d.playRecords sink
          (ByteSource.ofBytes (rest ++ data.toList)).transcript.records stats s :
            StateM ω _).run w' = r := ⟨_, rfl⟩
        cases failed with
        | some error =>
          rw [playPortions_refused hread hend hplayed] at h ⊢
          exact h
        | none =>
          rw [playPortions_next hread hend hplayed] at h ⊢
          exact ih hle h

end Portions

end Decoder

namespace Player

variable [PngEncoder]

/-- Where playing stands after some records: none was refused, and the exporter was handed the frame
of every graphics packet. -/
structure Playing (d : Decoder Pool) (config : ExportConfig) (source : Option String)
    (records : List (List UInt8)) (d' : Decoder Pool) (stats : PlaybackStats) (deeds : List Deed)
    (e : FrameExporter) : Prop where
  through : d.Through records d' stats
  stands : e.Stands config source ((d.decodeAll records).1.filterMap Decoder.emitted) deeds

variable {ω : Type} [Files (StateM ω)] {d d₁ d₂ : Decoder Pool} {config : ExportConfig}
  {source : Option String} {s₁ s₂ : PlaybackStats} {deeds : List Deed} {e₁ e₂ : FrameExporter}
  {c₁ c₂ : Chronicle ω}

/-- More records, none of which is refused. -/
theorem Playing.playRecords {records : List (List UInt8)}
    (h : Playing d config source records d₁ s₁ deeds e₁) {more : List (List UInt8)}
    (hrun : (d₁.playRecords FrameExporter.onFrame more s₁ e₁ : StateM (Chronicle ω) _).run c₁ =
      ((none, d₂, s₂, e₂), c₂)) :
    ∃ added, c₁.Grows added [] c₂ ∧
      Playing d config source (records ++ more) d₂ s₂ (deeds ++ added) e₂ := by
  rw [Decoder.playRecords_eq, StateT.run_map] at hrun
  obtain ⟨added, hgrows, hstands⟩ := h.stands.deliver (d₁.run s₁ more).emissions c₁
  generalize (deliver FrameExporter.onFrame (d₁.run s₁ more).emissions e₁ :
    StateM (Chronicle ω) _).run c₁ = delivered at hrun hgrows hstands
  change ((_, _, _, delivered.1), delivered.2) = _ at hrun
  simp only [Prod.mk.injEq] at hrun
  obtain ⟨⟨hnone, rfl, rfl, rfl⟩, rfl⟩ := hrun
  obtain ⟨hthrough, hframes⟩ := h.through.run hnone
  rw [← hframes] at hstands
  exact ⟨added, hgrows, hthrough, hstands⟩

/-- The records of one more portion, none of which is refused. -/
theorem Playing.playPortion {bytes more : List UInt8}
    (h : Playing d config source (wholeRecords bytes) d₁ s₁ deeds e₁)
    (hrun : (d₁.playRecords FrameExporter.onFrame
      (ByteSource.ofBytes (leftover bytes ++ more)).transcript.records s₁ e₁ :
        StateM (Chronicle ω) _).run c₁ = ((none, d₂, s₂, e₂), c₂)) :
    ∃ added, c₁.Grows added [] c₂ ∧
      Playing d config source (wholeRecords (bytes ++ more)) d₂ s₂ (deeds ++ added) e₂ := by
  rw [transcript_portion] at hrun
  rw [(records_append bytes more).1]
  exact h.playRecords hrun

/-- A file is read portion by portion, and the records of all that was read are played. -/
theorem Playing.playPortions {bytes : List UInt8}
    (h : Playing d config source (wholeRecords bytes) d₁ s₁ deeds e₁) {file : FileHandle}
    {reads : Nat} {rest : List UInt8}
    (hrun : (d₁.playPortions FrameExporter.onFrame file reads (leftover bytes) s₁ e₁ :
      StateM (Chronicle ω) _).run c₁ = (some (.ok rest, d₂, s₂, e₂), c₂)) :
    ∃ added got, c₁.Grows added got c₂ ∧ rest = leftover (bytes ++ got) ∧
      Playing d config source (wholeRecords (bytes ++ got)) d₂ s₂ (deeds ++ added) e₂ := by
  induction reads generalizing bytes d₁ s₁ deeds e₁ c₁ with
  | zero => cases hrun
  | succ reads ih =>
    obtain ⟨⟨portion, c⟩, hread⟩ : ∃ r, (Files.readPortion file portionSize :
      StateM (Chronicle ω) (Except HostError ByteArray)).run c₁ = r := ⟨_, rfl⟩
    have hgrows := c₁.grows_readPortion file portionSize
    rw [hread] at hgrows
    cases portion with
    | error error =>
      by_cases hagain : error.isInterruption
      · -- The read is made again, and it brought nothing.
        rw [Decoder.playPortions_again hread hagain] at hrun
        obtain ⟨added, got, hmore, hleft, hend⟩ := ih h hrun
        exact ⟨added, got, hgrows.trans hmore, hleft, hend⟩
      · rw [Decoder.playPortions_broken hread hagain] at hrun
        cases hrun
    | ok data =>
      replace hgrows : c₁.Grows [] data.toList c := hgrows
      by_cases hempty : data.isEmpty
      · rw [Decoder.playPortions_end hread hempty] at hrun
        cases hrun
        rw [toList_of_isEmpty hempty] at hgrows
        refine ⟨[], [], hgrows, ?_, ?_⟩
        · rw [List.append_nil]
        · rw [List.append_nil, List.append_nil]
          exact h
      · obtain ⟨⟨⟨failed, d', s', e'⟩, c'⟩, hplayed⟩ : ∃ r, (d₁.playRecords FrameExporter.onFrame
          (ByteSource.ofBytes (leftover bytes ++ data.toList)).transcript.records s₁ e₁ :
            StateM (Chronicle ω) _).run c = r := ⟨_, rfl⟩
        cases failed with
        | some error =>
          rw [Decoder.playPortions_refused hread hempty hplayed] at hrun
          cases hrun
        | none =>
          rw [Decoder.playPortions_next hread hempty hplayed, transcript_portion] at hrun
          obtain ⟨added, hadded, hplaying⟩ := h.playPortion hplayed
          obtain ⟨more, got, hmore, hleft, hend⟩ := ih hplaying hrun
          rw [List.append_assoc] at hleft hend
          refine ⟨added ++ more, data.toList ++ got, ?_, hleft, ?_⟩
          · exact hgrows.trans (hadded.trans hmore)
          · rw [← List.append_assoc deeds]
            exact hend

section Reads

variable {σ : Type} {sink : σ → Frame → StateM ω σ} {s : σ} {w w' : ω} {reads reads' : Nat}

omit [PngEncoder] in
/-- Once so many reads reach the end of a file, more of them make no difference. -/
theorem playFile_of_le {p : Player} {path : String}
    {answer : Except PlayerError PlaybackStats × Player × σ} (hle : reads ≤ reads')
    (h : (p.playFile reads path sink s : StateM ω _).run w = (some answer, w')) :
    (p.playFile reads' path sink s : StateM ω _).run w = (some answer, w') := by
  obtain ⟨decoder, settings, file, totals⟩ := p
  rw [playFile] at h ⊢
  obtain ⟨⟨opened, v⟩, hopen⟩ : ∃ r, (Files.openToRead path :
    StateM ω (Except HostError FileHandle)).run w = r := ⟨_, rfl⟩
  rw [run_bind_of_run hopen] at h ⊢
  cases opened with
  | error error => exact h
  | ok handle =>
    dsimp only at h ⊢
    obtain ⟨⟨result, v'⟩, hplayed⟩ : ∃ r,
      (decoder.playPortions sink handle reads [] {} s : StateM ω _).run v = r := ⟨_, rfl⟩
    rw [run_bind_of_run hplayed] at h
    cases result with
    | none => cases h
    | some result =>
      rw [run_bind_of_run (Decoder.playPortions_of_le hle hplayed)]
      exact h

end Reads

/-- A stream or a file that was played to its end. -/
structure Ended (p : Player) (config : ExportConfig) (source : Option String)
    (records : List (List UInt8)) (stats : PlaybackStats) (p' : Player) (deeds : List Deed)
    (e : FrameExporter) : Prop where
  accepted : ∀ r ∈ (p.decoder.decodeAll records).1, r.isOk
  frames : stats.frames = ((p.decoder.decodeAll records).1.filterMap Decoder.emitted).length
  canvas : p'.decoder.canvas = (p.decoder.decodeAll records).2.canvas
  settings : p'.config = p.config
  stands : e.Stands config source ((p.decoder.decodeAll records).1.filterMap Decoder.emitted) deeds

omit [PngEncoder] in
/-- What is left over is no record, so nothing of it shows. -/
theorem canvas_concluded (p : Player) (stats : PlaybackStats) {rest : List UInt8}
    (hrest : rest.length ≠ 24) :
    (p.concluded stats (.ok rest)).2.1.decoder.canvas = p.decoder.canvas := by
  rw [(p.agree_concluded stats rest).canvas]
  split
  · rfl
  · obtain ⟨l, hd⟩ := p.decoder.decode_malformed hrest
    rw [Decoder.decodeAll, Decoder.decodeAll, hd]

omit [PngEncoder] in
theorem conclude_error {p p' : Player} {stats s : PlaybackStats} {error : PlayerError}
    {c c' : Chronicle ω} (hrun : (p.conclude stats (.error error) : StateM (Chronicle ω) _).run c =
      ((.ok s, p'), c')) : False := by
  cases error <;> cases hrun

/-- The end of a stream leaves the records played as they are. -/
theorem Playing.conclude {p p' : Player} {records : List (List UInt8)} {s : PlaybackStats}
    {rest : List UInt8} {file : Option String}
    (h : Playing p.decoder config source records d₁ s₁ deeds e₁) (hrest : rest.length ≠ 24)
    (hrun : (Player.conclude ⟨d₁, p.config, file, p.totals⟩ s₁ (.ok rest) :
      StateM (Chronicle ω) _).run c₁ = ((.ok s, p'), c₂)) :
    c₁.Grows [] [] c₂ ∧ Ended p config source records s p' deeds e₁ := by
  have hlines := FrameExporter.grows_writeLines
    ((Player.mk d₁ p.config file p.totals).concluded s₁ (.ok rest)).2.2 c₁
  have hcanvas := (Player.mk d₁ p.config file p.totals).canvas_concluded s₁ hrest
  rw [conclude_eq, StateT.run_map] at hrun
  cases hrun
  refine ⟨hlines, h.through.accepted, h.through.frames, ?_, rfl, h.stands⟩
  exact hcanvas.trans h.through.decoder.canvas

theorem play_ended {p p' : Player} {stream : ByteSource} {s : PlaybackStats}
    (h : e₁.Stands config source [] deeds)
    (hrun : (p.play stream FrameExporter.onFrame e₁ : StateM (Chronicle ω) _).run c₁ =
      ((.ok s, p', e₂), c₂)) :
    ∃ added, c₁.Grows added [] c₂ ∧
      Ended p config source stream.transcript.records s p' (deeds ++ added) e₂ := by
  have hstart : Playing p.decoder config source [] p.decoder {} deeds e₁ := ⟨.refl _, h⟩
  obtain ⟨decoder, settings, file, totals⟩ := p
  rw [play] at hrun
  obtain ⟨⟨⟨failed, d', s', e'⟩, c⟩, hplayed⟩ : ∃ r,
    (decoder.playRecords FrameExporter.onFrame stream.transcript.records {} e₁ :
      StateM (Chronicle ω) _).run c₁ = r := ⟨_, rfl⟩
  rw [run_bind_of_run hplayed] at hrun
  obtain ⟨⟨⟨answer, p₂⟩, c'⟩, hend⟩ : ∃ r, (Player.conclude ⟨d', settings, file, totals⟩ s'
    (outcome failed stream.transcript) : StateM (Chronicle ω) _).run c = r := ⟨_, rfl⟩
  replace hrun := (run_bind_of_run hend _).symm.trans hrun
  cases hrun
  cases failed with
  | some error => exact (conclude_error hend).elim
  | none =>
    cases hfailure : stream.transcript.failure with
    | some error =>
      simp only [outcome, hfailure] at hend
      exact (conclude_error hend).elim
    | none =>
      simp only [outcome, hfailure] at hend
      obtain ⟨added, hadded, hplaying⟩ := hstart.playRecords hplayed
      obtain ⟨hlines, hended⟩ := hplaying.conclude stream.length_rest_ne hend
      refine ⟨added, ?_, hended⟩
      have hgrows := hadded.trans hlines
      rwa [List.append_nil] at hgrows

/-- A stream that can be read to its end and holds no record that is refused is played without
error. -/
theorem play_run_ok (p : Player) {stream : ByteSource} (hread : stream.transcript.failure = none)
    (hok : ∀ r ∈ (p.decoder.decodeAll stream.transcript.records).1, r.isOk) (e : FrameExporter)
    (c : Chronicle ω) : ∃ stats p' e' c',
      (p.play stream FrameExporter.onFrame e : StateM (Chronicle ω) _).run c =
        ((.ok stats, p', e'), c') := by
  have hfollows := Decoder.run_follows (.refl p.decoder) {} stream.transcript.records
  rw [Decoder.attempted_eq_self _ hok] at hfollows
  have hrun : (p.decoder.run {} stream.transcript.records).failure = none :=
    hfollows.failure.trans (Decoder.findSome?_refusal?_eq_none.mpr hok)
  obtain ⟨hanswer, -⟩ := played_of_ended hrun hread
  rw [play_eq, StateT.run_map, hanswer]
  exact ⟨_, _, _, _, rfl⟩

theorem playFile_ended {p p' : Player} {reads : Nat} {path : String} {s : PlaybackStats}
    (h : e₁.Stands config source [] deeds)
    (hrun : (p.playFile reads path FrameExporter.onFrame e₁ : StateM (Chronicle ω) _).run c₁ =
      (some (.ok s, p', e₂), c₂)) :
    ∃ added bytes, c₁.Grows added bytes c₂ ∧
      Ended p config source (wholeRecords bytes) s p' (deeds ++ added) e₂ := by
  have hstart : Playing p.decoder config source (wholeRecords []) p.decoder {} deeds e₁ :=
    ⟨.refl _, h⟩
  obtain ⟨decoder, settings, file, totals⟩ := p
  rw [playFile] at hrun
  obtain ⟨⟨opened, c⟩, hopen⟩ : ∃ r, (Files.openToRead path :
    StateM (Chronicle ω) (Except HostError FileHandle)).run c₁ = r := ⟨_, rfl⟩
  have hopening : c₁.Grows [] [] ((Files.openToRead path : StateM (Chronicle ω) _).run c₁).2 :=
    Chronicle.grows_ignore (Files.openToRead path) c₁
  rw [run_bind_of_run hopen] at hrun
  rw [hopen] at hopening
  cases opened with
  | error error => cases hrun
  | ok handle =>
    obtain ⟨⟨result, c'⟩, hplayed⟩ : ∃ r,
      (decoder.playPortions FrameExporter.onFrame handle reads [] {} e₁ :
        StateM (Chronicle ω) _).run c = r := ⟨_, rfl⟩
    dsimp only at hrun
    rw [run_bind_of_run hplayed] at hrun
    cases result with
    | none => cases hrun
    | some result =>
      obtain ⟨outcome, d', s', e'⟩ := result
      obtain ⟨⟨⟨answer, p₂⟩, c''⟩, hend⟩ : ∃ r,
        (Player.conclude ⟨d', settings, some path, totals⟩ s' outcome :
          StateM (Chronicle ω) _).run c' = r := ⟨_, rfl⟩
      replace hrun := (run_bind_of_run hend _).symm.trans hrun
      cases hrun
      cases outcome with
      | error error => exact (conclude_error hend).elim
      | ok rest =>
        have hnothing : leftover ([] : List UInt8) = [] := rfl
        rw [← hnothing] at hplayed
        obtain ⟨added, bytes, hadded, hrest, hplaying⟩ := hstart.playPortions hplayed
        have hshort : rest.length ≠ 24 := by
          rw [hrest, length_leftover]
          omega
        obtain ⟨hlines, hended⟩ := hplaying.conclude hshort hend
        refine ⟨added, bytes, ?_, hended⟩
        have hgrows := hopening.trans (hadded.trans hlines)
        rwa [List.nil_append, List.nil_append, List.append_nil, List.append_nil] at hgrows

end Player
end DiscGraphics
