import DiscGraphics.Picture.Png
import DiscGraphics.Proofs.Colors
import DiscGraphics.Proofs.PlayedExport

/-!
Exported pictures are the decoded pictures, as far as the files take them: a refusal that comes only
when a file is given up is reported nowhere.
-/
namespace DiscGraphics

section Opening

variable {ω : Type} [Files (StateM ω)]

/-- A new exporter has seen no frame and owes no picture. -/
theorem FrameExporter.stands_of_open? [PngEncoder] {config : ExportConfig}
    {source : Option String} {w : ω} {e : FrameExporter}
    (h : ((FrameExporter.open? config source : StateM ω _).run w).1 = .ok e) :
    e.Stands config source [] [] := by
  rw [FrameExporter.open?] at h
  obtain ⟨⟨answer, v⟩, hmade⟩ : ∃ r, (Files.makeDirectories
    (exportDirectory config.outputDirectory source) : StateM ω _).run w = r := ⟨_, rfl⟩
  rw [run_bind_of_run hmade] at h
  cases answer with
  | error error => cases h
  | ok =>
    cases h
    exact ⟨rfl, rfl, rfl, rfl, .all .nil⟩

/-- A new player has its settings and a blank canvas. -/
theorem Player.clean_of_open? {config : PlayerConfig} {memory : Memory} {w : ω} {p : Player}
    (h : ((Player.open? config memory : StateM ω _).run w).1 = .ok p) :
    p.decoder.canvas.Clean ∧ p.config = config := by
  rw [Player.open?] at h
  split at h
  · cases h
  · next d hd =>
    have hclean : d.canvas.Clean := by
      obtain ⟨hw, hblank⟩ := Decoder.canvas_of_withAllocator hd
      rw [hblank]
      exact Canvas.clean_blank _ hw
    split at h
    · cases h
      exact ⟨hclean, rfl⟩
    · next path _ =>
      obtain ⟨⟨answer, v⟩, hcreated⟩ : ∃ r, (Files.create path : StateM ω _).run w = r :=
        ⟨_, rfl⟩
      rw [run_bind_of_run hcreated] at h
      cases answer with
      | error error => cases h
      | ok handle =>
        cases h
        exact ⟨hclean, rfl⟩

/-- With memory for its canvases and without a log file, a new player plays any bytes to their
end. -/
theorem Player.plays_bytes [PngEncoder] (config : PlayerConfig) {memory : Memory}
    (hlog : config.logging.logFile = none) (hpool : config.decoder.poolCapacity = 0)
    (hw : width ≤ config.decoder.stride) (hm : memory.Lends (config.decoder.stride * height))
    (bytes : List UInt8) (w : ω) (e : FrameExporter) (c : Chronicle ω) :
    ∃ p stats p' e' c', ((Player.open? config memory : StateM ω _).run w).1 = .ok p ∧
      p.decoder.canvas = .blank config.decoder.stride hw ∧
      (p.play (.ofBytes bytes) FrameExporter.onFrame e : StateM (Chronicle ω) _).run c =
        ((.ok stats, p', e'), c') := by
  have hsupplies : CanvasAllocator.Supplies config.decoder.stride
      (Pool.ofCapacity config.decoder.poolCapacity memory) := Pool.supplies hw hpool hm
  obtain ⟨d, hd, hblank, -, hserves⟩ := Decoder.withAllocator_of_supplies hw hsupplies
  obtain ⟨p, hp, hagree⟩ : ∃ p, ((Player.open? config memory : StateM ω _).run w).1 = .ok p ∧
      p.decoder.Agree d := by
    refine ⟨⟨d.withLogger fun l =>
      { l with level := config.logging.level, packetTrace := config.logging.packetTrace },
      config, none, {}⟩, ?_, ⟨rfl, rfl, rfl⟩⟩
    rw [Player.open?]
    simp only [hd, hlog]
    rfl
  have htranscript := ByteSource.transcript_trickles (ByteSource.trickles_ofBytes bytes)
  have hread : (ByteSource.ofBytes bytes).transcript.failure = none := by rw [htranscript]
  have hok : ∀ r ∈ (p.decoder.decodeAll (ByteSource.ofBytes bytes).transcript.records).1,
      r.isOk := by
    rw [(hagree.decodeAll _).1, htranscript]
    have hstride : CanvasAllocator.Supplies d.canvas.stride d.allocator := by
      rw [hblank]
      exact hserves
    exact Decoder.isOk_of_supplies hstride fun record => length_of_mem_wholeRecords
  obtain ⟨stats, p', e', c', hplay⟩ := p.play_run_ok hread hok e c
  exact ⟨p, stats, p', e', c', hp, hagree.canvas.trans hblank, hplay⟩

end Opening

namespace Player

variable {ω : Type} [Files (StateM ω)] [Clock (StateM ω)] [PngEncoder]

/-- The picture of the canvas right after the `k`-th graphics packet. -/
def pictureAfter (d : Decoder Pool) (records : List (List UInt8)) (crop : Bool) (k : Nat) :
    Picture :=
  (Frame.mk (d.canvasAfter records k)).picture crop

/-- The pictures that an exporter owes for some records, each with its path. -/
def picturesDue (exporting : ExportConfig) (source : Option String) (d : Decoder Pool)
    (records : List (List UInt8)) : List (String × Picture) :=
  (numbersDue exporting.frameInterval (records.countP Packet.draws)).map fun k =>
    (exporting.framePath source k, pictureAfter d records exporting.cropBorder k)

omit [PngEncoder] in
theorem paths_picturesDue (exporting : ExportConfig) (source : Option String) (d : Decoder Pool)
    (records : List (List UInt8)) :
    (picturesDue exporting source d records).map Prod.fst =
      (numbersDue exporting.frameInterval (records.countP Packet.draws)).map
        (exporting.framePath source) := by
  simp only [picturesDue, List.map_map, Function.comp_def]

/-- What playing some records into an exporter leaves behind, when `added` is all that was asked of
the files meanwhile. -/
structure Exports (ω : Type) [Files (StateM ω)] [Clock (StateM ω)] (config : PlayerConfig)
    (exporting : ExportConfig) (source : Option String) (d : Decoder Pool)
    (records : List (List UInt8)) (stats : PlaybackStats) (p : Player) (added : List Deed)
    (e : FrameExporter) : Prop where
  seen : e.framesSeen = UInt64.ofNat stats.frames
  frames : stats.frames = records.countP Packet.draws
  /-- Each picture shows the canvas right after its graphics packet. -/
  shows : ∀ k, (pictureAfter d records exporting.cropBorder k).Shows (d.canvasAfter records k)
    exporting.cropBorder
  /-- The pictures due are saved in order, up to the first whose saving is reported to have
  failed. -/
  written : Written (picturesDue exporting source d records) added e.finish
  whole : (∀ deed ∈ added, ¬ deed.Refused) →
    InTurn SavedWhole (picturesDue exporting source d records) added ∧
      e.finish = .ok ((picturesDue exporting source d records).map Prod.fst).toArray
  /-- Unless there are more frames than a word can count, one picture is due for each multiple of
  the interval, under a name that no other has. -/
  numbered : stats.frames < UInt64.size →
    numbersDue exporting.frameInterval stats.frames =
        multiples exporting.frameInterval.toNat stats.frames ∧
      (∀ k ≤ stats.frames, exporting.framePath source k =
        Path.join (exportDirectory exporting.outputDirectory source) (frameName k)) ∧
      ((picturesDue exporting source d records).map Prod.fst).Nodup
  /-- A picture taken later shows the canvas after the last packet. -/
  screenshot : ∀ c : Chronicle ω, ∃ deeds picture,
    let r := (p.screenshot : StateM (Chronicle ω) _).run c
    let directory := exportDirectory config.exporting.outputDirectory p.source
    c.Grows deeds [] r.2 ∧
      picture.Shows (d.decodeAll records).2.canvas config.exporting.cropBorder ∧
      SavesFinal directory picture deeds r.1 ∧
      ((∀ deed ∈ deeds, ¬ deed.Refused) → ∃ name saving, FinalName name ∧
        deeds = .madeDirectories directory (.ok ()) :: saving ∧
        SavedWhole (Path.join directory name, picture) saving ∧
        r.1 = .ok (Path.join directory name))

theorem Ended.exports {config : PlayerConfig} {exporting : ExportConfig} {source : Option String}
    {p p' : Player} {records : List (List UInt8)} {stats : PlaybackStats} {added : List Deed}
    {e : FrameExporter} (h : p.Ended exporting source records stats p' added e)
    (hclean : p.decoder.canvas.Clean) (hconfig : p.config = config) :
    Exports ω config exporting source p.decoder records stats p' added e := by
  obtain ⟨haccepted, hframes, hcanvas, hsettings, hstands⟩ := h
  have hemitted : ∀ i f, ((p.decoder.decodeAll records).1.filterMap Decoder.emitted)[i]? = some f →
      f.picture exporting.cropBorder =
        pictureAfter p.decoder records exporting.cropBorder (i + 1) := by
    intro i f hf
    rw [pictureAfter, p.decoder.canvasAfter_of_emitted haccepted hf]
    rfl
  have hcount := hframes.trans (p.decoder.length_emitted haccepted)
  have hwritten := hstands.written
  rw [exporting.due_eq_map source _ hemitted, p.decoder.length_emitted haccepted] at hwritten
  refine ⟨?_, hcount, ?_, hwritten, hwritten.whole_of_unrefused, ?_, ?_⟩
  · rw [hstands.framesSeen, hframes]
  · exact fun k => Frame.picture_shows (Decoder.decodeAll_clean hclean _).1 _
  · intro hlt
    refine ⟨numbersDue_eq_multiples _ hlt, fun k hk => ?_, ?_⟩
    · exact exporting.framePath_of_lt source (Nat.lt_of_le_of_lt hk hlt)
    · rw [paths_picturesDue, ← hcount]
      exact exporting.nodup_framePath source _ hlt
  · intro c
    have hshows := Frame.picture_shows (Decoder.decodeAll_clean hclean records).1
      config.exporting.cropBorder
    have hframe : p'.decoder.frame = ⟨(p.decoder.decodeAll records).2.canvas⟩ := by
      rw [Decoder.frame, hcanvas]
    obtain ⟨deeds, hgrows, hsaves⟩ :=
      p'.decoder.frame.saveFinal_saves p'.source p'.config.exporting c
    obtain ⟨r, hr⟩ : ∃ r, (p'.screenshot : StateM (Chronicle ω) _).run c = r := ⟨_, rfl⟩
    refine ⟨deeds, (Frame.mk (p.decoder.decodeAll records).2.canvas).picture
      config.exporting.cropBorder, ?_⟩
    rw [hr]
    rw [screenshot] at hr
    rw [hr] at hgrows hsaves
    rw [hsettings, hconfig, hframe] at hsaves
    exact ⟨hgrows, hshows, hsaves, hsaves.whole_of_unrefused⟩

end Player
/-- A disk that takes everything but has no room for one file more. -/
inductive CrampedDisk where
  | disk

namespace CrampedDisk

def noSpace : HostError := ⟨some 28, "StorageFull", "No space left on device"⟩

instance : Files (StateM CrampedDisk) where
  load _ := pure (.error .notFound)
  store _ _ := pure (.error noSpace)
  makeDirectories _ := pure (.ok ())
  create path :=
    pure (if path = "frames/default/frame_00000004.png" then .error noSpace else .ok ⟨0⟩)
  append _ _ := pure ()
  write _ _ := pure (.ok ())
  size _ := pure (.error .notFound)
  openToRead _ := pure (.error .notFound)
  readPortion _ _ := pure (.error .notFound)
  setMode _ _ := pure (.error .notFound)

instance : Clock (StateM CrampedDisk) where
  now := pure .epoch

local instance : PngEncoder := .storing

def settings : PlayerConfig where
  decoder := { stride := 307, poolCapacity := 0 }

def everySecond : ExportConfig where
  frameInterval := 2

/-- Five graphics packets. -/
def fills : List UInt8 :=
  (List.replicate 5 (Packet.ofInstruction .memoryPreset rightward).toBytes).flatten

theorem records_fills : (ByteSource.ofBytes fills).transcript.records = wholeRecords fills := by
  rw [ByteSource.transcript_trickles (ByteSource.trickles_ofBytes fills)]
  rfl

theorem countP_fills : (wholeRecords fills).countP Packet.draws = 5 := by decide

theorem answer_create {path : String} {answer : Except HostError FileHandle}
    (h : Deed.Answered CrampedDisk (.created path answer)) :
    answer = if path = "frames/default/frame_00000004.png" then .error noSpace else .ok ⟨0⟩ := by
  obtain ⟨w, hanswer⟩ := h
  exact hanswer.symm

/-- Whatever there is a file for is saved whole. -/
theorem whole_or_noFile {p : String × Picture} {deeds : List Deed}
    {answer : Except ExportError Unit} (h : Saves p deeds answer)
    (hanswered : ∀ deed ∈ deeds, deed.Answered CrampedDisk) :
    SavedWhole p deeds ∧ answer = .ok () ∧ p.1 ≠ "frames/default/frame_00000004.png" ∨
      deeds = [.created p.1 (.error noSpace)] ∧ answer = .error (.io (.host noSpace)) ∧
        p.1 = "frames/default/frame_00000004.png" := by
  cases h with
  | noFile e =>
    have hanswer := answer_create (hanswered _ List.mem_cons_self)
    split at hanswer
    · next hpath =>
      cases hanswer
      exact .inr ⟨rfl, rfl, hpath⟩
    · cases hanswer
  | @encodes file deeds _ hencodes =>
    have hanswer := answer_create (hanswered _ List.mem_cons_self)
    have htaken {lost : ByteArray} {e : HostError} {count : Nat}
        (hmem : .wrote file lost (.error (e, count)) ∈ deeds) : False := by
      obtain ⟨w, hw⟩ := hanswered _ (List.mem_cons_of_mem _ hmem)
      cases hw
    split at hanswer
    · cases hanswer
    · next hpath =>
      cases hencodes with
      | whole writes hjoined => exact .inl ⟨⟨file, writes, hjoined, rfl⟩, rfl, hpath⟩
      | unheard | reported =>
        exact (htaken (List.mem_append_right _ List.mem_cons_self)).elim

/-- Of two pictures due, the disk has no room for the second. -/
theorem written_until_full {first second : Picture} {deeds : List Deed}
    {result : Except ExportError (Array String)}
    (h : Written [("frames/default/frame_00000002.png", first),
      ("frames/default/frame_00000004.png", second)] deeds result)
    (hanswered : ∀ deed ∈ deeds, deed.Answered CrampedDisk) :
    result = .error (.io (.host noSpace)) ∧
      ∃ whole, SavedWhole ("frames/default/frame_00000002.png", first) whole ∧
        deeds = whole ++ [.created "frames/default/frame_00000004.png" (.error noSpace)] := by
  cases h with
  | all hall =>
    obtain ⟨before, last, -, hlast, rfl⟩ :=
      InTurn.of_snoc [("frames/default/frame_00000002.png", first)] hall
    obtain ⟨-, -, hpath⟩ | ⟨-, hanswer, -⟩ :=
      whole_or_noFile hlast fun deed hdeed => hanswered deed (List.mem_append_right _ hdeed)
    · exact absurd rfl hpath
    · cases hanswer
  | @cut before after p e deeds more hdue hbefore hfailed =>
    obtain ⟨-, hanswer, -⟩ | ⟨rfl, hanswer, hpath⟩ :=
      whole_or_noFile hfailed fun deed hdeed => hanswered deed (List.mem_append_right _ hdeed)
    · cases hanswer
    · cases hanswer
      match before, hdue, hbefore with
      | [], hdue, _ =>
        cases hdue
        have hother :
            "frames/default/frame_00000002.png" ≠ "frames/default/frame_00000004.png" := by
          decide
        exact absurd hpath hother
      | [_], hdue, hbefore =>
        cases hdue
        obtain ⟨none, whole, hnone, hfirst, rfl⟩ := InTurn.of_snoc [] hbefore
        cases hnone.eq_nil
        refine ⟨rfl, whole, ?_, rfl⟩
        obtain ⟨hwhole, -⟩ | ⟨-, hanswer, -⟩ := whole_or_noFile hfirst fun deed hdeed =>
          hanswered deed (List.mem_append_left _ hdeed)
        · exact hwhole
        · cases hanswer
      | _ :: _ :: _, hdue, _ => simp at hdue

end CrampedDisk
/-- An encoder that leaves out the indices of a picture where nothing was painted. -/
abbrev PngEncoder.leavingBlank : PngEncoder where
  pieces p := [⟨#[0x89]⟩, ⟨p.palette⟩, if p.indices.data.all (· == 0) then .empty else p.indices]
  ending := []

/-- A disk on which files can be made, but which is full. -/
inductive FullDisk where
  | disk

namespace FullDisk
open CrampedDisk (noSpace settings)

instance : Files (StateM FullDisk) where
  load _ := pure (.error .notFound)
  store _ _ := pure (.error noSpace)
  makeDirectories _ := pure (.ok ())
  create _ := pure (.ok ⟨0⟩)
  append _ _ := pure ()
  write _ _ := pure (.error (noSpace, 0))
  size _ := pure (.error .notFound)
  openToRead _ := pure (.error .notFound)
  readPortion _ _ := pure (.error .notFound)
  setMode _ _ := pure (.error .notFound)

instance : Clock (StateM FullDisk) where
  now := pure .epoch

local instance : PngEncoder := .leavingBlank

def everyFrame : ExportConfig where
  frameInterval := 1

/-- A file was made for a picture, and the first write to it was refused. -/
def Spoiled (p : String × Picture) (deeds : List Deed) : Prop :=
  ∃ file data later,
    deeds = .created p.1 (.ok file) :: .wrote file data (.error (noSpace, 0)) :: later

theorem spoiled_of_saves {p : String × Picture} {deeds : List Deed} (h : Saves p deeds (.ok ()))
    (hanswered : ∀ deed ∈ deeds, deed.Answered FullDisk) : Spoiled p deeds := by
  cases h with
  | @encodes file deeds _ hencodes =>
    replace hanswered := (List.forall_mem_cons.mp hanswered).2
    have hfirst {data : ByteArray} {answer : Except (HostError × Nat) Unit}
        (h : Deed.Answered FullDisk (.wrote file data answer)) : answer = .error (noSpace, 0) := by
      obtain ⟨w, hanswer⟩ := h
      exact hanswer.symm
    cases hencodes with
    | whole writes hjoined =>
      cases writes with
      | nil =>
        have hsize := congrArg ByteArray.size hjoined
        simp only [Picture.encoded, PngEncoder.pieces, joined, ByteArray.size_append,
          ByteArray.size_empty] at hsize
        have hsign : (ByteArray.mk #[0x89]).size = 1 := rfl
        omega
      | cons data rest => cases hfirst (hanswered _ List.mem_cons_self)
    | unheard writes rest lost e count later =>
      cases writes with
      | nil =>
        cases hfirst (hanswered _ List.mem_cons_self)
        exact ⟨file, lost, later, rfl⟩
      | cons data rest => cases hfirst (hanswered _ List.mem_cons_self)

/-- Of pictures that fit the buffer all are reported to have been saved, and none is. -/
theorem spoiled_of_written {due : List (String × Picture)} {deeds : List Deed}
    {result : Except ExportError (Array String)} (h : Written due deeds result)
    (hsmall : ∀ p ∈ due, (joined (PngEncoder.pieces p.2)).size < BufferedFile.capacity)
    (hanswered : ∀ deed ∈ deeds, deed.Answered FullDisk) :
    result = .ok (due.map Prod.fst).toArray ∧ InTurn Spoiled due deeds := by
  cases h with
  | all hall =>
    refine ⟨rfl, hall.mono fun p more hmem hsaves => ?_⟩
    exact spoiled_of_saves hsaves fun deed hdeed => hanswered deed (hmem deed hdeed)
  | cut before after p error hdue hbefore hfailed =>
    have hp : p ∈ due := by
      rw [hdue]
      exact List.mem_append_right _ List.mem_cons_self
    obtain ⟨refusal, rfl, -⟩ := hfailed.noFile_of_small (hsmall p hp)
    obtain ⟨w, hmade⟩ := hanswered _ (List.mem_append_right _ List.mem_cons_self)
    cases hmade

/-- Nothing was painted, so little is written. -/
theorem size_pieces_lt {f : Frame} (crop : Bool)
    (h : ∀ x < 300, ∀ y < 216, f.canvas.pixel x y = 0) :
    (joined (PngEncoder.pieces (f.picture crop))).size < BufferedFile.capacity := by
  have hblank : (f.picture crop).indices.data.all (· == 0) = true :=
    Array.all_eq_true'.mpr (f.forall_mem_indices crop fun x hx y hy => beq_iff_eq.mpr (h x hx y hy))
  have hpalette : (ByteArray.mk (f.picture crop).palette).size = 48 := by
    rw [f.palette_picture]
    exact f.canvas.palette.size_channelTable
  have hsign : (ByteArray.mk #[0x89]).size = 1 := rfl
  simp only [PngEncoder.pieces, joined, if_pos hblank, ByteArray.size_append, hpalette, hsign,
    ByteArray.size_empty, BufferedFile.capacity]
  decide

/-- A graphics packet that paints nothing. -/
def colors : List UInt8 := (Packet.ofInstruction .loadPaletteLow Decoder.redFirst).toBytes

theorem records_colors : (ByteSource.ofBytes (colors ++ colors)).transcript.records =
    [colors, colors] := by
  rw [ByteSource.transcript_trickles (ByteSource.trickles_ofBytes _)]
  rfl

theorem pixel_decode_colors (d : Decoder Pool) (x y : Nat) :
    (d.decode colors).2.canvas.pixel x y = d.canvas.pixel x y := by
  have hload : Decoder.Entry.load? .low (.record colors) = some Decoder.redFirst := rfl
  obtain ⟨hpixels, hstride, -⟩ := d.pixels_of_load hload
  rw [Decoder.enter] at hpixels hstride
  rw [Canvas.pixel, Canvas.index, hpixels, hstride, Canvas.pixel, Canvas.index]

theorem pixel_canvasAfter_colors (d : Decoder Pool) (n k x y : Nat) :
    (d.canvasAfter (List.replicate n colors) k).pixel x y = d.canvas.pixel x y := by
  induction n generalizing d k with
  | zero => cases k <;> rfl
  | succ n ih =>
    cases k with
    | zero => rw [d.canvasAfter_zero]
    | succ k => rw [List.replicate_succ, d.canvasAfter_cons, ih, pixel_decode_colors]

end FullDisk
end DiscGraphics
