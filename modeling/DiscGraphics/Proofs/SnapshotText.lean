import DiscGraphics.FileTree
import DiscGraphics.Player
import DiscGraphics.Proofs.Chronicle
import DiscGraphics.Proofs.JsonText
import DiscGraphics.Proofs.Resume
import Mathlib.Data.List.Nodup

/-!
Snapshots as texts and back. A player that loads what another one saved is where the snapshot itself
would have put it.
-/
namespace DiscGraphics

namespace Json

theorem below?_natural {bound n : Nat} (h : n < bound) : below? bound (.natural n) = some n :=
  if_pos h

theorem mapM_below? (bound : Nat) {ns : List Nat} (h : ∀ n ∈ ns, n < bound) :
    (ns.map Json.natural).mapM (below? bound) = some ns := by
  induction ns with
  | nil => rfl
  | cons n ns ih =>
    obtain ⟨hn, hns⟩ := List.forall_mem_cons.mp h
    simp [below?_natural hn, ih hns]

/-- Keys that are texts are all kept. -/
theorem mapM_keys (keys : List String) (vs : List Json) :
    (keys.zipWith (fun k v => (some k, v)) vs).mapM (fun m => m.1.map (·, m.2)) =
      some (keys.zip vs) := by
  induction keys generalizing vs with
  | nil => simp
  | cons k keys ih =>
    cases vs with
    | nil => simp
    | cons v vs => simp [ih vs]

theorem member?_middle {front back : List (String × Json)} {k : String} (v : Json)
    (h : k ∉ (front ++ back).map (·.1)) : member? (front ++ (k, v) :: back) k = some v := by
  have hnone : (front ++ back).filter (fun m => m.1 == k) = [] := by
    rw [List.filter_eq_nil_iff]
    intro m hm hkey
    exact h (List.mem_map.mpr ⟨m, hm, eq_of_beq hkey⟩)
  rw [List.filter_append, List.append_eq_nil_iff] at hnone
  simp [member?, hnone.1, hnone.2]

/-- The values of distinct keys are found under them, in order. -/
theorem mapM_member? {keys : List String} {vs : List Json} (front : List (String × Json))
    (hlength : keys.length = vs.length) (hnodup : (front.map (·.1) ++ keys).Nodup) :
    keys.mapM (member? (front ++ keys.zip vs)) = some vs := by
  induction keys generalizing vs front with
  | nil =>
    cases vs with
    | nil => rfl
    | cons => cases hlength
  | cons k keys ih =>
    cases vs with
    | nil => cases hlength
    | cons v vs =>
      have hlater : keys.length = vs.length := Nat.succ.inj hlength
      have hmap : (keys.zip vs).map (·.1) = keys := List.map_fst_zip (Nat.le_of_eq hlater)
      have hrest := ih (front ++ [(k, v)]) hlater (by simpa using hnodup)
      have hfirst : member? (front ++ (k, v) :: keys.zip vs) k = some v := by
        apply member?_middle
        rw [List.map_append, hmap]
        exact (List.nodup_cons.mp (List.nodup_middle.mp hnodup)).1
      rw [List.append_assoc, List.singleton_append] at hrest
      simp [hfirst, hrest]

end Json

namespace Snapshot

/-- The values of the fields in order. -/
def fieldValues (s : Snapshot) : List Json :=
  [.natural s.version.toNat, .text (some s.timestamp), .natural s.packetsDecoded.toNat,
    .natural s.horizontal.toNat, .natural s.vertical.toNat,
    .array ((s.palette.toList.map UInt32.toNat).map .natural), .bool s.paletteChanged,
    .array ((s.pixels.toList.map UInt8.toNat).map .natural)]

/-- A snapshot as an object of its fields in order. -/
def toJson (s : Snapshot) : Json :=
  .object (fieldNames.zipWith (fun k v => (some k, v)) s.fieldValues)

theorem reads_fields (s : Snapshot) : List.Forall₂ Json.Reads s.fieldTexts s.fieldValues := by
  have hword (n : UInt32) : n.toNat < 10 ^ 20 := Nat.lt_trans n.toNat_lt (by decide)
  have hlong (n : UInt64) : n.toNat < 10 ^ 20 := Nat.lt_trans n.toNat_lt (by decide)
  have hbyte (n : UInt8) : n.toNat < 10 ^ 20 := Nat.lt_trans n.toNat_lt (by decide)
  refine .cons (Json.reads_natural (hword _)) <|
    .cons (Json.reads_of_spells (Json.spells_quote _)) <|
    .cons (Json.reads_natural (hlong _)) <| .cons (Json.reads_natural (hbyte _)) <|
    .cons (Json.reads_natural (hbyte _)) <| .cons (Json.reads_numberList ?_) <|
    .cons (Json.reads_of_spells (Json.spells_bool _)) <| .cons (Json.reads_numberList ?_) .nil
  · exact List.forall_mem_map.mpr fun n _ => hword n
  · exact List.forall_mem_map.mpr fun n _ => hbyte n

theorem parse?_toText (s : Snapshot) : Json.parse? s.toText = some s.toJson :=
  Json.parse?_of_reads (Json.reads_object fieldNames s.reads_fields)

example : toText ⟨1, "a\nb", 7, 5, 11, #[0xFFFFFF], true, #[3, 15]⟩ =
    "\x7b\"version\":1,\"timestamp\":\"a\\nb\",\"packets_decoded\":7,\"hscroll\":5," ++
      "\"vscroll\":11,\"palette\":[16777215],\"palette_changed\":true,\"pixels\":[3,15]\x7d" := by
  cbv

theorem ofFields?_fieldValues (s : Snapshot) : ofFields? s.fieldValues = some s := by
  have hpalette := Json.mapM_below? UInt32.size
    (List.forall_mem_map.mpr fun n (_ : n ∈ s.palette.toList) => n.toNat_lt)
  have hpixels := Json.mapM_below? 256
    (List.forall_mem_map.mpr fun n (_ : n ∈ s.pixels.toList) => n.toNat_lt)
  have hversion := Json.below?_natural s.version.toNat_lt_size
  have hpackets := Json.below?_natural s.packetsDecoded.toNat_lt_size
  have hhorizontal : (Json.natural s.horizontal.toNat).below? 256 = some s.horizontal.toNat :=
    Json.below?_natural s.horizontal.toNat_lt_size
  have hvertical : (Json.natural s.vertical.toNat).below? 256 = some s.vertical.toNat :=
    Json.below?_natural s.vertical.toNat_lt_size
  simp only [fieldValues, ofFields?, Json.text?, Json.array?, Json.bool?, hversion, hpackets,
    hhorizontal, hvertical, hpalette, hpixels, Option.bind_eq_bind, Option.bind_some]
  simp [Function.comp_def]

theorem ofJson?_toJson (s : Snapshot) : ofJson? s.toJson = some s := by
  have hfields : fieldNames.mapM (Json.member? (fieldNames.zip s.fieldValues)) =
      some s.fieldValues :=
    @Json.mapM_member? fieldNames s.fieldValues [] rfl (by decide)
  simp only [toJson, ofJson?, Json.mapM_keys]
  simp [hfields, ofFields?_fieldValues]

theorem ofText_toText (s : Snapshot) : ofText s.toText = .ok s := by
  rw [ofText, parse?_toText, Option.bind_some, ofJson?_toJson]

end Snapshot

/-- Whether the file of a path gives back what is stored in it, if the world lets it be stored. -/
def Files.GivesBack {ω : Type} [Files (StateM ω)] (path : String) (w : ω) : Prop :=
  ∀ data w', (Files.store path data : StateM ω _).run w = (.ok (), w') →
    ((Files.load path : StateM ω _).run w').1 = .ok (.ok data)

theorem fromUTF8?_toUTF8 (text : String) : String.fromUTF8? text.toUTF8 = some text :=
  dif_pos text.isValidUTF8

namespace Snapshot

section Files

variable {ω : Type} [Files (StateM ω)] {path : String} {w w' : ω}

/-- A file that was saved holds the text. -/
theorem store_of_save {s : Snapshot} (h : (s.save path : StateM ω _).run w = (.ok (), w')) :
    (Files.store path s.toText.toUTF8 : StateM ω _).run w = (.ok (), w') := by
  rw [save, Files.writeText, bind_assoc, StateT.run_bind] at h
  cases hstore : (Files.store path s.toText.toUTF8 : StateM ω _).run w with
  | mk answer w₁ =>
    rw [hstore] at h
    cases answer <;> cases h
    rfl

theorem load_of_bytes {text : String}
    (h : ((Files.load path : StateM ω _).run w).1 = .ok (.ok text.toUTF8)) :
    ((Snapshot.load path : StateM ω _).run w).1 = ofText text := by
  cases hload : (Files.load path : StateM ω _).run w with
  | mk answer w₁ =>
    rw [hload] at h
    cases h
    have hread : (Files.readText path : StateM ω _).run w = (.ok text, w₁) := by
      simp only [Files.readText, Files.read, bind_assoc, run_bind_of_run hload, pure_bind,
        fromUTF8?_toUTF8]
      rfl
    rw [Snapshot.load, run_bind_of_run hread]
    rfl

/-- What was saved is loaded. -/
theorem load_of_save {s : Snapshot} (hback : Files.GivesBack path w)
    (h : (s.save path : StateM ω _).run w = (.ok (), w')) :
    ((Snapshot.load path : StateM ω _).run w').1 = .ok s := by
  rw [load_of_bytes (hback _ _ (store_of_save h)), ofText_toText]

end Files

/-- Every snapshot, whatever its fields hold, has a text, and the text is read back as the snapshot.
It is the JSON of an object of the fields under their names. So a player that loads what another one
saved is where a snapshot of that one would have put it. -/
theorem read_back_from_text :
    (∀ s : Snapshot, Json.parse? s.toText = some s.toJson ∧ ofText s.toText = .ok s) ∧
    ∀ {ω : Type} [Files (StateM ω)] [Clock (StateM ω)] (p q : Player) (path : String)
      {now : Moment} {w w₁ w' : ω}, (Clock.now : StateM ω _).run w = (now, w₁) →
      Files.GivesBack path w₁ → (p.saveSnapshot path : StateM ω _).run w = (.ok (), w') →
      ∃ d, (ofDecoder p.decoder now.timestamp).restore q.decoder = .ok d ∧
        ((q.loadSnapshot path : StateM ω _).run w').1 = .ok { q with decoder := d } := by
  refine ⟨fun s => ⟨s.parse?_toText, s.ofText_toText⟩, ?_⟩
  intro ω _ _ p q path now w w₁ w' hnow hback hsaved
  have hrestored := restore_eq_ok (problem?_ofDecoder p.decoder now.timestamp) q.decoder
  rw [Player.saveSnapshot, run_bind_of_run hnow] at hsaved
  have hloaded := load_of_save hback hsaved
  refine ⟨_, hrestored, ?_⟩
  cases hload : (Snapshot.load path : StateM ω _).run w' with
  | mk answer w₂ =>
    rw [hload] at hloaded
    cases hloaded
    rw [Player.loadSnapshot, run_bind_of_run hload]
    simp only [hrestored]
    rfl

/-- In a tree in memory no time passes. -/
instance : Clock (StateM FileTree) where
  now := pure .epoch

theorem givesBack_empty : Files.GivesBack "s" FileTree.empty := by
  intro data w' h
  cases h
  rfl

/-- A player on a soiled pool. -/
def stoppedPlayer : Player where
  decoder := Decoder.onSoiledPool
  config := {}

/-- A player that has decoded nothing, on rows of another length. -/
def nextPlayer : Player where
  decoder :=
    { canvas := .blank 323 (by decide)
      allocator := .ofCapacity 2 .ample
      logger := .silent
      packetsDecoded := 0 }
  config := {}

theorem read_back_from_tree :
    ∃ t d, (stoppedPlayer.saveSnapshot "s" : StateM FileTree _).run .empty = (.ok (), t) ∧
      ((nextPlayer.loadSnapshot "s" : StateM FileTree _).run t).1 =
        .ok { nextPlayer with decoder := d } ∧
      d.canvas.stride = 323 ∧ d.canvas.pixel 299 215 = 7 ∧ d.packetsDecoded = 5 := by
  obtain ⟨t, hsaved⟩ : ∃ t, (stoppedPlayer.saveSnapshot "s" : StateM FileTree _).run .empty =
      (.ok (), t) := ⟨_, rfl⟩
  have hnow : (Clock.now : StateM FileTree _).run .empty = (.epoch, .empty) := rfl
  obtain ⟨d, hrestored, hloaded⟩ :=
    read_back_from_text.2 stoppedPlayer nextPlayer "s" hnow givesBack_empty hsaved
  cases (restore_eq_ok (problem?_ofDecoder _ _) nextPlayer.decoder).symm.trans hrestored
  refine ⟨t, _, hsaved, hloaded, ?_, ?_, ?_⟩
  · rw [canvas_into, stride_draw]
    rfl
  · have hpacked := stoppedPlayer.decoder.frame.getElem?_packedPixels (x := 299) (y := 215)
      (by decide) (by decide)
    have hshown : stoppedPlayer.decoder.canvas.pixel 299 215 = 7 :=
      Canvas.pixel_fill _ 7 (by decide) (by decide)
    rw [canvas_into, pixel_draw _ _ (by decide) (by decide), ofDecoder, Array.getD_eq_getD_getElem?,
      hpacked, Decoder.frame, hshown]
    rfl
  · rw [into]
    rfl

end Snapshot
end DiscGraphics
