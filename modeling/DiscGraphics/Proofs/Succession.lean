import DiscGraphics.Proofs.Playback

/-!
The canvases of a stream, numbered by its graphics packets. If no record is refused, there are as
many frames as graphics packets, and the frames show, in turn, the canvas after the first of them,
after the second, and so on.
-/
namespace DiscGraphics

/-- Whether a record is a graphics packet. -/
def Packet.draws (bytes : List UInt8) : Bool := sixBits (bytes.getD 0 0) == graphicsCommand

theorem Packet.draws_eq {bytes : List UInt8} {p : Packet} (h : parse bytes = .ok p) :
    draws bytes = p.isGraphics := by
  rw [draws, isGraphics, (bytes_of_parse h).1]

/-- The records up to and with the `k`-th graphics packet, or all if there are fewer. -/
def throughGraphics : Nat → List (List UInt8) → List (List UInt8)
  | 0, _ => []
  | _ + 1, [] => []
  | k + 1, bytes :: rest =>
    bytes :: throughGraphics (if Packet.draws bytes then k else k + 1) rest

namespace Decoder

variable {α : Type} [CanvasAllocator α]

/-- The canvas right after the `k`-th graphics packet among some records. -/
def canvasAfter (d : Decoder α) (records : List (List UInt8)) (k : Nat) : Canvas :=
  (d.decodeAll (throughGraphics k records)).2.canvas

theorem canvasAfter_zero (d : Decoder α) (records : List (List UInt8)) :
    d.canvasAfter records 0 = d.canvas := by
  rw [canvasAfter, throughGraphics, decodeAll]

theorem canvasAfter_cons (d : Decoder α) (bytes : List UInt8) (rest : List (List UInt8)) (k : Nat) :
    d.canvasAfter (bytes :: rest) (k + 1) =
      (d.decode bytes).2.canvasAfter rest (if Packet.draws bytes then k else k + 1) := rfl

theorem draws_of_decode_ok {d : Decoder α} {bytes : List UInt8} {frame? : Option Frame}
    (h : (d.decode bytes).1 = .ok frame?) : Packet.draws bytes = frame?.isSome := by
  obtain ⟨p, hp, hg⟩ := parse_of_decode_ok h
  rw [Packet.draws_eq hp, hg]

/-- A frame shows the canvas as it stands, which then forgets that its colours changed. -/
theorem canvas_of_decode_frame {d : Decoder α} {bytes : List UInt8} {f : Frame}
    (h : (d.decode bytes).1 = .ok (some f)) :
    (d.decode bytes).2.canvas = f.canvas.clearPaletteChanged := by
  have hd := d.decodes bytes
  rw [h] at hd
  generalize (d.decode bytes).2 = d' at hd
  cases hd
  rfl

theorem length_emitted (d : Decoder α) {records : List (List UInt8)}
    (hok : ∀ r ∈ (d.decodeAll records).1, r.isOk) :
    ((d.decodeAll records).1.filterMap emitted).length = records.countP Packet.draws := by
  induction records generalizing d with
  | nil => rfl
  | cons bytes rest ih =>
    rw [decodeAll] at hok ⊢
    obtain ⟨hfirst, hrest⟩ := List.forall_mem_cons.mp hok
    cases hr : (d.decode bytes).1 with
    | error e =>
      rw [hr] at hfirst
      exact absurd hfirst (by simp)
    | ok frame? =>
      have hdraws := draws_of_decode_ok hr
      cases frame? with
      | none =>
        rw [List.filterMap_cons_none rfl, ih _ hrest, List.countP_cons_of_neg (by simp [hdraws])]
      | some f =>
        have hframe : emitted (.ok (some f)) = some f := rfl
        rw [List.filterMap_cons_some hframe, List.length_cons, ih _ hrest,
          List.countP_cons_of_pos hdraws]

/-- The frames of a stream show the canvases after its graphics packets, in order. -/
theorem canvasAfter_of_emitted (d : Decoder α) {records : List (List UInt8)}
    (hok : ∀ r ∈ (d.decodeAll records).1, r.isOk) {i : Nat} {f : Frame}
    (hf : ((d.decodeAll records).1.filterMap emitted)[i]? = some f) :
    d.canvasAfter records (i + 1) = f.canvas.clearPaletteChanged := by
  induction records generalizing d i with
  | nil => cases hf
  | cons bytes rest ih =>
    rw [decodeAll] at hok hf
    obtain ⟨hfirst, hrest⟩ := List.forall_mem_cons.mp hok
    rw [canvasAfter_cons]
    cases hr : (d.decode bytes).1 with
    | error e =>
      rw [hr] at hfirst
      exact absurd hfirst (by simp)
    | ok frame? =>
      rw [hr] at hf
      rw [draws_of_decode_ok hr]
      cases frame? with
      | none =>
        rw [List.filterMap_cons_none rfl] at hf
        exact ih _ hrest hf
      | some first =>
        have hframe : emitted (.ok (some first)) = some first := rfl
        rw [List.filterMap_cons_some hframe] at hf
        rw [Option.isSome_some, if_pos rfl]
        cases i with
        | zero =>
          cases hf
          rw [canvasAfter_zero, canvas_of_decode_frame hr]
        | succ i => exact ih _ hrest hf

end Decoder
end DiscGraphics
