import DiscGraphics.Proofs.Entry

/-!
Supplies that write down every request with its answer and every canvas given back. A decoder cannot
tell, so whatever the ledger shows holds of every supply.
-/
namespace DiscGraphics
open CanvasAllocator (acquire release)

/-- A request for a canvas with its answer, or a canvas given back. -/
inductive Dealing where
  | asked (stride : Nat) (answer : Except AllocationError Canvas)
  | returned (c : Canvas)

/-- By how much a dealing changes the number of canvases that are out. -/
def Dealing.change : Dealing → Int
  | .asked _ (.ok _) => 1
  | .asked _ (.error _) => 0
  | .returned _ => -1

/-- How many canvases are out after some dealings: those supplied less those given back. -/
def lent : List Dealing → Int
  | [] => 0
  | dealing :: rest => dealing.change + lent rest

theorem lent_append (xs ys : List Dealing) : lent (xs ++ ys) = lent xs + lent ys := by
  induction xs with
  | nil => exact (Int.zero_add _).symm
  | cons dealing rest ih => rw [List.cons_append, lent, ih, lent, Int.add_assoc]

/-- A supply and all dealings with it so far. -/
structure Audited (α : Type) where
  supply : α
  ledger : List Dealing

/-- A map from one supply to another under which both answer and take back alike. -/
structure Carries {α β : Type} [CanvasAllocator α] [CanvasAllocator β] (f : β → α) : Prop where
  acquire : ∀ b stride, acquire (f b) stride = ((acquire b stride).1, f (acquire b stride).2)
  release : ∀ b c, release (f b) c = f (release b c)

namespace Audited

variable {α : Type} [CanvasAllocator α]

instance : CanvasAllocator (Audited α) where
  acquire a stride :=
    let supplied := CanvasAllocator.acquire a.supply stride
    (supplied.1, ⟨supplied.2, a.ledger ++ [.asked stride supplied.1]⟩)
  release a c := ⟨CanvasAllocator.release a.supply c, a.ledger ++ [.returned c]⟩

/-- A supply with a ledger that is still empty. -/
def of (a : α) : Audited α := ⟨a, []⟩

theorem carries_supply : Carries (supply : Audited α → α) :=
  ⟨fun _ _ => rfl, fun _ _ => rfl⟩

end Audited

namespace Decoder

section

variable {α β : Type}

/-- The same decoder on another supply. -/
def mapSupply (f : β → α) (d : Decoder β) : Decoder α :=
  ⟨d.canvas, f d.allocator, d.logger, d.packetsDecoded⟩

/-- A decoder whose dealings are written down from now on. -/
def audited (d : Decoder α) : Decoder (Audited α) := d.mapSupply Audited.of

/-- The decoder without its ledger. -/
def unaudited (d : Decoder (Audited α)) : Decoder α := d.mapSupply Audited.supply

@[simp] theorem unaudited_audited (d : Decoder α) : d.audited.unaudited = d := rfl

end

variable {α β : Type} [CanvasAllocator α] [CanvasAllocator β] {f : β → α}

theorem acquireCanvas_mapSupply (hf : Carries f) (d : Decoder β) :
    (d.mapSupply f).acquireCanvas =
      (d.acquireCanvas.1, d.acquireCanvas.2.1, d.acquireCanvas.2.2.mapSupply f) := by
  have ha := hf.acquire d.allocator d.canvas.stride
  simp only [acquireCanvas, ask, mapSupply, ha]
  obtain ⟨answer, b⟩ := acquire d.allocator d.canvas.stride
  cases answer with
  | error e => rfl
  | ok c =>
    by_cases hs : c.stride = d.canvas.stride
    · simp only [hs, if_true]
    · simp only [hs, if_false, giveBack, hf.release]
      rfl

theorem scroll_mapSupply (hf : Carries f) (d : Decoder β) (data : Payload) (mode : ScrollMode) :
    (d.mapSupply f).scroll data mode =
      (d.scroll data mode).map fun r => (r.1, r.2.mapSupply f) := by
  have hc : (d.mapSupply f).canvas = d.canvas := rfl
  simp only [scroll, scrollActing, acquireCanvas_mapSupply hf, hc]
  split
  · rfl
  · obtain ⟨actions, answer, d'⟩ := d.acquireCanvas
    cases answer with
    | error e => rfl
    | ok next =>
      have hc' : (d'.mapSupply f).canvas = d'.canvas := rfl
      simp only [hc']
      split
      · rfl
      · simp only [install, exchange, giveBack, mapSupply, withLogger, hf.release, Except.map]

theorem perform_mapSupply (hf : Carries f) (d : Decoder β) (i : Instruction) (data : Payload) :
    (d.mapSupply f).perform i data =
      (d.perform i data).map fun r => (r.1, r.2.mapSupply f) := by
  cases i with
  | borderPreset =>
    obtain ⟨c, b, l, n⟩ := d
    simp only [perform, mapSupply, border, Canvas.borderPreset_eq_ok]
    rfl
  | tileBlock | tileBlockXor =>
    obtain ⟨c, b, l, n⟩ := d
    simp only [perform, mapSupply, tile, Canvas.tileBlock_eq_ok]
    cases (TileBlock.ofPayload data).fits c.offset.horizontal c.offset.vertical <;> rfl
  | scrollPreset => exact scroll_mapSupply hf d data .preset
  | scrollCopy => exact scroll_mapSupply hf d data .copy
  | memoryPreset | loadPaletteLow | loadPaletteHigh | unknown => rfl

/-- An instruction does the same on either supply. -/
theorem execute_mapSupply (hf : Carries f) (d : Decoder β) (i : Instruction) (data : Payload) :
    (d.mapSupply f).execute i data =
      ((d.execute i data).1, (d.execute i data).2.mapSupply f) := by
  have h := perform_mapSupply hf d i data
  rw [perform_eq_ok, perform_eq_ok] at h
  exact Except.ok.inj h

theorem decodePacket_mapSupply (hf : Carries f) (d : Decoder β) (p : Packet) :
    (d.mapSupply f).decodePacket p =
      ((d.decodePacket p).1, (d.decodePacket p).2.mapSupply f) := by
  have htrace : (d.mapSupply f).tracePacket p = (d.tracePacket p).mapSupply f := rfl
  simp only [decodePacket]
  split
  · rw [htrace, execute_mapSupply hf]
    obtain ⟨answer, d'⟩ := (d.tracePacket p).execute p.instruction p.data
    cases answer <;> rfl
  · rfl

theorem decode_mapSupply (hf : Carries f) (d : Decoder β) (bytes : List UInt8) :
    (d.mapSupply f).decode bytes = ((d.decode bytes).1, (d.decode bytes).2.mapSupply f) := by
  simp only [decode]
  cases Packet.parse bytes with
  | error e => rfl
  | ok p =>
    simp only [decodePacket_mapSupply hf]
    obtain ⟨answer, d'⟩ := d.decodePacket p
    cases answer with
    | error e => rfl
    | ok graphics => cases graphics <;> rfl

theorem enter_mapSupply (hf : Carries f) (d : Decoder β) (e : Entry) :
    (d.mapSupply f).enter e = (d.enter e).mapSupply f := by
  cases e with
  | record bytes => exact congrArg Prod.snd (decode_mapSupply hf d bytes)
  | packet p => exact congrArg Prod.snd (decodePacket_mapSupply hf d p)
  | instruction i data => exact congrArg Prod.snd (execute_mapSupply hf d i data)

theorem answerTo_mapSupply (hf : Carries f) (d : Decoder β) (e : Entry) :
    (d.mapSupply f).answerTo e = d.answerTo e := by
  cases e with
  | record bytes => rw [answerTo, decode_mapSupply hf, answerTo]
  | packet p => rw [answerTo, decodePacket_mapSupply hf, answerTo]
  | instruction i data => rw [answerTo, execute_mapSupply hf, answerTo]

theorem frameFor_mapSupply (hf : Carries f) (d : Decoder β) (e : Entry) :
    (d.mapSupply f).frameFor e = d.frameFor e := by
  cases e with
  | record bytes => rw [frameFor, decode_mapSupply hf, frameFor]
  | packet | instruction => rfl

theorem withAllocator_map (hf : Carries f) (b : β) (stride : Nat) :
    withAllocator (f b) stride =
      ((withAllocator b stride).mapError fun e => (e.1, f e.2)).map (mapSupply f) := by
  have ha := hf.acquire b stride
  unfold withAllocator
  split
  · rfl
  · rw [ha]
    obtain ⟨answer, b'⟩ := acquire b stride
    cases answer with
    | error e => rfl
    | ok c =>
      dsimp only
      rw [hf.release]
      split <;> rfl

end Decoder
end DiscGraphics
