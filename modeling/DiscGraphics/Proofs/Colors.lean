import DiscGraphics.Proofs.Entry
import DiscGraphics.Proofs.Invariant

/-!
The colours that a palette shows. An entry shows what the last palette packet of its half gave it,
and black before the first.
-/
namespace DiscGraphics

namespace PaletteHalf

/-- The half that an entry of the palette belongs to. -/
def ofEntry (i : Fin 16) : PaletteHalf := if i.val < 8 then .low else .high

/-- The place of an entry within its half. -/
def slot (i : Fin 16) : Fin 8 := Fin.ofNat 8 i.val

/-- The instruction that loads a half. -/
def instruction : PaletteHalf → Instruction
  | .low => .loadPaletteLow
  | .high => .loadPaletteHigh

theorem instruction_inj {half other : PaletteHalf} (h : half.instruction = other.instruction) :
    half = other := by
  cases half <;> cases other <;> first | rfl | cases h

end PaletteHalf

/-- The twelve bits of a colour as a palette packet carries them, six in each of two bytes. -/
def wireColor (data : Payload) (j : Nat) : Nat :=
  (data.toArray.getD (2 * j) 0 &&& 63).toNat <<< 6 |||
    (data.toArray.getD (2 * j + 1) 0 &&& 63).toNat

/-- A colour of four bits a channel, each channel multiplied by 17, as `0xRRGGBB`. -/
def stretch (color : Nat) : Nat :=
  color / 256 % 16 * 17 * 65536 + color / 16 % 16 * 17 * 256 + color % 16 * 17

/-- The colour that palette data give to an entry. -/
def colorIn (k : Fin 16) (data : Payload) : UInt32 :=
  expandColor (packedColor data (PaletteHalf.slot k))

theorem getD_payload (data : Payload) {k : Nat} (h : k < 16) :
    data.toArray.getD k 0 = data[k] := by
  simp [Array.getD, h]

theorem toNat_packedColor (data : Payload) (j : Fin 8) :
    (packedColor data j).toNat = wireColor data j := by
  have hlt : (sixBits data[2 * j.val]).toNat < 64 := by
    rw [sixBits, UInt8.toNat_and]
    exact Nat.lt_of_le_of_lt Nat.and_le_right (by decide)
  have hshift : ((sixBits data[2 * j.val]).toUInt16 <<< 6).toNat =
      (sixBits data[2 * j.val]).toNat <<< 6 := by
    rw [UInt16.toNat_shiftLeft, UInt8.toNat_toUInt16]
    apply Nat.mod_eq_of_lt
    simp only [UInt16.reduceToNat, Nat.reduceMod, Nat.shiftLeft_eq]
    omega
  rw [packedColor, UInt16.toNat_or, hshift, UInt8.toNat_toUInt16, wireColor,
    getD_payload data (by omega), getD_payload data (by omega)]
  rfl

theorem toNat_colorIn (k : Fin 16) (data : Payload) :
    (colorIn k data).toNat = stretch (wireColor data (k.val % 8)) := by
  rw [colorIn, toNat_expandColor, toNat_packedColor, stretch]
  rfl

namespace Palette

theorem get_colors_black (k : Fin 16) : black.colors.get k = 0 := by
  change black.colors[k.val] = 0
  simp [black]

/-- A palette packet gives the entries of its half the colours it carries, and keeps the others. -/
theorem get_load (p : Palette) (data : Payload) (half : PaletteHalf) (i : Fin 16) :
    (p.load data half).colors.get i =
      if PaletteHalf.ofEntry i = half then colorIn i data else p.colors.get i := by
  have hbase : half.base ≤ 8 := by cases half <;> decide
  unfold load
  split
  · next hhalf =>
    have hplace : half.base + (PaletteHalf.slot i).val = i.val := by
      have hslot : (PaletteHalf.slot i).val = i.val % 8 := rfl
      rw [hslot, ← hhalf, PaletteHalf.ofEntry]
      split <;> simp only [PaletteHalf.base] <;> omega
    rw [get_foldl_set_of_mem p (List.mem_finRange _) hplace (fun _ _ => by omega)
      (fun _ _ h => Fin.ext (by omega)), (stretched_expandColor _).masked, colorIn]
  · next hhalf =>
    apply get_foldl_set_of_ne
    intro j _
    refine ⟨by omega, fun heq => hhalf ?_⟩
    unfold PaletteHalf.ofEntry
    cases half <;> simp only [PaletteHalf.base] at heq <;> split <;> first | rfl | omega

/-- The palette after an instruction. A load writes its half; no other instruction writes any. -/
def after (p : Palette) (i : Instruction) (data : Payload) : Palette :=
  match i with
  | .loadPaletteLow => p.load data .low
  | .loadPaletteHigh => p.load data .high
  | _ => p

theorem after_instruction (p : Palette) (half : PaletteHalf) (data : Payload) :
    p.after half.instruction data = p.load data half := by
  cases half <;> rfl

theorem after_of_ne (p : Palette) {i : Instruction} (h : ∀ half, i ≠ PaletteHalf.instruction half)
    (data : Payload) : p.after i data = p := by
  cases i with
  | loadPaletteLow => exact absurd rfl (h .low)
  | loadPaletteHigh => exact absurd rfl (h .high)
  | memoryPreset | borderPreset | tileBlock | tileBlockXor | scrollPreset | scrollCopy
  | unknown => rfl

/-- An entry takes a new colour from a load of its half and from no other instruction. -/
theorem get_after (p : Palette) (i : Instruction) (data : Payload) (k : Fin 16) :
    (p.after i data).colors.get k =
      if i = (PaletteHalf.ofEntry k).instruction then colorIn k data else p.colors.get k := by
  by_cases hload : ∃ half, i = PaletteHalf.instruction half
  · obtain ⟨half, rfl⟩ := hload
    have hsame : half.instruction = (PaletteHalf.ofEntry k).instruction ↔
        PaletteHalf.ofEntry k = half :=
      ⟨fun h => (PaletteHalf.instruction_inj h).symm, fun h => by rw [h]⟩
    rw [after_instruction, get_load]
    simp only [hsame]
  · rw [not_exists] at hload
    rw [after_of_ne p hload, if_neg (hload _)]

end Palette

namespace Canvas

theorem palette_draw (c : Canvas) (i : Instruction) (data : Payload) :
    (c.draw i data).palette = c.palette.after i data := by
  cases i with
  | memoryPreset | borderPreset | tileBlock | tileBlockXor | unknown =>
    exact (c.sameFrame_draw rfl data).palette
  | scrollPreset | scrollCopy | loadPaletteLow | loadPaletteHigh => rfl

theorem draw_instruction (c : Canvas) (half : PaletteHalf) (data : Payload) :
    c.draw half.instruction data = c.loadPalette data half := by
  cases half <;> rfl

theorem palette_after_of_moves {c : Canvas} {i : Instruction} {data : Payload}
    (h : c.Moves i data) (p : Palette) : p.after i data = p := by
  apply p.after_of_ne
  rintro half rfl
  exact not_moves (by cases half <;> rfl) h

end Canvas

namespace Decoder

variable {α : Type} [CanvasAllocator α]

/-- Whether it is refused or not, an instruction leaves the palette that it should. What the second
canvas of a scroll brings along does not count. -/
theorem Executes.palette {c c' : Canvas} {a a' : α} {i : Instruction} {data : Payload}
    {x : Except DecodeError Unit} (h : Executes c a i data x c' a') :
    c'.palette = c.palette.after i data := by
  cases h with
  | drawn => exact c.palette_draw i data
  | scrolled _ hm _ hs hout =>
    rw [Canvas.palette_after_of_moves hm]
    exact (Canvas.scrolled_of_ok hs.symm hout).palette
  | refused hm => exact (Canvas.palette_after_of_moves hm _).symm
  | mismatched hm => exact (Canvas.palette_after_of_moves hm _).symm

theorem Entry.palette_settled (e : Entry) (x : Except DecodeError Unit) (c : Canvas) :
    (e.settled x c).palette = c.palette := by
  unfold settled
  split <;> rfl

/-- The palette after an entry is the one before, loaded if the entry's instruction loads one. -/
theorem palette_enter (d : Decoder α) (e : Entry) :
    (d.enter e).canvas.palette =
      match e.instruction? with
      | some (i, data) => d.canvas.palette.after i data
      | none => d.canvas.palette := by
  cases he : e.instruction? with
  | none => rw [(d.enter_of_none he).2.1]
  | some call =>
    obtain ⟨i, data⟩ := call
    rw [(d.runs_of_instruction? he).canvas, e.palette_settled, (d.executes i data).palette]

/-- The data that an entry loads a half of the palette with. -/
def Entry.load? (half : PaletteHalf) (e : Entry) : Option Payload :=
  match e.instruction? with
  | some (i, data) => if i = half.instruction then some data else none
  | none => none

/-- The data of the last load of a half. -/
def lastLoad (half : PaletteHalf) (entries : List Entry) : Option Payload :=
  (entries.filterMap (Entry.load? half)).getLast?

theorem Entry.load?_eq_some {half : PaletteHalf} {e : Entry} {data : Payload} :
    e.load? half = some data ↔ e.instruction? = some (half.instruction, data) := by
  unfold load?
  cases he : e.instruction? with
  | none => simp
  | some call =>
    obtain ⟨i, other⟩ := call
    by_cases hi : i = half.instruction <;> simp [hi]

theorem Entry.load?_of_ne {half other : PaletteHalf} {e : Entry} {data : Payload}
    (h : e.load? half = some data) (hne : other ≠ half) : e.load? other = none := by
  cases ho : e.load? other with
  | none => rfl
  | some data' =>
    rw [load?_eq_some] at h ho
    rw [h] at ho
    exact absurd (PaletteHalf.instruction_inj (congrArg Prod.fst (Option.some.inj ho))).symm hne

theorem color_enter (d : Decoder α) (e : Entry) (k : Fin 16) :
    (d.enter e).canvas.palette.colors.get k =
      (e.load? (PaletteHalf.ofEntry k)).elim (d.canvas.palette.colors.get k) (colorIn k) := by
  rw [palette_enter, Entry.load?]
  cases e.instruction? with
  | none => rfl
  | some call =>
    obtain ⟨i, data⟩ := call
    dsimp only
    rw [Palette.get_after]
    split <;> rfl

/-- In a run from any state the last load of a half tells the colours of its entries, and without
one they stay. -/
theorem color_run (d : Decoder α) (entries : List Entry) (k : Fin 16) :
    (entries.foldl enter d).canvas.palette.colors.get k =
      (lastLoad (PaletteHalf.ofEntry k) entries).elim (d.canvas.palette.colors.get k)
        (colorIn k) := by
  induction entries generalizing d with
  | nil => rfl
  | cons e rest ih =>
    rw [List.foldl_cons, ih, color_enter, lastLoad, lastLoad, List.filterMap_cons]
    cases e.load? (PaletteHalf.ofEntry k) with
    | none => rfl
    | some data =>
      simp only [List.getLast?_cons, Option.elim]
      cases (rest.filterMap (Entry.load? (PaletteHalf.ofEntry k))).getLast? <;> rfl

/-- Only a load changes a colour. -/
theorem palette_of_not_load (d : Decoder α) {e : Entry} (h : ∀ half, e.load? half = none) :
    (d.enter e).canvas.palette = d.canvas.palette := by
  rw [palette_enter]
  cases he : e.instruction? with
  | none => rfl
  | some call =>
    obtain ⟨i, data⟩ := call
    apply Palette.after_of_ne
    rintro half rfl
    have hload := Entry.load?_eq_some.mpr he
    rw [h half] at hload
    cases hload

/-- A load changes no byte of the canvas, neither in the picture nor in the padding. -/
theorem pixels_of_load (d : Decoder α) {e : Entry} {half : PaletteHalf} {data : Payload}
    (h : e.load? half = some data) :
    (d.enter e).canvas.pixels = d.canvas.pixels ∧ (d.enter e).canvas.stride = d.canvas.stride ∧
      (d.enter e).canvas.offset = d.canvas.offset := by
  have hstay : ¬ d.canvas.Moves half.instruction data := Canvas.not_moves (by cases half <;> rfl)
  obtain ⟨-, hdrawn, -⟩ := (d.executes half.instruction data).of_stay hstay
  rw [(d.runs_of_instruction? (Entry.load?_eq_some.mp h)).canvas, hdrawn, Canvas.draw_instruction,
    Canvas.loadPalette]
  -- What the new palette holds has no part in this, and unfolding it would take long.
  generalize d.canvas.palette.load data half = p
  unfold Entry.settled
  split <;> exact ⟨rfl, rfl, rfl⟩

/-- What an entry does to the colours. -/
structure Colored (d : Decoder α) (e : Entry) : Prop where
  kept : (∀ half, e.load? half = none) → (d.enter e).canvas.palette = d.canvas.palette
  refused : ∀ cause, d.answerTo e = .error cause → (d.enter e).canvas.palette = d.canvas.palette
  /-- A load changes no byte, padding included, and none of the other eight entries. -/
  loaded : ∀ half data, e.load? half = some data →
    (d.enter e).canvas.pixels = d.canvas.pixels ∧ (d.enter e).canvas.stride = d.canvas.stride ∧
      (d.enter e).canvas.offset = d.canvas.offset ∧
      ∀ k, PaletteHalf.ofEntry k ≠ half →
        (d.enter e).canvas.palette.colors.get k = d.canvas.palette.colors.get k

theorem colored (d : Decoder α) (e : Entry) : d.Colored e := by
  refine ⟨d.palette_of_not_load, ?_, ?_⟩
  · intro cause hcause
    rw [d.canvas_of_refused hcause]
  · intro half data hload
    obtain ⟨hpixels, hstride, hoffset⟩ := d.pixels_of_load hload
    refine ⟨hpixels, hstride, hoffset, fun k hk => ?_⟩
    rw [color_enter, Entry.load?_of_ne hload hk]
    rfl

/-- In a run from construction, whatever canvases the supply hands out and whatever it refuses, an
entry of the palette shows the colour that the last load of its half gave it, and black if there was
none. No other step changes a colour, and a load changes no byte, no fine offset and no colour of
the other half. -/
theorem colors_of_last_load {a : α} {stride : Nat} {d : Decoder α}
    (h : withAllocator a stride = .ok d) (entries : List Entry) :
    (∀ k : Fin 16, ((entries.foldl enter d).canvas.palette.colors.get k).toNat =
      match lastLoad (PaletteHalf.ofEntry k) entries with
      | some data => stretch (wireColor data (k.val % 8))
      | none => 0) ∧
    ∀ e, (entries.foldl enter d).Colored e := by
  obtain ⟨hw, hblank⟩ := canvas_of_withAllocator h
  refine ⟨fun k => ?_, colored _⟩
  rw [color_run]
  cases lastLoad (PaletteHalf.ofEntry k) entries with
  | some data => exact toNat_colorIn k data
  | none =>
    have hblack : d.canvas.palette.colors.get k = 0 := by
      rw [hblank]
      exact Palette.get_colors_black k
    rw [Option.elim_none, hblack]
    rfl

/-- A canvas whose sixteen colours are no colours of a disc. -/
def gaudy : Canvas :=
  (Canvas.blank 308 (by decide)).setPalette ⟨Vector.replicate 16 0xABCDEF⟩

/-- A pool with two such canvases, one to begin with and one for a scroll. -/
def gaudyPool : Pool where
  capacity := 2
  memory := .ample
  free := [gaudy, gaudy]

/-- Palette data with full red in the first colour, the two upper bits of its byte set. -/
def redFirst : Payload := Vector.ofFn fun i => if i.val = 0 then 0xFC else 0

/-- A record that loads the lower half with that red. -/
def loadRed : Entry := .record (Packet.ofInstruction .loadPaletteLow redFirst).toBytes

/-- The red is loaded into the first entry, and a scroll then puts the other canvas on show. -/
theorem colors_after_scroll :
    ∃ d, withAllocator gaudyPool 308 = .ok d ∧
      let colors := ([loadRed, .record rightScroll.toBytes].foldl enter d).canvas.palette.colors
      (colors.get 0).toNat = 0xFF0000 ∧ (colors.get 15).toNat = 0 := by
  have hpool : withAllocator gaudyPool 308 =
      .ok ⟨gaudy.reset,
        { capacity := 2, memory := .ample, free := [gaudy], live := 1, reused := 1 }, .silent, 0⟩ :=
    rfl
  obtain ⟨hcolors, -⟩ := colors_of_last_load hpool [loadRed, .record rightScroll.toBytes]
  have hlow : lastLoad (PaletteHalf.ofEntry 0) [loadRed, .record rightScroll.toBytes] =
      some redFirst := rfl
  have hhigh : lastLoad (PaletteHalf.ofEntry 15) [loadRed, .record rightScroll.toBytes] = none :=
    rfl
  refine ⟨_, hpool, ?_, ?_⟩
  · rw [hcolors, hlow]
    rfl
  · rw [hcolors, hhigh]

end Decoder
end DiscGraphics
