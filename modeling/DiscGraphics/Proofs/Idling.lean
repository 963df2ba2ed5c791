import DiscGraphics.Proofs.Tiles
import DiscGraphics.Proofs.Tracing

/-!
Calls that find nothing to do leave the canvas as it was, to the last byte, and do not turn to the
supply. They can be taken out of a stream, and the others will not know.
-/
namespace DiscGraphics

/-- The bits of a byte of a scroll that hold its command. -/
def commandField (b : UInt8) : Nat := b.toNat / 16 % 4

theorem toNat_sixBits_command (b : UInt8) :
    ((sixBits b &&& 0x30) >>> 4).toNat = commandField b := by
  have hmask : (0x3F : UInt8) &&& 0x30 = 0x30 := rfl
  rw [sixBits, UInt8.and_assoc, hmask, UInt8.toNat_shiftRight, UInt8.toNat_and,
    Nat.shiftRight_and_distrib]
  exact (Nat.and_two_pow_sub_one_eq_mod _ 2).trans
    (congrArg (· % 4) (Nat.shiftRight_eq_div_pow _ _))

/-- Of the bits that a byte of a scroll carries, the lowest hold the offset. -/
theorem toNat_sixBits_and {mask : UInt8} {k : Nat} (hsix : (0x3F : UInt8) &&& mask = mask)
    (hmask : mask.toNat = Nat.pow 2 k - 1) (b : UInt8) :
    (sixBits b &&& mask).toNat = b.toNat % Nat.pow 2 k := by
  rw [sixBits, UInt8.and_assoc, hsix, UInt8.toNat_and, hmask]
  exact Nat.and_two_pow_sub_one_eq_mod _ _

theorem toNat_capped (b most : UInt8) :
    (if b ≤ most then b else most).toNat = min b.toNat most.toNat := by
  split
  · next hin => exact (Nat.min_eq_left (UInt8.le_iff_toNat_le.mp hin)).symm
  · next hout =>
    rw [UInt8.le_iff_toNat_le] at hout
    exact (Nat.min_eq_right (Nat.le_of_not_le hout)).symm

theorem HorizontalCommand.step_cases (command : HorizontalCommand) :
    command.step = 0 ∨ command.step = 6 ∨ command.step = -6 := by
  cases command <;> decide

theorem HorizontalCommand.step_ofBits_eq_zero (b : UInt8) :
    (ofBits b).step = 0 ↔ b.toNat ≠ 1 ∧ b.toNat ≠ 2 := by
  have hright : b = 1 ↔ b.toNat = 1 := UInt8.toNat_inj.symm
  have hleft : b = 2 ↔ b.toNat = 2 := UInt8.toNat_inj.symm
  rw [ofBits, ← not_or, ← hright, ← hleft]
  split
  · next h => simp [h, step]
  · split
    · next h => simp [h, step]
    · next h₁ h₂ => simp [h₁, h₂, step]

theorem VerticalCommand.step_cases (command : VerticalCommand) :
    command.step = 0 ∨ command.step = 12 ∨ command.step = -12 := by
  cases command <;> decide

theorem VerticalCommand.step_ofBits_eq_zero (b : UInt8) :
    (ofBits b).step = 0 ↔ b.toNat ≠ 1 ∧ b.toNat ≠ 2 := by
  have hdown : b = 1 ↔ b.toNat = 1 := UInt8.toNat_inj.symm
  have hup : b = 2 ↔ b.toNat = 2 := UInt8.toNat_inj.symm
  rw [ofBits, ← not_or, ← hdown, ← hup]
  split
  · next h => simp [h, step]
  · split
    · next h => simp [h, step]
    · next h₁ h₂ => simp [h₁, h₂, step]

namespace ScrollParams

variable (data : Payload)

theorem horizontal_step_ofPayload : (ofPayload data).horizontal.step = 0 ↔
    commandField data.second ≠ 1 ∧ commandField data.second ≠ 2 := by
  rw [← toNat_sixBits_command]
  exact HorizontalCommand.step_ofBits_eq_zero _

theorem vertical_step_ofPayload : (ofPayload data).vertical.step = 0 ↔
    commandField data.third ≠ 1 ∧ commandField data.third ≠ 2 := by
  rw [← toNat_sixBits_command]
  exact VerticalCommand.step_ofBits_eq_zero _

theorem toNat_horizontalOffset :
    (ofPayload data).horizontalOffset.toNat = min (data.second.toNat % 8) 5 := by
  have hbits : (sixBits data.second &&& 0x07).toNat = data.second.toNat % 8 :=
    toNat_sixBits_and (k := 3) rfl rfl _
  rw [← hbits]
  exact toNat_capped _ 5

theorem horizontalOffset_le : (ofPayload data).horizontalOffset.toNat ≤ 5 := by
  rw [toNat_horizontalOffset]
  exact Nat.min_le_right ..

theorem toNat_verticalOffset :
    (ofPayload data).verticalOffset.toNat = min (data.third.toNat % 16) 11 := by
  have hbits : (sixBits data.third &&& 0x0F).toNat = data.third.toNat % 16 :=
    toNat_sixBits_and (k := 4) rfl rfl _
  rw [← hbits]
  exact toNat_capped _ 11

theorem verticalOffset_le : (ofPayload data).verticalOffset.toNat ≤ 11 := by
  rw [toNat_verticalOffset]
  exact Nat.min_le_right ..

end ScrollParams

namespace Canvas

/-- Whether a scroll has no command and the canvas has its offsets already, once they are brought
into range. -/
def AlreadyThere (c : Canvas) (data : Payload) : Prop :=
  ((commandField data.second ≠ 1 ∧ commandField data.second ≠ 2) ∧
    commandField data.third ≠ 1 ∧ commandField data.third ≠ 2) ∧
    min (data.second.toNat % 8) 5 = c.offset.horizontal.toNat ∧
    min (data.third.toNat % 16) 11 = c.offset.vertical.toNat

/-- A step of a command is larger than any change of the offset, so neither makes up for the other:
a scroll that moves nothing has no command and no change. -/
theorem shiftOf_eq_zero_iff (c : Canvas) (data : Payload) :
    c.shiftOf data = ⟨0, 0⟩ ↔ c.AlreadyThere data := by
  have hbound : c.offset.horizontal.toNat ≤ 5 := UInt8.le_iff_toNat_le.mp c.offset.horizontal_le
  have vbound : c.offset.vertical.toNat ≤ 11 := UInt8.le_iff_toNat_le.mp c.offset.vertical_le
  have hnext := ScrollParams.horizontalOffset_le data
  have vnext := ScrollParams.verticalOffset_le data
  have hsteps := (ScrollParams.ofPayload data).horizontal.step_cases
  have vsteps := (ScrollParams.ofPayload data).vertical.step_cases
  rw [shiftOf, FineOffset.shift, ScrollShift.mk.injEq, AlreadyThere,
    ← ScrollParams.horizontal_step_ofPayload, ← ScrollParams.vertical_step_ofPayload,
    ← ScrollParams.toNat_horizontalOffset, ← ScrollParams.toNat_verticalOffset]
  omega

/-- Whether an instruction finds nothing to do: it is not known, it repeats a preset, its tile does
not lie on the picture once it is moved by the fine offset, or its scroll moves by nothing. -/
def Idle (c : Canvas) (i : Instruction) (data : Payload) : Prop :=
  match i with
  | .unknown _ => True
  | .memoryPreset | .borderPreset => data.second &&& 15 ≠ 0
  | .tileBlock | .tileBlockXor => ¬ c.Fits data
  | .scrollPreset | .scrollCopy => c.shiftOf data = ⟨0, 0⟩
  | .loadPaletteLow | .loadPaletteHigh => False

instance (c : Canvas) (i : Instruction) (data : Payload) : Decidable (c.Idle i data) :=
  match i with
  | .unknown _ => inferInstanceAs (Decidable True)
  | .memoryPreset | .borderPreset => inferInstanceAs (Decidable (_ ≠ _))
  | .tileBlock | .tileBlockXor => inferInstanceAs (Decidable (¬ _))
  | .scrollPreset | .scrollCopy => inferInstanceAs (Decidable (_ = _))
  | .loadPaletteLow | .loadPaletteHigh => inferInstanceAs (Decidable False)

theorem isZero_eq_true_iff (s : ScrollShift) : s.isZero = true ↔ s = ⟨0, 0⟩ := by
  obtain ⟨dx, dy⟩ := s
  simp [ScrollShift.isZero]

/-- A scroll that moves nothing takes over the fine offset that the canvas has. -/
theorem takeOffset_of_shift_zero {c : Canvas} {data : Payload} (h : c.shiftOf data = ⟨0, 0⟩) :
    c.takeOffset data = c := by
  obtain ⟨-, hh, hv⟩ := (c.shiftOf_eq_zero_iff data).mp h
  rw [← ScrollParams.toNat_horizontalOffset, UInt8.toNat_inj] at hh
  rw [← ScrollParams.toNat_verticalOffset, UInt8.toNat_inj] at hv
  rw [takeOffset, hh, hv, setOffset, FineOffset.clamp_self]

theorem Idle.not_moves {c : Canvas} {i : Instruction} {data : Payload} (h : c.Idle i data) :
    ¬ c.Moves i data := by
  rintro ⟨hscroll, hshift⟩
  cases i with
  | scrollPreset | scrollCopy =>
    rw [(isZero_eq_true_iff _).mpr h] at hshift
    cases hshift
  | memoryPreset | borderPreset | tileBlock | tileBlockXor | loadPaletteLow | loadPaletteHigh
  | unknown => cases hscroll

theorem Idle.draw {c : Canvas} {i : Instruction} {data : Payload} (h : c.Idle i data) :
    c.draw i data = c := by
  cases i with
  | unknown => rfl
  | memoryPreset => exact if_neg h
  | borderPreset => exact if_neg h
  | tileBlock => exact tiled_of_not_fits h .normal
  | tileBlockXor => exact tiled_of_not_fits h .xor
  | scrollPreset | scrollCopy => exact takeOffset_of_shift_zero h
  | loadPaletteLow | loadPaletteHigh => exact h.elim

end Canvas

namespace Decoder

variable {α : Type} [CanvasAllocator α]

/-- Whatever the supply would answer, it is not asked, and the call succeeds. -/
theorem execute_of_idle (d : Decoder α) {i : Instruction} {data : Payload}
    (h : d.canvas.Idle i data) : ∃ l, d.execute i data = (.ok (), { d with logger := l }) := by
  obtain ⟨hok, hcanvas, hallocator⟩ := (d.executes i data).of_stay h.not_moves
  have hcount := d.packetsDecoded_execute i data
  rw [h.draw] at hcanvas
  generalize d.execute i data = r at hok hcanvas hallocator hcount
  obtain ⟨x, c, a, l, n⟩ := r
  cases hok
  cases hcanvas
  cases hallocator
  cases hcount
  exact ⟨l, rfl⟩

/-- Execute some instructions in order. -/
def executeAll (d : Decoder α) (calls : List (Instruction × Payload)) : Decoder α :=
  calls.foldl (fun d call => (d.execute call.1 call.2).2) d

/-- The calls of a stream that are not marked. -/
def unmarked (stream : List ((Instruction × Payload) × Bool)) : List (Instruction × Payload) :=
  (stream.filter fun call => !call.2).map Prod.fst

/-- The calls that are marked find nothing to do, each at its turn. -/
def MarksIdle (d : Decoder α) : List ((Instruction × Payload) × Bool) → Prop
  | [] => True
  | (call, marked) :: rest =>
    (marked = true → d.canvas.Idle call.1 call.2) ∧ (d.execute call.1 call.2).2.MarksIdle rest

/-- A run without its idle calls keeps step with the run itself. -/
theorem Agree.executeAll_unmarked {d e : Decoder α} (h : d.Agree e)
    {before after : List ((Instruction × Payload) × Bool)}
    (hmarks : d.MarksIdle (before ++ after)) :
    (d.executeAll (before.map Prod.fst)).Agree (e.executeAll (unmarked before)) := by
  induction before generalizing d e with
  | nil => exact h
  | cons entry rest ih =>
    obtain ⟨⟨i, data⟩, marked⟩ := entry
    obtain ⟨hidle, hrest⟩ := hmarks
    cases marked with
    | true =>
      -- Only the full run makes the call, which leaves it where it was.
      obtain ⟨l, hl⟩ := d.execute_of_idle (hidle rfl)
      have hstill : (d.execute i data).2.Agree e := by
        rw [hl]
        exact ⟨h.canvas, h.allocator, h.packetsDecoded⟩
      exact ih hstill hrest
    | false => exact ih (h.execute i data).2 hrest

/-- Calls that find nothing to do change nothing. Whatever state a decoder is in and whatever its
supply would answer, they succeed and leave all but the trace as it was. Among them are the scrolls
that move by nothing, which are those that have no command and the offsets that are there already.
So any of these calls can be taken out of a stream: after every other call, the canvas, the supply
and the count are what they would have been. -/
theorem idle_calls_change_nothing :
    (∀ (d : Decoder α) (i : Instruction) (data : Payload), d.canvas.Idle i data →
      ∃ l, d.execute i data = (.ok (), { d with logger := l })) ∧
    (∀ (d : Decoder α) (data : Payload),
      d.canvas.shiftOf data = ⟨0, 0⟩ ↔ d.canvas.AlreadyThere data) ∧
    ∀ (d : Decoder α) (stream : List ((Instruction × Payload) × Bool)), d.MarksIdle stream →
      ∀ before after, stream = before ++ after →
        (d.executeAll (before.map Prod.fst)).Agree (d.executeAll (unmarked before)) := by
  refine ⟨fun d i data => d.execute_of_idle, fun d => d.canvas.shiftOf_eq_zero_iff, ?_⟩
  rintro d _ hmarks before after rfl
  exact (Agree.refl d).executeAll_unmarked hmarks

/-- A decoder that shows a blank picture at the largest fine offset. There is no second canvas for
it. -/
def cornered : Decoder Pool :=
  ⟨Canvas.empty.setOffset 5 11, { capacity := 1, memory := .ample, live := 1 }, .silent, 0⟩

/-- A scroll without a command to offsets past the largest ones. -/
def overshoot : Payload :=
  Vector.ofFn fun i => if i.val = 1 then 0x37 else if i.val = 2 then 0x0F else 0

/-- A tile in the last cell of the picture, which no offset leaves there. -/
def lastTile : Payload :=
  Vector.ofFn fun i => if i.val = 2 then 17 else if i.val = 3 then 49 else 0

/-- A preset that is made for the third time. -/
def thirdPreset : Payload := Vector.ofFn fun i => if i.val = 1 then 2 else 9

/-- Five calls that find nothing to do, and between them one that is refused. -/
def lazyStream : List ((Instruction × Payload) × Bool) :=
  [((.scrollCopy, overshoot), true), ((.tileBlockXor, lastTile), true),
    ((.scrollPreset, rightward), false), ((.memoryPreset, thirdPreset), true),
    ((.borderPreset, thirdPreset), true), ((.unknown 7, rightward), true)]

theorem marksIdle_lazyStream : cornered.MarksIdle lazyStream := by
  have hscroll : cornered.canvas.Idle .scrollCopy overshoot := by decide
  have htile : cornered.canvas.Idle .tileBlockXor lastTile := by decide
  have hthird : thirdPreset.second &&& 15 ≠ 0 := by decide
  obtain ⟨l, hl⟩ := cornered.execute_of_idle hscroll
  refine ⟨fun _ => hscroll, ?_⟩
  rw [hl]
  exact ⟨fun _ => htile, nofun, fun _ => hthird, fun _ => hthird, fun _ => trivial, trivial⟩

theorem idle_calls_of_cornered :
    (cornered.MarksIdle lazyStream ∧ cornered.canvas.shiftOf overshoot = ⟨0, 0⟩) ∧
      (∃ l, cornered.execute .scrollCopy overshoot = (.ok (), { cornered with logger := l })) ∧
      cornered.canvas.AlreadyThere overshoot ∧
      (cornered.executeAll (lazyStream.map Prod.fst)).Agree
        (cornered.executeAll [(.scrollPreset, rightward)]) := by
  obtain ⟨hone, hscroll, hall⟩ := idle_calls_change_nothing (α := Pool)
  have hshift : cornered.canvas.shiftOf overshoot = ⟨0, 0⟩ := by decide
  exact ⟨⟨marksIdle_lazyStream, hshift⟩, hone cornered .scrollCopy overshoot hshift,
    (hscroll cornered overshoot).mp hshift,
    hall cornered lazyStream marksIdle_lazyStream lazyStream [] rfl⟩

end Decoder
end DiscGraphics
