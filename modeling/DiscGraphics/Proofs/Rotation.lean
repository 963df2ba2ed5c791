import Mathlib.Data.Fintype.Card
import Mathlib.Data.Fintype.Prod
import DiscGraphics.Proofs.Step

/-!
Scrolls with wrap-around along one axis at a time, which are rotations of a torus and add up. No
pixel is lost, and the order of the scrolls does not matter.
-/
namespace DiscGraphics

/-- Where a place on a circle of `n` places comes from when the circle is turned by `d`. -/
def turnAxis (n : Nat) (hn : 0 < n) (d : Int) : Equiv.Perm (Fin n) where
  toFun i := ⟨(((i : Nat) - d) % n).toNat, by
    have h₁ := Int.emod_nonneg ((i : Nat) - d) (Int.natCast_ne_zero.mpr hn.ne')
    have h₂ := Int.emod_lt_of_pos ((i : Nat) - d) (Int.natCast_pos.mpr hn)
    omega⟩
  invFun i := ⟨(((i : Nat) + d) % n).toNat, by
    have h₁ := Int.emod_nonneg ((i : Nat) + d) (Int.natCast_ne_zero.mpr hn.ne')
    have h₂ := Int.emod_lt_of_pos ((i : Nat) + d) (Int.natCast_pos.mpr hn)
    omega⟩
  left_inv i := by
    apply Fin.ext
    have h := Int.emod_nonneg ((i : Nat) - d) (Int.natCast_ne_zero.mpr hn.ne')
    simp only [Int.toNat_of_nonneg h, Int.emod_add_emod, Int.sub_add_cancel]
    rw [Int.emod_eq_of_lt (by omega) (by omega), Int.toNat_natCast]
  right_inv i := by
    apply Fin.ext
    have h := Int.emod_nonneg ((i : Nat) + d) (Int.natCast_ne_zero.mpr hn.ne')
    simp only [Int.toNat_of_nonneg h, Int.emod_sub_emod, Int.add_sub_cancel]
    rw [Int.emod_eq_of_lt (by omega) (by omega), Int.toNat_natCast]

theorem val_turnAxis {n : Nat} (hn : 0 < n) (d : Int) (i : Fin n) :
    (turnAxis n hn d i : Nat) = (((i : Nat) - d) % n).toNat := rfl

theorem turnAxis_zero {n : Nat} (hn : 0 < n) (i : Fin n) : turnAxis n hn 0 i = i := by
  apply Fin.ext
  rw [val_turnAxis, Int.sub_zero, Int.emod_eq_of_lt (by omega) (by omega), Int.toNat_natCast]

theorem turnAxis_turnAxis {n : Nat} (hn : 0 < n) (d e : Int) (i : Fin n) :
    turnAxis n hn d (turnAxis n hn e i) = turnAxis n hn (d + e) i := by
  apply Fin.ext
  have h := Int.emod_nonneg ((i : Nat) - e) (Int.natCast_ne_zero.mpr hn.ne')
  rw [val_turnAxis, val_turnAxis, val_turnAxis, Int.toNat_of_nonneg h, Int.emod_sub_emod]
  congr 2
  omega

theorem turnAxis_congr {n : Nat} (hn : 0 < n) {d e : Int} (h : d % n = e % n) :
    turnAxis n hn d = turnAxis n hn e := by
  apply Equiv.ext
  intro i
  apply Fin.ext
  rw [val_turnAxis, val_turnAxis, Int.sub_emod, h, ← Int.sub_emod]

abbrev Place := Fin width × Fin height

/-- Where a place comes from when the picture is turned on the torus. -/
def turn (dx dy : Int) : Equiv.Perm Place :=
  Equiv.prodCongr (turnAxis width (by decide) dx) (turnAxis height (by decide) dy)

theorem turn_zero (p : Place) : turn 0 0 p = p :=
  Prod.ext (turnAxis_zero _ _) (turnAxis_zero _ _)

theorem turn_turn (dx dy dx' dy' : Int) (p : Place) :
    turn dx dy (turn dx' dy' p) = turn (dx + dx') (dy + dy') p :=
  Prod.ext (turnAxis_turnAxis _ _ _ _) (turnAxis_turnAxis _ _ _ _)

theorem turn_congr {dx dy dx' dy' : Int} (hx : dx % width = dx' % width)
    (hy : dy % height = dy' % height) : turn dx dy = turn dx' dy' := by
  rw [turn, turn, turnAxis_congr _ hx, turnAxis_congr _ hy]

namespace Canvas

/-- The picture on a canvas, as a colour for each place. -/
def picture (c : Canvas) (p : Place) : UInt8 := c.pixel p.1 p.2

/-- Along one axis a strip shows what wraps around. -/
theorem scrolledPixel_copy (c : Canvas) {s : ScrollShift} (h : s.dx = 0 ∨ s.dy = 0)
    (color : UInt8) (p : Place) :
    c.scrolledPixel s color .copy p.1 p.2 = c.picture (turn s.dx s.dy p) := by
  obtain ⟨⟨x, hx⟩, ⟨y, hy⟩⟩ := p
  simp only [width, height] at hx hy
  change c.scrolledPixel s color .copy x y =
    c.pixel (((x : Int) - s.dx) % 300).toNat (((y : Int) - s.dy) % 216).toNat
  simp only [scrolledPixel, ScrollMode.fill, width, height]
  split
  · split
    · congr 1 <;> omega
    · congr 1
      omega
  · congr 1
    omega

end Canvas

namespace Decoder
open CanvasAllocator (Supplies)

variable {α : Type} [CanvasAllocator α]

/-- Run scrolls with wrap-around one after the other: their answers, and the state at the end. -/
def copyAll (d : Decoder α) : List Payload → List (Except DecodeError Unit) × Decoder α
  | [] => ([], d)
  | data :: rest =>
    let later := (d.execute .scrollCopy data).2.copyAll rest
    ((d.execute .scrollCopy data).1 :: later.1, later.2)

/-- Each scroll, when its turn comes, moves the picture along one axis at most. -/
def AxisAligned (d : Decoder α) : List Payload → Prop
  | [] => True
  | data :: rest =>
    ((d.canvas.shiftOf data).dx = 0 ∨ (d.canvas.shiftOf data).dy = 0) ∧
      (d.execute .scrollCopy data).2.AxisAligned rest

/-- How many payloads hold a horizontal command. -/
def countHorizontal (k : HorizontalCommand) (payloads : List Payload) : Nat :=
  payloads.countP fun data => (ScrollParams.ofPayload data).horizontal = k

def countVertical (k : VerticalCommand) (payloads : List Payload) : Nat :=
  payloads.countP fun data => (ScrollParams.ofPayload data).vertical = k

/-- How far some scrolls move the picture to the right in total. -/
def travelX (d : Decoder α) (payloads : List Payload) : Int :=
  6 * ((countHorizontal .right payloads : Int) - countHorizontal .left payloads) +
    (d.copyAll payloads).2.canvas.offset.horizontal.toNat - d.canvas.offset.horizontal.toNat

def travelY (d : Decoder α) (payloads : List Payload) : Int :=
  12 * ((countVertical .down payloads : Int) - countVertical .up payloads) +
    (d.copyAll payloads).2.canvas.offset.vertical.toNat - d.canvas.offset.vertical.toNat

/-- A scroll along one axis turns the picture, also when it moves nothing. -/
theorem Executes.picture_copy {c c' : Canvas} {a a' : α} {data : Payload}
    (h : Executes c a .scrollCopy data (.ok ()) c' a')
    (haxis : (c.shiftOf data).dx = 0 ∨ (c.shiftOf data).dy = 0) (p : Place) :
    c'.picture p = c.picture (turn (c.shiftOf data).dx (c.shiftOf data).dy p) := by
  cases h with
  | drawn hstay =>
    have hzero : (c.shiftOf data).dx = 0 ∧ (c.shiftOf data).dy = 0 := by
      by_contra hne
      apply hstay
      refine ⟨rfl, ?_⟩
      rw [ScrollShift.isZero]
      simpa using hne
    rw [hzero.1, hzero.2, turn_zero]
    rfl
  | scrolled hmode _ _ hs hout =>
    cases hmode
    have hd := Canvas.scrolled_of_ok hs.symm hout
    exact (hd.pixel p.1.isLt p.2.isLt).trans (c.scrolledPixel_copy haxis _ p)

theorem Executes.offset_copy {c c' : Canvas} {a a' : α} {data : Payload}
    (h : Executes c a .scrollCopy data (.ok ()) c' a') :
    c'.offset.horizontal = (ScrollParams.ofPayload data).horizontalOffset ∧
      c'.offset.vertical = (ScrollParams.ofPayload data).verticalOffset := by
  rw [h.becomes.offset_of_scroll rfl]
  simp only [Canvas.takeOffset, Canvas.setOffset, ScrollParams.ofPayload, FineOffset.clamp_self,
    and_self]

/-- One scroll at a time: it succeeds, turns the picture and leaves the supply willing. -/
theorem execute_copy (d : Decoder α) (h : Supplies d.canvas.stride d.allocator) (data : Payload) :
    (d.execute .scrollCopy data).1 = .ok () ∧
      Supplies (d.execute .scrollCopy data).2.canvas.stride
        (d.execute .scrollCopy data).2.allocator ∧
      Executes d.canvas d.allocator .scrollCopy data (.ok ())
        (d.execute .scrollCopy data).2.canvas (d.execute .scrollCopy data).2.allocator := by
  have hx := d.executes .scrollCopy data
  obtain ⟨hok, hnext⟩ := hx.of_supplies h
  rw [hok] at hx
  exact ⟨hok, hnext, hx⟩

/-- The first scroll moves the picture by its shift, the others by what is left. -/
theorem travelX_cons (d : Decoder α) (h : Supplies d.canvas.stride d.allocator) (data : Payload)
    (rest : List Payload) :
    d.travelX (data :: rest) =
      (d.canvas.shiftOf data).dx + (d.execute .scrollCopy data).2.travelX rest := by
  obtain ⟨-, -, hx⟩ := d.execute_copy h data
  simp only [travelX, copyAll, hx.offset_copy.1, Canvas.shiftOf, FineOffset.shift, countHorizontal,
    List.countP_cons]
  cases (ScrollParams.ofPayload data).horizontal <;> simp [HorizontalCommand.step] <;> omega

theorem travelY_cons (d : Decoder α) (h : Supplies d.canvas.stride d.allocator) (data : Payload)
    (rest : List Payload) :
    d.travelY (data :: rest) =
      (d.canvas.shiftOf data).dy + (d.execute .scrollCopy data).2.travelY rest := by
  obtain ⟨-, -, hx⟩ := d.execute_copy h data
  simp only [travelY, copyAll, hx.offset_copy.2, Canvas.shiftOf, FineOffset.shift, countVertical,
    List.countP_cons]
  cases (ScrollParams.ofPayload data).vertical <;> simp [VerticalCommand.step] <;> omega

/-- A run of scrolls, each along one axis, turns the picture by their total. -/
theorem picture_copyAll (d : Decoder α) (h : Supplies d.canvas.stride d.allocator)
    {payloads : List Payload} (haxis : d.AxisAligned payloads) :
    (∀ r ∈ (d.copyAll payloads).1, r = .ok ()) ∧
      ∀ p, (d.copyAll payloads).2.canvas.picture p =
        d.canvas.picture (turn (d.travelX payloads) (d.travelY payloads) p) := by
  induction payloads generalizing d with
  | nil =>
    refine ⟨fun r hr => (List.not_mem_nil hr).elim, fun p => ?_⟩
    have hx : d.travelX [] = 0 := by simp [travelX, copyAll, countHorizontal]
    have hy : d.travelY [] = 0 := by simp [travelY, copyAll, countVertical]
    rw [hx, hy, turn_zero]
    rfl
  | cons data rest ih =>
    obtain ⟨hok, hnext, hx⟩ := d.execute_copy h data
    obtain ⟨hone, hlater⟩ := haxis
    obtain ⟨hall, hpicture⟩ := ih _ hnext hlater
    refine ⟨?_, fun p => ?_⟩
    · intro r hr
      rcases List.mem_cons.mp hr with rfl | hr
      · exact hok
      · exact hall r hr
    · calc (d.copyAll (data :: rest)).2.canvas.picture p
          = (d.execute .scrollCopy data).2.canvas.picture _ := hpicture p
        _ = d.canvas.picture (turn _ _ (turn _ _ p)) := hx.picture_copy hone _
        _ = _ := by rw [turn_turn, travelX_cons d h, travelY_cons d h]

/-- Scrolls that keep to the side and leave the vertical fine offset at zero stay on one axis. -/
theorem axisAligned_of_level (d : Decoder α) (h : Supplies d.canvas.stride d.allocator)
    (hstart : d.canvas.offset.vertical = 0) {payloads : List Payload}
    (hlevel : ∀ data ∈ payloads, (ScrollParams.ofPayload data).vertical = .none ∧
      (ScrollParams.ofPayload data).verticalOffset = 0) : d.AxisAligned payloads := by
  induction payloads generalizing d with
  | nil => trivial
  | cons data rest ih =>
    obtain ⟨hcommand, hoffset⟩ := hlevel data List.mem_cons_self
    obtain ⟨-, hnext, hx⟩ := d.execute_copy h data
    constructor
    · right
      simp only [Canvas.shiftOf, FineOffset.shift, hcommand, hoffset, hstart, VerticalCommand.step]
      rfl
    · apply ih _ hnext
      · rw [hx.offset_copy.2, hoffset]
      · intro later hlater
        exact hlevel later (List.mem_cons_of_mem data hlater)

/-- Scrolls with wrap-around, each along one axis, succeed and turn the picture by their total. So
there are as many places of every colour as before, and scrolls of the same total, whatever their
order, leave the same picture. -/
theorem axisAligned_copies_rotate (d : Decoder α) (h : Supplies d.canvas.stride d.allocator)
    {payloads : List Payload} (haxis : d.AxisAligned payloads) :
    (∀ r ∈ (d.copyAll payloads).1, r = .ok ()) ∧
      (∀ x < width, ∀ y < height, (d.copyAll payloads).2.canvas.pixel x y =
        d.canvas.pixel (((x : Int) - d.travelX payloads) % width).toNat
          (((y : Int) - d.travelY payloads) % height).toNat) ∧
      (∀ color, (Finset.univ.filter fun p => (d.copyAll payloads).2.canvas.picture p = color).card =
        (Finset.univ.filter fun p => d.canvas.picture p = color).card) ∧
      ∀ others, d.AxisAligned others →
        d.travelX others % width = d.travelX payloads % width →
        d.travelY others % height = d.travelY payloads % height →
        (d.copyAll others).2.canvas.picture = (d.copyAll payloads).2.canvas.picture := by
  obtain ⟨hall, hpicture⟩ := d.picture_copyAll h haxis
  refine ⟨hall, ?_, ?_, ?_⟩
  · intro x hx y hy
    exact hpicture (⟨x, hx⟩, ⟨y, hy⟩)
  · intro color
    apply Finset.card_equiv (turn (d.travelX payloads) (d.travelY payloads))
    intro p
    rw [Finset.mem_filter_univ, Finset.mem_filter_univ, hpicture p]
  · intro others hothers hx hy
    obtain ⟨-, hother⟩ := d.picture_copyAll h hothers
    funext p
    rw [hother, hpicture, turn_congr hx hy]

/-- Twice one tile to the right on a blank canvas. -/
theorem two_tiles_rightward :
    Supplies (onHeap .ample).canvas.stride (onHeap .ample).allocator ∧
      (onHeap .ample).AxisAligned [rightward, rightward] ∧
      ∀ r ∈ ((onHeap .ample).copyAll [rightward, rightward]).1, r = .ok () := by
  have h : Supplies (onHeap .ample).canvas.stride (onHeap .ample).allocator :=
    Heap.supplies (by decide) (Memory.lends_ample (by decide))
  have haxis : (onHeap .ample).AxisAligned [rightward, rightward] := by
    apply (onHeap .ample).axisAligned_of_level h rfl
    intro data hdata
    rcases List.mem_pair.mp hdata with rfl | rfl <;> decide
  exact ⟨h, haxis, ((onHeap .ample).axisAligned_copies_rotate h haxis).1⟩

end Decoder
end DiscGraphics
