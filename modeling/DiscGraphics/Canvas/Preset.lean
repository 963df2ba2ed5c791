import DiscGraphics.Canvas.Rect

/-!
The preset instructions fill the whole canvas or its border with one colour. A packet whose repeat
count is not zero repeats one already applied and draws nothing.
-/
namespace DiscGraphics

def presetValues (data : Payload) : UInt8 × UInt8 := (nibble data.first, nibble data.second)

namespace Canvas

def memoryPreset (c : Canvas) (data : Payload) : Canvas :=
  if (presetValues data).2 = 0 then c.fill (presetValues data).1 else c

/-- Fill the border: the bands at the top and the bottom, then the sides between them. -/
def borderPreset (c : Canvas) (data : Payload) : Except Fault Canvas :=
  if (presetValues data).2 = 0 then do
    let color := (presetValues data).1
    let side := height - 2 * borderHeight
    let c ← c.fillRect 0 0 width borderHeight color
    let c ← c.fillRect 0 (height - borderHeight) width borderHeight color
    let c ← c.fillRect 0 borderHeight borderWidth side color
    c.fillRect (width - borderWidth) borderHeight borderWidth side color
  else
    .ok c

def paintBorder (c : Canvas) (color : UInt8) : Canvas :=
  let band (_ _ : Nat) (_ : UInt8) : UInt8 := nibble color
  (((c.paint 0 0 300 12 band).paint 0 204 300 12 band).paint 0 12 6 192 band).paint 294 12 6 192
    band

/-- A border preset stays on the picture. -/
theorem borderPreset_eq_ok (c : Canvas) (data : Payload) :
    c.borderPreset data =
      .ok (if (presetValues data).2 = 0 then c.paintBorder (presetValues data).1 else c) := by
  unfold borderPreset
  split
  · simp (disch := decide) only [fillRect_eq_ok]
    rfl
  · rfl

end Canvas
end DiscGraphics
