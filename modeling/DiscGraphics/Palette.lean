import DiscGraphics.Packet

/-!
Colours and the table of sixteen colours a picture indexes into. A disc carries four bits a channel;
a colour is kept as `0xRRGGBB`.
-/
namespace DiscGraphics

/-- A 12-bit colour, four bits a channel, with each channel stretched to eight bits. -/
def expandColor (color : UInt16) : UInt32 :=
  let c := color.toUInt32
  let red := ((c >>> 8) &&& 0x0F) * 17
  let green := ((c >>> 4) &&& 0x0F) * 17
  let blue := (c &&& 0x0F) * 17
  (red <<< 16) ||| (green <<< 8) ||| blue

def channels (rgb : UInt32) : Array UInt8 :=
  #[(rgb >>> 16).toUInt8, (rgb >>> 8).toUInt8, rgb.toUInt8]

/-- The channels of a colour and full opacity. -/
def opaqueChannels (rgb : UInt32) : Array UInt8 :=
  (channels rgb).push 0xFF

structure Palette where
  colors : Vector UInt32 16
  deriving DecidableEq, Repr

namespace Palette

def black : Palette := ⟨Vector.replicate 16 0⟩

instance : Inhabited Palette := ⟨black⟩

/-- The entry an index means: its low four bits count. -/
def entry (index : UInt8) : Fin 16 := Fin.ofNat 16 index.toNat

def get (p : Palette) (index : UInt8) : UInt32 := p.colors[entry index]

/-- Give an entry a colour, of which the low 24 bits count. -/
def set (p : Palette) (index : UInt8) (rgb : UInt32) : Palette :=
  ⟨p.colors.set (entry index).val (rgb &&& 0xFFFFFF) (entry index).isLt⟩

def expand (p : Palette) (indices : Array UInt8) : Array UInt8 :=
  indices.flatMap fun i => channels (p.get i)

@[simp] theorem get_black (index : UInt8) : black.get index = 0 := by
  simp [get, black]

theorem get_set (p : Palette) (i j : UInt8) (rgb : UInt32) :
    (p.set i rgb).get j = if entry i = entry j then rgb &&& 0xFFFFFF else p.get j := by
  simp [get, set, Vector.getElem_set, Fin.ext_iff]

theorem entry_eq_iff (i j : UInt8) : entry i = entry j ↔ nibble i = nibble j := by
  have h (b : UInt8) : (nibble b).toNat = (entry b).val := by
    have := Nat.and_two_pow_sub_one_eq_mod b.toNat 4
    simp only [nibble, entry, UInt8.toNat_and, Fin.val_ofNat]
    exact this
  rw [Fin.ext_iff, ← h, ← h, UInt8.toNat_inj]

end Palette
end DiscGraphics
