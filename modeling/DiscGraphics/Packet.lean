import DiscGraphics.Error
import DiscGraphics.Instruction

/-!
A subcode packet is a record of 24 bytes: a command, an instruction, sixteen bytes of data and
parity that is never read. Of a byte only the low six bits belong to the graphics channels.
-/
namespace DiscGraphics

/-- The bits of a byte that carry the graphics channels. -/
def sixBits (b : UInt8) : UInt8 := b &&& 0x3F

/-- The bits of a byte that name one of sixteen colours. -/
def nibble (b : UInt8) : UInt8 := b &&& 0x0F

theorem nibble_nibble (b : UInt8) : nibble (nibble b) = nibble b := by
  rw [nibble, nibble, UInt8.and_assoc, UInt8.and_self]

def graphicsCommand : UInt8 := 9

abbrev Payload := Vector UInt8 16

namespace Payload

/-! The bytes that most commands keep their parameters in. -/

def first (data : Payload) : UInt8 := data[0]

def second (data : Payload) : UInt8 := data[1]

def third (data : Payload) : UInt8 := data[2]

def fourth (data : Payload) : UInt8 := data[3]

end Payload

/-- What a record carries beside its parity bytes. -/
structure Packet where
  command : UInt8
  instructionByte : UInt8
  data : Payload
  deriving DecidableEq, Repr

namespace Packet

def ofRecord (r : Vector UInt8 24) : Packet where
  command := r[0]
  instructionByte := r[1]
  data := Vector.ofFn fun i => r[4 + i.val]

/-- A record of any size other than 24 bytes is refused. -/
def parse (bytes : List UInt8) : Except DecodeError Packet :=
  if h : bytes.length = 24 then
    .ok (ofRecord ⟨bytes.toArray, by simpa using h⟩)
  else
    .error (.malformedPacket bytes.length)

/-- The record of a packet, its parity bytes zero. -/
def toBytes (p : Packet) : List UInt8 :=
  [p.command, p.instructionByte, 0, 0] ++ p.data.toList ++ [0, 0, 0, 0]

/-- A graphics packet with clean upper bits. -/
def ofInstruction (i : Instruction) (data : Payload) : Packet :=
  ⟨graphicsCommand, i.code, data⟩

def isGraphics (p : Packet) : Bool := sixBits p.command == graphicsCommand

/-- The instruction is read from the low six bits of its byte. -/
def instruction (p : Packet) : Instruction := .ofCode (sixBits p.instructionByte)

@[simp] theorem length_toBytes (p : Packet) : p.toBytes.length = 24 := by
  simp [toBytes]

theorem parse_eq_error {bytes : List UInt8} (h : bytes.length ≠ 24) :
    parse bytes = .error (.malformedPacket bytes.length) := by
  simp [parse, h]

end Packet
end DiscGraphics
