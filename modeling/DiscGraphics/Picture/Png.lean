import DiscGraphics.Picture

/-!
A PNG form of pictures: eight bits a sample, an indexed palette, one chunk of image data whose rows
are unfiltered and whose compressed form stores them as they are.
-/
namespace DiscGraphics.PngEncoder

/-- A number in four bytes, the highest first. -/
def bytesOfWord (n : UInt32) : ByteArray :=
  ⟨#[(n >>> 24).toUInt8, (n >>> 16).toUInt8, (n >>> 8).toUInt8, n.toUInt8]⟩

/-- A number in two bytes, the lowest first. -/
def bytesOfShort (n : UInt16) : ByteArray := ⟨#[n.toUInt8, (n >>> 8).toUInt8]⟩

/-- One step of the cyclic redundancy check, for one bit. -/
def checkBit (c : UInt32) : UInt32 :=
  if c &&& 1 = 1 then (0xEDB88320 : UInt32) ^^^ (c >>> 1) else c >>> 1

/-- The cyclic redundancy check of a chunk. -/
def cyclicCheck (b : ByteArray) : UInt32 :=
  let step (c : UInt32) (byte : UInt8) : UInt32 :=
    Nat.repeat checkBit 8 (c ^^^ byte.toUInt32)
  b.foldl step 0xFFFFFFFF ^^^ 0xFFFFFFFF

/-- The two sums that close compressed data. -/
def sumCheck (b : ByteArray) : UInt32 :=
  let step (s : UInt32 × UInt32) (byte : UInt8) : UInt32 × UInt32 :=
    let low := (s.1 + byte.toUInt32) % 65521
    (low, (s.2 + low) % 65521)
  let (low, high) := b.foldl step (1, 0)
  (high <<< 16) ||| low

/-- A chunk: the size of its data, its name, the data, and the check of name and data. -/
def chunk (name : String) (data : ByteArray) : ByteArray :=
  let body := name.toUTF8 ++ data
  bytesOfWord data.size.toUInt32 ++ body ++ bytesOfWord (cyclicCheck body)

def blockSize : Nat := 65535

/-- Data stored in blocks, `n` blocks after the first one. -/
def storedBlocks (data : ByteArray) : Nat → Nat → ByteArray
  | 0, start =>
    let block := data.extract start data.size
    ⟨#[1]⟩ ++ bytesOfShort block.size.toUInt16 ++ bytesOfShort (~~~ block.size.toUInt16) ++ block
  | n + 1, start =>
    let block := data.extract start (start + blockSize)
    ⟨#[0]⟩ ++ bytesOfShort block.size.toUInt16 ++ bytesOfShort (~~~ block.size.toUInt16) ++ block
      ++ storedBlocks data n (start + blockSize)

/-- Data in the compressed format, without making it shorter. -/
def stored (data : ByteArray) : ByteArray :=
  ⟨#[0x78, 0x01]⟩ ++ storedBlocks data ((data.size - 1) / blockSize) 0
    ++ bytesOfWord (sumCheck data)

/-- The rows of a picture, each after the mark for an unfiltered row. -/
def scanlines (p : Picture) : ByteArray :=
  ⟨(Array.range p.height).flatMap fun y =>
    #[0] ++ (p.indices.extract (y * p.width) ((y + 1) * p.width)).data⟩

def signature : ByteArray := ⟨#[0x89, 0x50, 0x4E, 0x47, 0x0D, 0x0A, 0x1A, 0x0A]⟩

/-- Pictures as they are, none made shorter. -/
abbrev storing : PngEncoder where
  pieces p :=
    let head := bytesOfWord p.width.toUInt32 ++ bytesOfWord p.height.toUInt32
      ++ ⟨#[8, 3, 0, 0, 0]⟩
    [signature, chunk "IHDR" head, chunk "PLTE" ⟨p.palette⟩, chunk "IDAT" (stored (scanlines p))]
  ending := [chunk "IEND" .empty]

end DiscGraphics.PngEncoder
