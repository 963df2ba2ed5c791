/-! Why a canvas cannot be supplied, and why a record cannot be decoded. -/
namespace DiscGraphics

inductive AllocationError where
  | outOfMemory (bytes : Nat)
  /-- A row of this many bytes does not hold a row of the picture. -/
  | invalidStride (stride : Nat)
  /-- The pool has lent out every canvas it may. -/
  | poolExhausted (capacity : Nat)
  /-- The canvas supplied has rows of another length than asked for. -/
  | shapeMismatch (expected found : Nat)
  deriving DecidableEq, Repr

namespace AllocationError

def message : AllocationError → String
  | .outOfMemory bytes => s!"could not reserve {bytes} bytes for a canvas"
  | .invalidStride stride => s!"stride {stride} is narrower than a canvas row"
  | .poolExhausted capacity => s!"all {capacity} pooled canvases are in use"
  | .shapeMismatch expected found =>
    s!"canvas stride mismatch: expected {expected}, found {found}"

/-- The error written out with its fields, for a report of what ended a program. -/
def report : AllocationError → String
  | .outOfMemory bytes => s!"OutOfMemory \x7b bytes: {bytes} \x7d"
  | .invalidStride stride => s!"InvalidStride \x7b stride: {stride} \x7d"
  | .poolExhausted capacity => s!"PoolExhausted \x7b capacity: {capacity} \x7d"
  | .shapeMismatch expected found =>
    s!"ShapeMismatch \x7b expected: {expected}, found: {found} \x7d"

end AllocationError

/-- Why a record is not decoded. Nothing else stops a decoder. -/
inductive DecodeError where
  /-- The record is not 24 bytes long. -/
  | malformedPacket (length : Nat)
  /-- A scroll found no second canvas. -/
  | bufferAllocationFailure (cause : AllocationError)
  deriving DecidableEq, Repr

namespace DecodeError

def message : DecodeError → String
  | .malformedPacket length => s!"malformed packet: expected 24 bytes, got {length}"
  | .bufferAllocationFailure cause => s!"buffer allocation failed: {cause.message}"

def report : DecodeError → String
  | .malformedPacket length => s!"MalformedPacket \x7b len: {length} \x7d"
  | .bufferAllocationFailure cause => s!"BufferAllocationFailure({cause.report})"

/-- The messages from the error down to its first cause. -/
def chain (e : DecodeError) : List String :=
  match e with
  | .malformedPacket _ => [e.message]
  | .bufferAllocationFailure cause => [e.message, cause.message]

end DecodeError
end DiscGraphics
