/-! The graphics commands of a disc's subcode and the numbers they travel under. -/
namespace DiscGraphics

/-- A graphics command. Every code outside the command set is `unknown` and draws nothing. -/
inductive Instruction where
  | memoryPreset
  | borderPreset
  | tileBlock
  | scrollPreset
  | scrollCopy
  | loadPaletteLow
  | loadPaletteHigh
  | tileBlockXor
  | unknown (code : UInt8)
  deriving DecidableEq, Repr, Inhabited

namespace Instruction

def ofCode (code : UInt8) : Instruction :=
  if code = 1 then .memoryPreset
  else if code = 2 then .borderPreset
  else if code = 6 then .tileBlock
  else if code = 20 then .scrollPreset
  else if code = 24 then .scrollCopy
  else if code = 30 then .loadPaletteLow
  else if code = 31 then .loadPaletteHigh
  else if code = 38 then .tileBlockXor
  else .unknown code

def code : Instruction → UInt8
  | .memoryPreset => 1
  | .borderPreset => 2
  | .tileBlock => 6
  | .scrollPreset => 20
  | .scrollCopy => 24
  | .loadPaletteLow => 30
  | .loadPaletteHigh => 31
  | .tileBlockXor => 38
  | .unknown code => code

/-- The mnemonic of a command in traces and reports. -/
def name : Instruction → String
  | .memoryPreset => "MEMORY_PRESET"
  | .borderPreset => "BORDER_PRESET"
  | .tileBlock => "TILE_BLOCK"
  | .scrollPreset => "SCROLL_PRESET"
  | .scrollCopy => "SCROLL_COPY"
  | .loadPaletteLow => "LOAD_PAL_LO"
  | .loadPaletteHigh => "LOAD_PAL_HIGH"
  | .tileBlockXor => "TILE_BLOCK_XOR"
  | .unknown _ => "UNKNOWN"

/-- A command in full: its mnemonic with its code in brackets. -/
def label (i : Instruction) : String := s!"{i.name}({i.code})"

/-- A scroll is the one kind of command that replaces the canvas. -/
def isScroll : Instruction → Bool
  | .scrollPreset | .scrollCopy => true
  | _ => false

theorem ofCode_code {i : Instruction} (h : ∀ c, i ≠ .unknown c) : ofCode i.code = i := by
  cases i <;> first | rfl | exact absurd rfl (h _)

@[simp] theorem code_ofCode (c : UInt8) : (ofCode c).code = c := by
  unfold ofCode
  repeat' split
  all_goals simp_all [code]

end Instruction
end DiscGraphics
