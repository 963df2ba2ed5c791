import DiscGraphics.Canvas.Scroll

/-! What a trace tells of decoding: packets, scrolls and messages, each written as one line. -/
namespace DiscGraphics

inductive LogLevel where
  | none
  | error
  | warning
  | info
  | debug
  | trace
  deriving DecidableEq, Repr, Inhabited

namespace LogLevel

def rank : LogLevel → Nat
  | .none => 0
  | .error => 1
  | .warning => 2
  | .info => 3
  | .debug => 4
  | .trace => 5

instance : LE LogLevel := ⟨fun a b => a.rank ≤ b.rank⟩

instance (a b : LogLevel) : Decidable (a ≤ b) := inferInstanceAs (Decidable (a.rank ≤ b.rank))

def name : LogLevel → String
  | .none => "none"
  | .error => "error"
  | .warning => "warning"
  | .info => "info"
  | .debug => "debug"
  | .trace => "trace"

def label : LogLevel → String
  | .none => "NONE"
  | .error => "ERROR"
  | .warning => "WARN"
  | .info => "INFO"
  | .debug => "DEBUG"
  | .trace => "TRACE"

def all : List LogLevel := [.none, .error, .warning, .info, .debug, .trace]

def ofName? (s : String) : Option LogLevel := all.find? fun l => l.name == s

theorem ofName?_name (l : LogLevel) : ofName? l.name = some l := by
  cases l <;> decide

end LogLevel

def padRight (n : Nat) (s : String) : String :=
  s ++ String.ofList (List.replicate (n - s.length) ' ')

/-- A number in decimal, made at least `n` digits long by zeros before it. -/
def padNumber (n k : Nat) : String :=
  let digits := toString k
  String.ofList (List.replicate (n - digits.length) '0') ++ digits

def signed (n : Int) : String :=
  if n < 0 then s!"-{n.natAbs}" else s!"+{n.natAbs}"

def upperHex (b : UInt8) : String :=
  let digit (n : Nat) : Char := (Nat.digitChar n).toUpper
  String.ofList [digit (b.toNat / 16), digit (b.toNat % 16)]

/-- A graphics packet met while decoding. -/
structure PacketTrace where
  index : UInt64
  instruction : Instruction
  data : Payload
  deriving DecidableEq, Repr

def PacketTrace.render (t : PacketTrace) : String :=
  let bytes := String.join (t.data.toList.map fun b => " " ++ upperHex b)
  s!"#{padNumber 8 t.index.toNat} {padRight 20 t.instruction.label}{bytes}"

/-- A scroll that moved the picture, and the fine offset it left. -/
structure ScrollTrace where
  mode : ScrollMode
  shift : ScrollShift
  horizontal : UInt8
  vertical : UInt8
  deriving DecidableEq, Repr

def ScrollTrace.render (t : ScrollTrace) : String :=
  s!"scroll {t.mode.name} dx={signed t.shift.dx} dy={signed t.shift.dy} "
    ++ s!"offset=({t.horizontal}, {t.vertical})"

inductive TraceEntry where
  | packet (trace : PacketTrace)
  | scroll (trace : ScrollTrace)
  | message (level : LogLevel) (text : String)
  deriving DecidableEq, Repr

def TraceEntry.render : TraceEntry → String
  | .packet trace => s!"PKT: {trace.render}"
  | .scroll trace => s!"SCR: {trace.render}"
  | .message level text => s!"[{level.label}] {text}"

end DiscGraphics
