import DiscGraphics.Canvas.Basic
import DiscGraphics.Files
import DiscGraphics.Toml.Document
import DiscGraphics.Toml.Quote
import DiscGraphics.Trace

/-!
The settings of the player and their text form: a TOML document with the sections `decoder`,
`export` and `logging`. A document may hold more than that; all settings but the log file must be
there.
-/
namespace DiscGraphics

structure DecoderConfig where
  stride : Nat := width
  poolCapacity : Nat := 2
  deriving DecidableEq, Repr

structure ExportConfig where
  outputDirectory : String := "frames"
  /-- Every how many frames one is written; zero for none. -/
  frameInterval : UInt64 := 0
  cropBorder : Bool := false
  includeTimestamp : Bool := true
  deriving DecidableEq, Repr

structure LoggingConfig where
  level : LogLevel := .error
  packetTrace : Bool := false
  logFile : Option String := none
  deriving DecidableEq, Repr

structure PlayerConfig where
  decoder : DecoderConfig := {}
  exporting : ExportConfig := {}
  logging : LoggingConfig := {}
  deriving DecidableEq, Repr, Inhabited

/-- Why settings were not read: the text is no configuration, or it could not be had. -/
inductive ConfigError where
  | invalidData
  | io (error : HostError)
  deriving DecidableEq, Repr

namespace PlayerConfig

def fileName : String := "cdg_config.toml"

def size? : Toml → Option Nat
  | .integer n => if 0 ≤ n ∧ n < UInt64.size then some n.toNat else none
  | _ => none

def boolean? : Toml → Option Bool
  | .boolean b => some b
  | _ => none

def text? : Toml → Option String
  | .text s => some s
  | _ => none

/-- A level by its name, which an empty table or array may follow as its only value. -/
def level? : Toml → Option LogLevel
  | .text s => LogLevel.ofName? s
  | .table _ [(name, .table _ [])] => LogLevel.ofName? name
  | .table _ [(name, .array [])] => LogLevel.ofName? name
  | _ => none

def decoderOfToml? (t : Toml) : Option DecoderConfig :=
  match t.fields? ["stride", "pool_capacity"] with
  | some [some stride, some capacity] => do
    some ⟨← size? stride, ← size? capacity⟩
  | _ => none

def exportOfToml? (t : Toml) : Option ExportConfig :=
  match t.fields? ["output_directory", "frame_interval", "crop_border", "include_timestamp"] with
  | some [some directory, some interval, some crop, some stamp] => do
    some ⟨← text? directory, .ofNat (← size? interval), ← boolean? crop, ← boolean? stamp⟩
  | _ => none

def loggingOfToml? (t : Toml) : Option LoggingConfig :=
  match t.fields? ["level", "packet_trace", "log_file"] with
  | some [some level, some packets, some file] => do
    some ⟨← level? level, ← boolean? packets, some (← text? file)⟩
  | some [some level, some packets, none] => do
    some ⟨← level? level, ← boolean? packets, none⟩
  | _ => none

def ofToml? (t : Toml) : Option PlayerConfig :=
  match t.fields? ["decoder", "export", "logging"] with
  | some [some decoder, some exporting, some logging] => do
    some ⟨← decoderOfToml? decoder, ← exportOfToml? exporting, ← loggingOfToml? logging⟩
  | _ => none

def ofText (text : String) : Except ConfigError PlayerConfig :=
  match (Toml.parse? text).bind ofToml? with
  | some c => .ok c
  | none => .error .invalidData

/-- The text of settings: a section after the other, each a header and a line a field. -/
def toText (c : PlayerConfig) : String :=
  let logFile := match c.logging.logFile with
    | some path => s!"log_file = {Toml.quote path}\n"
    | none => ""
  "[decoder]\n"
    ++ s!"stride = {c.decoder.stride}\n"
    ++ s!"pool_capacity = {c.decoder.poolCapacity}\n"
    ++ "\n[export]\n"
    ++ s!"output_directory = {Toml.quote c.exporting.outputDirectory}\n"
    ++ s!"frame_interval = {c.exporting.frameInterval}\n"
    ++ s!"crop_border = {c.exporting.cropBorder}\n"
    ++ s!"include_timestamp = {c.exporting.includeTimestamp}\n"
    ++ "\n[logging]\n"
    ++ s!"level = {Toml.quote c.logging.level.name}\n"
    ++ s!"packet_trace = {c.logging.packetTrace}\n"
    ++ logFile

variable {m : Type → Type} [Monad m] [Files m]

def save (c : PlayerConfig) (path : String) : m (Except ConfigError Unit) := do
  match ← Files.store path c.toText.toUTF8 with
  | .ok () => pure (.ok ())
  | .error e => pure (.error (.io e))

def load (path : String) : m (Except ConfigError PlayerConfig) := do
  match ← Files.readText path with
  | .ok text => pure (ofText text)
  | .error (.host e) => pure (.error (.io e))
  | .error _ => pure (.error .invalidData)

/-- The settings in a file. If there are none to be had, the default ones, which are saved there if
that can be done. -/
def loadOrDefault (path : String) : m PlayerConfig := do
  match ← load path with
  | .ok c => pure c
  | .error _ =>
    let c : PlayerConfig := {}
    let _ ← c.save path
    pure c

end PlayerConfig
end DiscGraphics
