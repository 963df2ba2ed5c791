import DiscGraphics.Json.Reader
import DiscGraphics.Snapshot

/-!
Snapshots as JSON texts. One is written as an object of its fields in order, and read from an object
with its fields in any order and others among them, or from an array of the fields alone.
-/
namespace DiscGraphics

namespace Json

/-- A character inside a quoted text. Quotes, backslashes and control characters are escaped. -/
def escapeChar (c : Char) : List Char :=
  if c = '"' then ['\\', '"']
  else if c = '\\' then ['\\', '\\']
  else if c = '\x08' then ['\\', 'b']
  else if c = '\t' then ['\\', 't']
  else if c = '\n' then ['\\', 'n']
  else if c = '\x0c' then ['\\', 'f']
  else if c = '\r' then ['\\', 'r']
  else if c.toNat < 32 then
    ['\\', 'u', '0', '0', Nat.digitChar (c.toNat / 16), Nat.digitChar (c.toNat % 16)]
  else [c]

def quote (s : String) : String :=
  "\"" ++ String.ofList (s.toList.flatMap escapeChar) ++ "\""

def numberList (ns : List Nat) : String := "[" ++ ",".intercalate (ns.map Nat.repr) ++ "]"

def below? (bound : Nat) : Json → Option Nat
  | .natural n => if n < bound then some n else none
  | _ => none

def bool? : Json → Option Bool
  | .bool b => some b
  | _ => none

def text? : Json → Option String
  | .text t => t
  | _ => none

def array? : Json → Option (List Json)
  | .array items => some items
  | _ => none

/-- The value of a key that stands in an object exactly once. -/
def member? (members : List (String × Json)) (key : String) : Option Json :=
  match members.filter fun m => m.1 == key with
  | [m] => some m.2
  | _ => none

end Json

namespace Snapshot

def fieldNames : List String :=
  ["version", "timestamp", "packets_decoded", "hscroll", "vscroll", "palette", "palette_changed",
    "pixels"]

def fieldTexts (s : Snapshot) : List String :=
  [Nat.repr s.version.toNat, Json.quote s.timestamp, Nat.repr s.packetsDecoded.toNat,
    Nat.repr s.horizontal.toNat, Nat.repr s.vertical.toNat,
    Json.numberList (s.palette.toList.map UInt32.toNat),
    if s.paletteChanged then "true" else "false",
    Json.numberList (s.pixels.toList.map UInt8.toNat)]

def toText (s : Snapshot) : String :=
  let members := fieldNames.zipWith (fun k v => Json.quote k ++ ":" ++ v) s.fieldTexts
  "\x7b" ++ ",".intercalate members ++ "\x7d"

/-- A snapshot from the values of its fields in order. -/
def ofFields? : List Json → Option Snapshot
  | [version, timestamp, packets, horizontal, vertical, palette, changed, pixels] => do
    let version ← version.below? UInt32.size
    let timestamp ← timestamp.text?
    let packets ← packets.below? UInt64.size
    let horizontal ← horizontal.below? 256
    let vertical ← vertical.below? 256
    let palette ← (← palette.array?).mapM fun j => j.below? UInt32.size
    let changed ← changed.bool?
    let pixels ← (← pixels.array?).mapM fun j => j.below? 256
    some
      { version := .ofNat version
        timestamp := timestamp
        packetsDecoded := .ofNat packets
        horizontal := .ofNat horizontal
        vertical := .ofNat vertical
        palette := (palette.map UInt32.ofNat).toArray
        paletteChanged := changed
        pixels := (pixels.map UInt8.ofNat).toArray }
  | _ => none

def ofJson? : Json → Option Snapshot
  | .array items => ofFields? items
  | .object members => do
    let members ← members.mapM fun m => m.1.map (·, m.2)
    let fields ← fieldNames.mapM (Json.member? members)
    ofFields? fields
  | _ => none

def ofText (text : String) : Except SnapshotError Snapshot :=
  match (Json.parse? text).bind ofJson? with
  | some s => .ok s
  | none => .error (.serialization "not a snapshot")

variable {m : Type → Type} [Monad m] [Files m]

def save (s : Snapshot) (path : String) : m (Except SnapshotError Unit) := do
  match ← Files.writeText path s.toText with
  | .ok () => pure (.ok ())
  | .error e => pure (.error (.io e))

def load (path : String) : m (Except SnapshotError Snapshot) := do
  match ← Files.readText path with
  | .ok text => pure (ofText text)
  | .error e => pure (.error (.io e))

end Snapshot
end DiscGraphics
