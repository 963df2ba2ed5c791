import DiscGraphics.Player

/-!
The command line program: it plays one file, writes its frames as the settings say, then its final
frame, and reports what it met.
-/
namespace DiscGraphics

class Console (m : Type → Type) where
  print : String → m Unit
  complain : String → m Unit

namespace CommandLine

variable {m : Type → Type} [Monad m] [Console m] [Files m] [Clock m] [PngEncoder]

inductive Failure where
  | player (error : PlayerError)
  | exporting (error : ExportError)
  deriving DecidableEq, Repr

def Failure.report : Failure → String
  | .player e => e.report
  | .exporting e => e.report

def say (line : String) : m Unit := Console.print (line ++ "\n")

def reported : List Instruction :=
  [.memoryPreset, .borderPreset, .tileBlock, .tileBlockXor, .scrollPreset, .scrollCopy,
    .loadPaletteLow, .loadPaletteHigh]

/-- The report on a stream that was played. -/
def report (stats : PlaybackStats) (written : Nat) (final : String) : List String :=
  ["Playback Summary:",
    "=================",
    s!"Packets:        {stats.packets}",
    s!"Frames:         {stats.frames}",
    s!"Ignored:        {stats.ignored}",
    s!"Malformed:      {stats.malformed}",
    ""]
    ++ reported.map (fun i => padRight 16 i.name ++ toString (stats.count i))
    ++ ["", s!"Frames written: {written}", s!"Final frame:    {final}"]

/-- Play a file into an exporter, then write its final frame. There is no answer to a file that does
not end within so many reads. -/
def decodeFile (memory : Memory) (reads : Nat) (config : PlayerConfig) (path : String) :
    m (Option (Except Failure (PlaybackStats × Nat × String))) := do
  match ← FrameExporter.open? config.exporting (some path) with
  | .error e => pure (some (.error (.exporting e)))
  | .ok exporter =>
    match ← Player.open? config memory with
    | .error e => pure (some (.error (.player e)))
    | .ok player =>
      match ← player.playFile reads path FrameExporter.onFrame exporter with
      | none => pure none
      | some (answer, player, exporter) =>
        match answer, exporter.finish with
        | .error e, _ => pure (some (.error (.player e)))
        | .ok _, .error e => pure (some (.error (.exporting e)))
        | .ok stats, .ok written =>
          match ← player.screenshot with
          | .error e => pure (some (.error (.exporting e)))
          | .ok final => pure (some (.ok (stats, written.size, final)))

/-- The program. What it exits with, unless it is still reading its file after so many reads. -/
def run (memory : Memory) (reads : Nat) (name : String) (args : List String) :
    m (Option UInt32) := do
  match args with
  | [] =>
    Console.complain s!"Usage: {name} <file.cdg> [output_dir]\n"
    pure (some 1)
  | path :: more =>
    say "CD+G Decoder (cdg-rs) v0.1.0"
    say "=============================="
    say ""
    let config ← PlayerConfig.loadOrDefault PlayerConfig.fileName
    say s!"Configuration loaded from '{PlayerConfig.fileName}'"
    let config := match more with
      | [] => config
      | directory :: _ =>
        { config with exporting := { config.exporting with outputDirectory := directory } }
    say s!"Decoding: {path}"
    say ""
    match ← decodeFile memory reads config path with
    | none => pure none
    | some (.error e) =>
      Console.complain s!"Error: {e.report}\n"
      pure (some 1)
    | some (.ok (stats, written, final)) =>
      (report stats written final).forM say
      pure (some 0)

end CommandLine
end DiscGraphics
