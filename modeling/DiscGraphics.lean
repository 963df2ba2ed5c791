import DiscGraphics.Allocator
import DiscGraphics.BufferedFile
import DiscGraphics.Canvas.Basic
import DiscGraphics.Canvas.Paint
import DiscGraphics.Canvas.PaletteLoad
import DiscGraphics.Canvas.Preset
import DiscGraphics.Canvas.Rect
import DiscGraphics.Canvas.Scroll
import DiscGraphics.Canvas.Scrolled
import DiscGraphics.Canvas.Tile
import DiscGraphics.Clock
import DiscGraphics.CommandLine
import DiscGraphics.Config
import DiscGraphics.Decoder
import DiscGraphics.Error
import DiscGraphics.Exporter
import DiscGraphics.FileTree
import DiscGraphics.Files
import DiscGraphics.Frame
import DiscGraphics.Instruction
import DiscGraphics.Json.Reader
import DiscGraphics.Json.Token
import DiscGraphics.Logger
import DiscGraphics.Main
import DiscGraphics.Memory
import DiscGraphics.Packet
import DiscGraphics.Palette
import DiscGraphics.Path
import DiscGraphics.Picture
import DiscGraphics.Picture.Png
import DiscGraphics.Playback.Source
import DiscGraphics.Playback.Stats
import DiscGraphics.Player
import DiscGraphics.Proofs.BufferedFile
import DiscGraphics.Proofs.Bytes
import DiscGraphics.Proofs.Channels
import DiscGraphics.Proofs.Chronicle
import DiscGraphics.Proofs.Chunking
import DiscGraphics.Proofs.ColorTable
import DiscGraphics.Proofs.Colors
import DiscGraphics.Proofs.Conservation
import DiscGraphics.Proofs.Custody
import DiscGraphics.Proofs.Delivery
import DiscGraphics.Proofs.Drawing
import DiscGraphics.Proofs.Emission
import DiscGraphics.Proofs.Entry
import DiscGraphics.Proofs.ExportDirectory
import DiscGraphics.Proofs.ExportedPictures
import DiscGraphics.Proofs.Exporting
import DiscGraphics.Proofs.FreshStart
import DiscGraphics.Proofs.Idling
import DiscGraphics.Proofs.Invariant
import DiscGraphics.Proofs.JsonText
import DiscGraphics.Proofs.Ledger
import DiscGraphics.Proofs.OpenFiles
import DiscGraphics.Proofs.Palette
import DiscGraphics.Proofs.Paths
import DiscGraphics.Proofs.Picture
import DiscGraphics.Proofs.Playback
import DiscGraphics.Proofs.PlayedExport
import DiscGraphics.Proofs.Presets
import DiscGraphics.Proofs.Rectangles
import DiscGraphics.Proofs.Recycling
import DiscGraphics.Proofs.Refusal
import DiscGraphics.Proofs.Reports
import DiscGraphics.Proofs.Restore
import DiscGraphics.Proofs.Resume
import DiscGraphics.Proofs.Rotation
import DiscGraphics.Proofs.RowPadding
import DiscGraphics.Proofs.Saving
import DiscGraphics.Proofs.SnapshotText
import DiscGraphics.Proofs.Step
import DiscGraphics.Proofs.Strips
import DiscGraphics.Proofs.Succession
import DiscGraphics.Proofs.Supply
import DiscGraphics.Proofs.Synchrony
import DiscGraphics.Proofs.TileOrder
import DiscGraphics.Proofs.Tiles
import DiscGraphics.Proofs.Totals
import DiscGraphics.Proofs.TraceBuffer
import DiscGraphics.Proofs.TraceIndices
import DiscGraphics.Proofs.Tracing
import DiscGraphics.Proofs.Transcript
import DiscGraphics.Proofs.Views
import DiscGraphics.Snapshot
import DiscGraphics.Snapshot.Text
import DiscGraphics.Tasks.Arguments
import DiscGraphics.Tasks.Run
import DiscGraphics.Toml.Date
import DiscGraphics.Toml.Document
import DiscGraphics.Toml.Number
import DiscGraphics.Toml.Quote
import DiscGraphics.Toml.Scalar
import DiscGraphics.Trace
