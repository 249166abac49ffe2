import HyprPilot.Base.Binary32
import HyprPilot.Base.Checked
import HyprPilot.Base.Collect
import HyprPilot.Base.Decimal
import HyprPilot.Base.Disk
import HyprPilot.Base.Files
import HyprPilot.Base.Greedy
import HyprPilot.Base.Int32
import HyprPilot.Base.Lines
import HyprPilot.Base.Notify
import HyprPilot.Base.Pieces
import HyprPilot.Base.Pool
import HyprPilot.Base.Presses
import HyprPilot.Base.Prog
import HyprPilot.Base.Segments
import HyprPilot.Base.Shell
import HyprPilot.Base.Text
import HyprPilot.Base.TextLines
import HyprPilot.Base.Through
import HyprPilot.Base.Unfolding
import HyprPilot.Base.Utf8
import HyprPilot.Core.Connection
import HyprPilot.Core.DiffAccount
import HyprPilot.Core.DiffFocus
import HyprPilot.Core.DiffOrder
import HyprPilot.Core.Dispatch
import HyprPilot.Core.EventFields
import HyprPilot.Core.EventStream
import HyprPilot.Core.Events
import HyprPilot.Core.ExactMatch
import HyprPilot.Core.Hyprland
import HyprPilot.Core.Matching
import HyprPilot.Core.PreviewApply
import HyprPilot.Core.Restore
import HyprPilot.Core.RestoreConvergence
import HyprPilot.Core.RestoreFlips
import HyprPilot.Core.RestoreReversal
import HyprPilot.Core.Selector
import HyprPilot.Core.SelectorText
import HyprPilot.Core.Snapshot
import HyprPilot.Core.SnapshotFiles
import HyprPilot.Core.SnapshotHistory
import HyprPilot.Core.SnapshotStore
import HyprPilot.Core.Types
import HyprPilot.Vision.Geometry
import HyprPilot.Vision.Ocr
import HyprPilot.Vision.RowCenter
import HyprPilot.Vision.RunBoxes
import HyprPilot.Vision.Tsv
import HyprPilot.Vision.TsvWords
import HyprPilot.Vision.WordRuns
import HyprPilot.Input.Chords
import HyprPilot.Input.KeyText
import HyprPilot.Input.Keys
import HyprPilot.Input.Runner
import HyprPilot.Input.VirtualPointer
import HyprPilot.A11y.Element
import HyprPilot.A11y.PreOrder
import HyprPilot.A11y.Walk
import HyprPilot.Daemon.BindChoice
import HyprPilot.Daemon.Binds
import HyprPilot.Daemon.Cache
import HyprPilot.Daemon.CacheFreshness
import HyprPilot.Daemon.CacheWorld
import HyprPilot.Daemon.CommandLine
import HyprPilot.Daemon.ConcurrentRestore
import HyprPilot.Daemon.Engine
import HyprPilot.Daemon.EventCoverage
import HyprPilot.Daemon.EventTable
import HyprPilot.Daemon.Footprint
import HyprPilot.Daemon.Listening
import HyprPilot.Daemon.Protocol
import HyprPilot.Daemon.Quiet
import HyprPilot.Daemon.ReadYourWrites
import HyprPilot.Daemon.Reentrance
import HyprPilot.Daemon.RestoreFiles
import HyprPilot.Daemon.RuleFiring
import HyprPilot.Daemon.Rules
import HyprPilot.Daemon.Server
import HyprPilot.Daemon.ShortcutPayload
import HyprPilot.Daemon.Shutdown
import HyprPilot.Daemon.Undo
import HyprPilot.Daemon.UndoFailure
import HyprPilot.Daemon.UndoPersistence
import HyprPilot.Daemon.UndoRecords
import HyprPilot.Daemon.UndoReversal
import HyprPilot.Daemon.UndoState
import HyprPilot.Daemon.WorkspaceArgs
import HyprPilot.Mcp.Args
import HyprPilot.Mcp.Attribution
import HyprPilot.Mcp.Authority
import HyprPilot.Mcp.Capability
import HyprPilot.Mcp.ClickPoint
import HyprPilot.Mcp.DryRun
import HyprPilot.Mcp.Gate
import HyprPilot.Mcp.Grants
import HyprPilot.Mcp.Json
import HyprPilot.Mcp.Link
import HyprPilot.Mcp.LinkOrder
import HyprPilot.Mcp.LinkTraffic
import HyprPilot.Mcp.MatchChoice
import HyprPilot.Mcp.OwningWindow
import HyprPilot.Mcp.Protocol
import HyprPilot.Mcp.Replies
import HyprPilot.Mcp.Server
import HyprPilot.Mcp.Sight
import HyprPilot.Mcp.SingleOutput
import HyprPilot.Mcp.TargetOverflow
import HyprPilot.Mcp.Tools
import HyprPilot.Cli.ClickText
import HyprPilot.Cli.Commands
import HyprPilot.Cli.SamePoint
import HyprPilot.Wire.Form
import HyprPilot.Wire.Framing
import HyprPilot.Wire.JsonHeld
import HyprPilot.Wire.JsonLine
import HyprPilot.Wire.JsonRpc
import HyprPilot.Wire.JsonText
import HyprPilot.Wire.JsonValue
import HyprPilot.Wire.LinkCodec
import HyprPilot.Wire.Requests
import HyprPilot.Wire.Responses
import HyprPilot.Wire.Serde
import HyprPilot.Wire.StateFiles
import HyprPilot.Wire.Stdio
import HyprPilot.Host.Effects
import HyprPilot.Host.Held
import HyprPilot.Host.Pointer
import HyprPilot.Host.Routes
import HyprPilot.Host.Seat
