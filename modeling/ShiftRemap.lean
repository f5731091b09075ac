import ShiftRemap.Action
import ShiftRemap.Board.Layers
import ShiftRemap.Board.Matrix
import ShiftRemap.Board.Position
import ShiftRemap.Board.Queue
import ShiftRemap.Board.Reporter
import ShiftRemap.Board.Slots
import ShiftRemap.Dance.Basic
import ShiftRemap.Dance.Outcome
import ShiftRemap.Host.Basic
import ShiftRemap.Host.Notice
import ShiftRemap.Host.Recorder
import ShiftRemap.Key.Chord
import ShiftRemap.Key.Code
import ShiftRemap.Key.Modifiers
import ShiftRemap.Keyboard
import ShiftRemap.Number.Binary64
import ShiftRemap.Number.Shortest
import ShiftRemap.Pair.Basic
import ShiftRemap.Pair.Table
import ShiftRemap.Proofs.Accepted
import ShiftRemap.Proofs.AcceptedTable
import ShiftRemap.Proofs.ActiveLayers
import ShiftRemap.Proofs.BaseLayer
import ShiftRemap.Proofs.DanceLife
import ShiftRemap.Proofs.DanceTable
import ShiftRemap.Proofs.Dances
import ShiftRemap.Proofs.Filter
import ShiftRemap.Proofs.FirstFault
import ShiftRemap.Proofs.HeldKeys
import ShiftRemap.Proofs.HeldLayers
import ShiftRemap.Proofs.HijackRecord
import ShiftRemap.Proofs.HijackedPress
import ShiftRemap.Proofs.HijackedReleases
import ShiftRemap.Proofs.HostInvariant
import ShiftRemap.Proofs.HostMap
import ShiftRemap.Proofs.IdleShift
import ShiftRemap.Proofs.MatrixEvents
import ShiftRemap.Proofs.NameGrammar
import ShiftRemap.Proofs.NoStuckKeys
import ShiftRemap.Proofs.OneDance
import ShiftRemap.Proofs.Ownership
import ShiftRemap.Proofs.PairMap
import ShiftRemap.Proofs.PlainRuns
import ShiftRemap.Proofs.RecordedCalls
import ShiftRemap.Proofs.Registered
import ShiftRemap.Proofs.ReleaseOrder
import ShiftRemap.Proofs.ReportChanges
import ShiftRemap.Proofs.ReportStream
import ShiftRemap.Proofs.RunInvariant
import ShiftRemap.Proofs.SentReports
import ShiftRemap.Proofs.Shortcuts
import ShiftRemap.Proofs.SlotPlaces
import ShiftRemap.Proofs.SlowHost
import ShiftRemap.Proofs.Stages
import ShiftRemap.Proofs.Strokes
import ShiftRemap.Proofs.TakenOut
import ShiftRemap.Proofs.TypedText
import ShiftRemap.Proofs.UnderShift
import ShiftRemap.Proofs.Untriggered
import ShiftRemap.Proofs.WellFormedRuns
import ShiftRemap.Proofs.WireReads
import ShiftRemap.Proofs.WireSizes
import ShiftRemap.Proofs.WireStreams
import ShiftRemap.Remapper.Basic
import ShiftRemap.Remapper.Filter
import ShiftRemap.Remapper.Run
import ShiftRemap.Remapper.Tracker
import ShiftRemap.Report
import ShiftRemap.Settings.Basic
import ShiftRemap.Settings.Check
import ShiftRemap.Settings.KeyName
import ShiftRemap.Settings.Load
import ShiftRemap.Settings.Tree
import ShiftRemap.Text.Basic
import ShiftRemap.Text.Printable
import ShiftRemap.Toml.Document
import ShiftRemap.Toml.Grammar
import ShiftRemap.Toml.Parser
import ShiftRemap.Toml.Scalar
import ShiftRemap.Toml.Text
import ShiftRemap.Toml.Token
import ShiftRemap.Toml.Value
import ShiftRemap.Wire.Codec
import ShiftRemap.Wire.Varint
