import Blockwork.Block.Basic
import Blockwork.Block.Registry
import Blockwork.Block.Trigger
import Blockwork.Engine.Arithmetic
import Blockwork.Engine.Bench
import Blockwork.Engine.Body
import Blockwork.Engine.Calls
import Blockwork.Engine.Context
import Blockwork.Engine.Interpreter
import Blockwork.Engine.Machine
import Blockwork.Engine.Outbox
import Blockwork.Engine.Routine
import Blockwork.Engine.Signal
import Blockwork.Engine.Thread
import Blockwork.Engine.Timers
import Blockwork.Error
import Blockwork.Ini
import Blockwork.Json.Basic
import Blockwork.Json.Reader
import Blockwork.Json.Relaxed
import Blockwork.Library
import Blockwork.Number.Decimal
import Blockwork.Number.Dyad
import Blockwork.Operation
import Blockwork.Proofs.Acts
import Blockwork.Proofs.AtOnce
import Blockwork.Proofs.BroadcastWait
import Blockwork.Proofs.Broadcasts
import Blockwork.Proofs.CallFrames
import Blockwork.Proofs.Calls
import Blockwork.Proofs.Delays
import Blockwork.Proofs.Dispatch
import Blockwork.Proofs.EdgeHats
import Blockwork.Proofs.Effects
import Blockwork.Proofs.ErrorPolicy
import Blockwork.Proofs.Faults
import Blockwork.Proofs.Firing
import Blockwork.Proofs.Folding
import Blockwork.Proofs.FrameEnd
import Blockwork.Proofs.Independence
import Blockwork.Proofs.InputBinding
import Blockwork.Proofs.Lifecycle
import Blockwork.Proofs.Loops
import Blockwork.Proofs.Meaning
import Blockwork.Proofs.Moment
import Blockwork.Proofs.Outline
import Blockwork.Proofs.PrimitiveSessions
import Blockwork.Proofs.PrimitiveSteps
import Blockwork.Proofs.Primitives
import Blockwork.Proofs.Recursion
import Blockwork.Proofs.Redraw
import Blockwork.Proofs.Registration
import Blockwork.Proofs.ReturnKinds
import Blockwork.Proofs.RoundOrder
import Blockwork.Proofs.SceneBuilding
import Blockwork.Proofs.Settlement
import Blockwork.Proofs.SignalUse
import Blockwork.Proofs.SingleInstance
import Blockwork.Proofs.Slice
import Blockwork.Proofs.SliceBound
import Blockwork.Proofs.Tokens
import Blockwork.Proofs.Turns
import Blockwork.Proofs.Vocabulary
import Blockwork.Proofs.WaitHistory
import Blockwork.Proofs.Waking
import Blockwork.Proofs.Warp
import Blockwork.Proofs.WarpMode
import Blockwork.Proofs.WriteFrame
import Blockwork.Ron
import Blockwork.Scene.Basic
import Blockwork.Scene.Script
import Blockwork.Scene.Target
import Blockwork.Settings.Basic
import Blockwork.Settings.Datum
import Blockwork.Settings.Decode
import Blockwork.Settings.Document
import Blockwork.Settings.EnvFile
import Blockwork.Settings.Layer
import Blockwork.Settings.Load
import Blockwork.Settings.Path
import Blockwork.Settings.Text
import Blockwork.Shape.Basic
import Blockwork.Shape.Descriptor
import Blockwork.Table
import Blockwork.Text.Blank
import Blockwork.Text.Case
import Blockwork.Text.CaseData
import Blockwork.Text.Ranges
import Blockwork.Text.Word
import Blockwork.Text.WordData
import Blockwork.Time
import Blockwork.Toml.Basic
import Blockwork.Toml.Draft
import Blockwork.Toml.Quoted
import Blockwork.Toml.Reader
import Blockwork.Toml.Scalar
import Blockwork.Value.Basic
import Blockwork.Value.Tree
import Blockwork.Yaml.Cursor
import Blockwork.Yaml.Node
import Blockwork.Yaml.Scalar
import Blockwork.Yaml.Scan
import Blockwork.Yaml.Token
import Blockwork.Proofs.Firing
import Blockwork.Proofs.FrameEnd
import Blockwork.Proofs.LooseOrder
import Blockwork.Proofs.Descriptors
import Blockwork.Proofs.Doubles
import Blockwork.Proofs.Variables
import Blockwork.Proofs.SceneGrowth
import Blockwork.Proofs.WholeDoubles
import Blockwork.Proofs.Costumes
import Blockwork.Proofs.Numerals
