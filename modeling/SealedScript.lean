import SealedScript.Bootstrap
import SealedScript.CommandLine.Basic
import SealedScript.CommandLine.FileTree
import SealedScript.Decimal.FiniteFloat
import SealedScript.Decimal.Layout
import SealedScript.Decimal.Shortest
import SealedScript.Digest.Sha256
import SealedScript.Exception
import SealedScript.Host.Engine
import SealedScript.Host.Request
import SealedScript.Json.Number
import SealedScript.Json.Quoted
import SealedScript.Json.Read
import SealedScript.Json.Shape
import SealedScript.Json.Skip
import SealedScript.Json.Tree
import SealedScript.Launch
import SealedScript.Machine.Basic
import SealedScript.Machine.Call
import SealedScript.Machine.Conversion
import SealedScript.Machine.Description
import SealedScript.Machine.Ending
import SealedScript.Machine.Engine
import SealedScript.Machine.Execution
import SealedScript.Machine.Import
import SealedScript.Main
import SealedScript.Namespace
import SealedScript.Operator.Basic
import SealedScript.Operator.Floating
import SealedScript.Operator.Integer
import SealedScript.Operator.Repetition
import SealedScript.Program.Basic
import SealedScript.Program.Decode
import SealedScript.Program.Encode
import SealedScript.Program.Load
import SealedScript.Program.Seal
import SealedScript.Stream
import SealedScript.Table
import SealedScript.Text.Invisible
import SealedScript.Value.Basic
import SealedScript.Value.Text
import SealedScript.Proofs.Reading.Outcome
import SealedScript.Proofs.Reading.Quoted
import SealedScript.Proofs.Decimal.Text
import SealedScript.Proofs.Reading.Number
import SealedScript.Proofs.Reading.Shape
import SealedScript.Proofs.Decimal.Shortest
import SealedScript.Proofs.Decimal.Spelling
import SealedScript.Proofs.Reading.Float
import SealedScript.Proofs.Reading.Program
import SealedScript.Proofs.Decimal.Binary64
import SealedScript.Proofs.Reading.Loaded
import SealedScript.Proofs.RoundTrip
import SealedScript.Proofs.ByteOrder
import SealedScript.Proofs.Canonical
import SealedScript.Proofs.FloatDrift
import SealedScript.Proofs.Machine.Plain
import SealedScript.Proofs.Machine.Safe
import SealedScript.Proofs.Machine.Visits
import SealedScript.Proofs.ClosedWorld
import SealedScript.Proofs.Machine.Within
import SealedScript.Proofs.Machine.Layers
import SealedScript.Proofs.GlobalProtection
import SealedScript.Proofs.Machine.Position
import SealedScript.Proofs.FailingLine
import SealedScript.Proofs.LaunchOrder
import SealedScript.Proofs.ModuleCache
import SealedScript.Proofs.IntegerArithmetic
import SealedScript.Proofs.Propagation
import SealedScript.Proofs.Machine.Nesting
import SealedScript.Proofs.NestedTrace
import SealedScript.Proofs.Machine.Fuel
import SealedScript.Proofs.Footprint
import SealedScript.Proofs.DataText
import SealedScript.Proofs.LinePrinter
import SealedScript.Proofs.Decimal.Threshold
import SealedScript.Proofs.FloatPoint
import SealedScript.Proofs.Repetition
import SealedScript.Proofs.Decimal.Sign
import SealedScript.Proofs.RaisedKinds
import SealedScript.Proofs.BoolOperand
import SealedScript.Proofs.Reading.Extension
import SealedScript.Proofs.Framing
import SealedScript.Proofs.ConstructorChain
import SealedScript.Proofs.Machine.Census
import SealedScript.Proofs.Machine.Settled
import SealedScript.Proofs.Freshness
import SealedScript.Proofs.ValueEquality
import SealedScript.Proofs.Reading.Grammar
import SealedScript.Proofs.Reading.Tokens
import SealedScript.Proofs.Reading.Passing
import SealedScript.Proofs.Reading.Meaning
import SealedScript.Proofs.Reading.Records
import SealedScript.Proofs.Reading.Choices
import SealedScript.Proofs.TextLayout
import SealedScript.Proofs.TableHistory
import SealedScript.Proofs.StandardGlobals
