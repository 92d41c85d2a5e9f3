import RenderKernel.Code.Context
import RenderKernel.Code.Emitter
import RenderKernel.Code.Lease
import RenderKernel.Code.Lifecycle
import RenderKernel.Code.Memory
import RenderKernel.Code.Options
import RenderKernel.Code.Options.Json
import RenderKernel.Code.Options.Toml
import RenderKernel.Code.Region
import RenderKernel.Code.Scripted
import RenderKernel.Code.Session
import RenderKernel.Code.State
import RenderKernel.Decimal.Digits
import RenderKernel.Decimal.Layout
import RenderKernel.Decimal.Literal
import RenderKernel.Decimal.Shortest
import RenderKernel.Document.Mismatch
import RenderKernel.Geometry.Closeness
import RenderKernel.Geometry.Column
import RenderKernel.Geometry.Frame
import RenderKernel.Geometry.Grid
import RenderKernel.Geometry.Matrix
import RenderKernel.Geometry.Normal
import RenderKernel.Geometry.Operations
import RenderKernel.Geometry.Point
import RenderKernel.Geometry.Primitive
import RenderKernel.Geometry.Transform
import RenderKernel.Geometry.Vec
import RenderKernel.Json.Components
import RenderKernel.Json.Found
import RenderKernel.Json.Reader
import RenderKernel.Json.Scalar
import RenderKernel.Json.Value
import RenderKernel.Json.Writer
import RenderKernel.Log
import RenderKernel.Number.Arithmetic
import RenderKernel.Number.Binary
import RenderKernel.Number.Circular
import RenderKernel.Number.Computation
import RenderKernel.Number.Integer
import RenderKernel.Number.Operations
import RenderKernel.Number.Ratio
import RenderKernel.Number.Rounding
import RenderKernel.Processor.Feature
import RenderKernel.Processor.Feature.Json
import RenderKernel.Processor.Verification
import RenderKernel.Proofs.Geometry.Components
import RenderKernel.Proofs.Geometry.Homogeneous
import RenderKernel.Proofs.Geometry.Inverse
import RenderKernel.Proofs.Geometry.Matrix
import RenderKernel.Proofs.Geometry.Pairing
import RenderKernel.Proofs.Geometry.Rotation
import RenderKernel.Text.Block
import RenderKernel.Text.Hexadecimal
import RenderKernel.Text.Legible
import RenderKernel.Text.Quoted
import RenderKernel.Text.Shown
import RenderKernel.Text.Significant
import RenderKernel.Text.Unprintable
import RenderKernel.Toml.Found
import RenderKernel.Toml.Moment
import RenderKernel.Toml.Numeral
import RenderKernel.Toml.Quoted
import RenderKernel.Toml.Reader
import RenderKernel.Toml.Table
import RenderKernel.Toml.Value
import RenderKernel.Proofs.Geometry.Action
import RenderKernel.Proofs.Code.Memory
import RenderKernel.Proofs.Code.Lawful
import RenderKernel.Proofs.Code.Calls
import RenderKernel.Proofs.Code.Limit
import RenderKernel.Proofs.Code.Options
import RenderKernel.Proofs.Code.Turn
import RenderKernel.Proofs.Code.Stage
import RenderKernel.Proofs.Code.Order
import RenderKernel.Proofs.Code.Ledger
import RenderKernel.Proofs.Code.Closure
import RenderKernel.Proofs.Code.Lease
import RenderKernel.Proofs.Code.Program
import RenderKernel.Proofs.Code.Governance
import RenderKernel.Proofs.Code.Crowd
import RenderKernel.Proofs.Code.History
import RenderKernel.Proofs.Geometry.Affine
import RenderKernel.Proofs.Geometry.Motion
import RenderKernel.Proofs.Number.Ratio
import RenderKernel.Proofs.Number.Rounding
import RenderKernel.Proofs.Decimal.Digits
import RenderKernel.Proofs.Decimal.Numeral
import RenderKernel.Proofs.Decimal.Rounding
import RenderKernel.Proofs.Decimal.Literal
import RenderKernel.Proofs.Decimal.Precision
import RenderKernel.Proofs.Decimal.Neighbour
import RenderKernel.Proofs.Decimal.Shortest
import RenderKernel.Proofs.Decimal.Layout
import RenderKernel.Proofs.Text.Significant
import RenderKernel.Proofs.Json.Number
import RenderKernel.Proofs.Json.Components
import RenderKernel.Proofs.Geometry.Json
import RenderKernel.Proofs.Number.Nearest
import RenderKernel.Proofs.Text.Shown
import RenderKernel.Proofs.Text.Value
import RenderKernel.Proofs.Text.Reading
import RenderKernel.Proofs.Text.Block
import RenderKernel.Proofs.Decimal.Places
import RenderKernel.Proofs.Text.Cell
import RenderKernel.Proofs.Text.Alignment
import RenderKernel.Proofs.Geometry.Basis
import RenderKernel.Proofs.Geometry.Frame
import RenderKernel.Proofs.Geometry.Singular
import RenderKernel.Proofs.Geometry.Facing
import RenderKernel.Proofs.Number.Accumulation
import RenderKernel.Proofs.Geometry.Dot
import RenderKernel.Proofs.Code.Requirements
import RenderKernel.Proofs.Code.Reservation
import RenderKernel.Proofs.Traversal
import RenderKernel.Proofs.Geometry.Column
import RenderKernel.Proofs.Geometry.Length
import RenderKernel.Proofs.Geometry.Distance
import RenderKernel.Proofs.Geometry.Undoing
