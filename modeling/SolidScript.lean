import SolidScript.Binary.Format
import SolidScript.Binary.Number
import SolidScript.Constant
import SolidScript.Decimal.Basic
import SolidScript.Decimal.Columns
import SolidScript.Decimal.FreeForm
import SolidScript.Decimal.Layout
import SolidScript.Decimal.Reader
import SolidScript.Decimal.Shortest
import SolidScript.Demo.Composition
import SolidScript.Demo.Program
import SolidScript.Demo.Puzzle
import SolidScript.Demo.Racetrack
import SolidScript.Demo.Transform
import SolidScript.Fault
import SolidScript.Index
import SolidScript.Main
import SolidScript.Message
import SolidScript.Nested
import SolidScript.Scalar
import SolidScript.Script.Argument
import SolidScript.Script.Arithmetic
import SolidScript.Script.Command
import SolidScript.Script.Context
import SolidScript.Script.Demonstration
import SolidScript.Script.Equality
import SolidScript.Script.Function
import SolidScript.Script.Method
import SolidScript.Script.Shown
import SolidScript.Script.Step
import SolidScript.Script.Value
import SolidScript.Sequence
import SolidScript.Shape.Array
import SolidScript.Shape.Basic
import SolidScript.Shape.Combine
import SolidScript.Shape.Factory
import SolidScript.Shape.Kind
import SolidScript.Shape.Render
import SolidScript.Shape.Sum
import SolidScript.Shape.Transform
import SolidScript.Solid.Beveled
import SolidScript.Solid.Centred
import SolidScript.Solid.Half
import SolidScript.Store
import SolidScript.Text.LowerCase
import SolidScript.Text.Numeral
import SolidScript.Text.Printable
import SolidScript.Text.Quoted
import SolidScript.Proofs.Binary.Nearest
import SolidScript.Proofs.Decimal.Interval
import SolidScript.Proofs.Decimal.Value
import SolidScript.Proofs.Decimal.Reading
import SolidScript.Proofs.Decimal.RoundTrip
import SolidScript.Proofs.Script.Commands
import SolidScript.Proofs.Script.Methods
import SolidScript.Proofs.Script.Run
import SolidScript.Proofs.Shape.Indent
import SolidScript.Proofs.Shape.Injective
import SolidScript.Proofs.Shape.Meaning
import SolidScript.Proofs.Shape.Merging
import SolidScript.Proofs.Shape.Lines
import SolidScript.Proofs.Shape.Content
import SolidScript.Proofs.Shape.Layers
import SolidScript.Proofs.Script.Chains
import SolidScript.Proofs.Binary.Whole
import SolidScript.Proofs.Shape.Turning
import SolidScript.Proofs.Binary.Neighbours
import SolidScript.Proofs.Decimal.Search
import SolidScript.Proofs.Decimal.Shortest
import SolidScript.Proofs.Shape.Extending
import SolidScript.Proofs.Text.LowerCase
import SolidScript.Proofs.Script.Reducing
import SolidScript.Proofs.Sequence
import SolidScript.Proofs.Script.Views
import SolidScript.Proofs.Binary.Order
import SolidScript.Proofs.Shape.EqualTurns
import SolidScript.Proofs.Script.EqualTurns
import SolidScript.Proofs.Script.Dimensionless
import SolidScript.Proofs.Script.Saving
import SolidScript.Proofs.Binary.Real
import SolidScript.Proofs.Binary.Scaling
import SolidScript.Proofs.Binary.Multiples
import SolidScript.Proofs.Shape.Moved
import SolidScript.Proofs.Script.Copies
import SolidScript.Proofs.Solid.Centred
import SolidScript.Proofs.Solid.Lattice
import SolidScript.Proofs.Solid.Space
import SolidScript.Proofs.Solid.OnePiece
import SolidScript.Proofs.Script.Clipping
import SolidScript.Proofs.Decimal.Canonical
import SolidScript.Proofs.Shape.Rectangular
import SolidScript.Proofs.Script.Nesting
import SolidScript.Proofs.Script.Product
import SolidScript.Proofs.Binary.Extended
import SolidScript.Proofs.Script.Narrowing
import SolidScript.Proofs.Path
