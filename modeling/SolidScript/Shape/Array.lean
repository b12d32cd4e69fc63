import SolidScript.Sequence
import SolidScript.Shape.Combine
import SolidScript.Shape.Transform

/-!
# Arrays of copies

Sequences of moved or turned copies of a shape. The step is checked when the sequence is made; a
copy is made when it is asked for.
-/

set_option autoImplicit false

namespace SolidScript
open Binary

namespace Shape

/-- Copies moved by 0, 1, 2, … steps. -/
def iterTranslate (s : Shape) (step : Nested) (n : Scalar) : Except Fault (Sequence Shape) := do
  let xs ← s.coordinates step
  return ⟨← n.toInt, fun i => do s.translate (.vector (xs.scale (← i.narrow)))⟩

def angleTimes (x : Single) (i : Index) : Except Fault Nested := do
  let y := x * (← i.narrow)
  match i with
  | .number _ => return .scalar (.single y)
  | .component _ => return .vector [y]

def turnTimes (turn : Parameter) (i : Index) : Except Fault Nested := do
  match turn with
  | .vector xs => return .vector (Coordinates.scale xs (← i.narrow))
  | .scalar x => angleTimes (← x.narrow) i
  | _ => .error .noNumber

def iterRotate (s : Shape) (step : Nested) (n : Scalar) : Except Fault (Sequence Shape) := do
  let turn ← s.scalarOrVector step
  return ⟨← n.toInt, fun i => do s.rotate (← turnTimes turn i)⟩

/-- The angle of copy `i` when a full turn is cut into `n` parts. -/
def equalAngle (n : Scalar) (i : Scalar) : Except Fault Scalar := do
  Scalar.mul (← Scalar.div (.double (.ofInt 360)) n) i

def equalTurn (n : Scalar) : Index → Except Fault Nested
  | .number i => do return .scalar (← equalAngle n i)
  | i@(.component _) => do
    angleTimes (← (← Scalar.div (.double (.ofInt 360)) n).narrow) i

def iterRotateEqual (s : Shape) (n : Scalar) : Except Fault (Sequence Shape) := do
  return ⟨← n.toInt, fun i => do s.rotate (← equalTurn n i)⟩

def edgeOffset (d : Single) : Index → Except Fault Nested
  | .number (.whole i) => .ok (.of (match i with
    | 0 => [.single d, .whole 0]
    | 1 => [.whole 0, .single d]
    | 2 => [.single (-d), .whole 0]
    | _ => [.whole 0, .single (-d)]))
  | _ => .error .wrongSort

/-- Four copies, moved to the right, up, to the left and down. -/
def iterSquareEdge (s : Shape) (distance : Scalar) : Except Fault (Sequence Shape) := do
  let d ← distance.narrow
  return ⟨4, fun i => do s.translate (← edgeOffset d i)⟩

def translateList (s : Shape) (step : Nested) (n : Scalar) : Except Fault (List Shape) := do
  (← s.iterTranslate step n).toList

end Shape

def Sequence.combine (kind : Kind) (s : Sequence Shape) : Except Fault Shape := do
  Shape.combine kind (← s.toList)

end SolidScript
