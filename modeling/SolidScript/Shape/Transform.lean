import SolidScript.Shape.Sum

/-!
# Transforms

An operation on a shape is a new node around it, with two exceptions: moving a moved shape adds
the offsets, and turning a turned shape adds the angles if both turns are of one form.
-/

set_option autoImplicit false

namespace SolidScript
open Binary

def firstParameter : List Parameter → Except Fault Parameter
  | [] => .error .missingParameter
  | p :: _ => .ok p

namespace Shape

def coordinates (s : Shape) (n : Nested) : Except Fault Coordinates :=
  n.toVector (s.dim.map fun d => ↑d.size)

def scalarOrVector (s : Shape) : Nested → Except Fault Parameter
  | .scalar x => do return .scalar (.single (← x.narrow))
  | n => do return .vector (← s.coordinates n)

def translate (s : Shape) (offset : Nested) : Except Fault Shape := do
  let xs ← s.coordinates offset
  match s with
  | operator .translate parameters child =>
    return operator .translate [← (← firstParameter parameters).move xs] child
  | s => return operator .translate [.vector xs] s

def rotate (s : Shape) (angle : Nested) : Except Fault Shape := do
  let turn ← s.scalarOrVector angle
  match s with
  | operator .rotate parameters child =>
    match ← (← firstParameter parameters).turn? turn with
    | some sum => return operator .rotate [sum] child
    | none => return operator .rotate [turn] s
  | s => return operator .rotate [turn] s

def scaleEach (s : Shape) (factors : Nested) : Except Fault Shape := do
  return operator .scale [.vector (← s.coordinates factors)] s

def scale (s : Shape) (factor : Nested) : Except Fault Shape := do
  return operator .scale [← s.scalarOrVector factor] s

def mirror (s : Shape) (normal : Nested) : Except Fault Shape := do
  return operator .mirror [.vector (← s.coordinates normal)] s

def color (s : Shape) (c : Color) : Except Fault Shape := operate .color [.color c] s

def linearExtrude (s : Shape) (height : Scalar) : Except Fault Shape := do
  operate .linearExtrude [.scalar (.single (← height.narrow))] s

def rotateExtrude (s : Shape) (angle : Scalar) : Except Fault Shape := do
  operate .rotateExtrude [.scalar (.single (← angle.narrow))] s

end Shape
end SolidScript
