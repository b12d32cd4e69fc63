import SolidScript.Shape.Transform

/-!
# Primitive shapes

The primitives from the numbers and lists that a caller gives, narrowed in order.
-/

set_option autoImplicit false

namespace SolidScript.Factory
open Binary

def circle (diameter : Scalar) : Except Fault Shape := do return .circle (← diameter.narrow)

def square (side : Scalar) : Except Fault Shape := do return .square (← side.narrow)

def rectangle (width height : Scalar) : Except Fault Shape := do
  return .rectangle [← width.narrow, ← height.narrow]

def points (size : Int) (ps : List Nested) : Except Fault (List Coordinates) :=
  ps.mapM (·.toVector (some size))

def polygon (ps : List Nested) : Except Fault Shape := do return .polygon (← points 2 ps)

def cube (side : Scalar) : Except Fault Shape := do return .cube (← side.narrow)

def box (x y z : Scalar) : Except Fault Shape := do
  return .cuboid [← x.narrow, ← y.narrow, ← z.narrow]

def cuboid (size : Nested) : Except Fault Shape := do return .cuboid (← size.toVector (some 3))

def sphere (radius : Scalar) : Except Fault Shape := do return .sphere (← radius.narrow)

def spheroid (radii : Nested) : Except Fault Shape := (Shape.sphere (.ofInt 1)).scaleEach radii

def cylinder (height radius : Scalar) : Except Fault Shape := do
  return .cylinder (← height.narrow) (← radius.narrow)

def firstFace : List Int := [0, 1, 2]

end SolidScript.Factory
