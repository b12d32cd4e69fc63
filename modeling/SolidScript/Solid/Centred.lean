import SolidScript.Shape.Combine
import SolidScript.Shape.Factory

/-!
# Solids centred at the origin

The rounded cube is computed in single precision; the truncated octahedron and the inverse of a
shape in double precision, and narrowed at the end.
-/

set_option autoImplicit false

namespace SolidScript
open Binary

def sqrtTwo : Double := .sqrt (.ofInt 2)

namespace Shape

/-- A cube with its corners cut by a sphere of radius side / √3. -/
def roundedCube (side : Scalar) : Except Fault Shape := do
  let s ← side.narrow
  let shift := -s * (.ofInt 1 / .ofInt 2)
  (← (cube s).translate (.vector [shift, shift, shift])).intersection
    [.sphere (s * (.ofInt 1 / .sqrt (.ofInt 3)))]

def turnedBox (extents offset : List Double) (angles : List Int) : Except Fault Shape := do
  let box ← Factory.cuboid (.of (extents.map .double))
  (← box.translate (.of (offset.map .double))).rotate (.of (angles.map .whole))

/-- The hull of three crossed boxes, each turned by half a right angle about its long axis. -/
def truncatedOctahedron (edge : Scalar) : Except Fault Shape := do
  let l ← edge.toDouble
  let two : Double := .ofInt 2
  let r := sqrtTwo * l
  let half := -l / two
  combine .hull [
    ← turnedBox [l, l, two * r] [half, half, -r] [0, 0, 45],
    ← turnedBox [l, two * r, l] [half, -r, half] [0, 45, 0],
    ← turnedBox [two * r, l, l] [-r, half, half] [45, 0, 0]]

def centredCube (edge : Scalar) : Except Fault Shape := do
  let shift := -(← edge.toDouble) / .ofInt 2
  (← Factory.cube edge).translate (.of [.double shift, .double shift, .double shift])

def invert (s : Shape) (edge : Scalar) : Except Fault Shape := do
  (← centredCube edge).difference s

end Shape
end SolidScript
