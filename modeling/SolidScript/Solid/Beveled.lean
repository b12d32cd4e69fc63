import SolidScript.Shape.Array

/-!
# Bevelled boxes

A box with bevelled edges is the hull of three cuboids, each inset by the bevel on two axes. A
block of such boxes on a lattice is held together by a solid core.
-/

set_option autoImplicit false

namespace SolidScript
open Binary

namespace Shape

def two : Single := .ofInt 2

def beveledBox (size : Nested) (bevel : Scalar) : Except Fault Shape := do
  match ← size.toVector (some 3) with
  | [x, y, z] =>
    let b ← bevel.narrow
    let o : Single := .zero false
    combine .hull [
      ← (cuboid [x, y - b * two, z - b * two]).translate (.vector [o, b, b]),
      ← (cuboid [x - b * two, y - b * two, z]).translate (.vector [b, b, o]),
      ← (cuboid [x - b * two, y, z - b * two]).translate (.vector [b, o, b])]
  | _ => .error .tripleExpected

def row (s : Shape) (step : Coordinates) (n : Int) : Except Fault Shape := do
  (← s.iterTranslate (.vector step) (.whole n)).combine .union

/-- The core reaches from the bevels of the first box to those of the last. -/
def core (counts : List Int) (side inset : Single) : Except Fault Shape := do
  let extents ← counts.mapM fun n => do return side * (← (Scalar.whole n).narrow) - two * inset
  (cuboid extents).translate (.vector [inset, inset, inset])

/-- Bevelled cubes in a lattice, each with a gap around it, and their core. -/
def beveledCubeBlock (nx ny nz : Int) (cubeSide bevel gap : Scalar) : Except Fault Shape := do
  let side ← cubeSide.narrow
  let b ← bevel.narrow
  let g ← gap.narrow
  let o : Single := .zero false
  let edge := side - two * g
  let cell ← (← beveledBox (.vector [edge, edge, edge]) (.single b)).translate (.vector [g, g, g])
  let line ← cell.row [side, o, o] nx
  let sheet ← line.row [o, side, o] ny
  let lattice ← sheet.row [o, o, side] nz
  lattice.union [← core [nx, ny, nz] side (g + b)]

end Shape
end SolidScript
