import SolidScript.Constant
import SolidScript.Shape.Transform

/-!
# Half planes and half spaces

A square or cube so large that it covers one side of the origin.
-/

set_option autoImplicit false

namespace SolidScript
open Binary

namespace Shape

/-- In the plane, up is north and down is south. -/
def halfPlane (aim : Aim) : Except Fault Shape :=
  let m := halfSide
  let half := -m / .ofInt 2
  let offset := match aim with
    | .north | .up => [half, .zero false]
    | .south | .down => [half, -m]
    | .east => [.zero false, half]
    | .west => [-m, half]
  (square m).translate (.vector offset)

def halfSpace (aim : Aim) : Except Fault Shape :=
  let m := halfSide
  let half := -m / .ofInt 2
  let offset := match aim with
    | .north => [half, .zero false, half]
    | .south => [half, -m, half]
    | .east => [.zero false, half, half]
    | .west => [-m, half, half]
    | .up => [half, half, .zero false]
    | .down => [half, half, -m]
  (cube m).translate (.vector offset)

end Shape
end SolidScript
