import SolidScript.Constant
import SolidScript.Shape.Array
import SolidScript.Shape.Factory

/-!
# Demonstration: a racetrack
-/

set_option autoImplicit false

namespace SolidScript
open Binary

namespace Demo

def defaultRadius : Scalar := .double (.ofInt 25)

/-- Two circles on either side of the origin, hulled into the outline of a stadium. -/
def racetrack (r : Scalar) : Except Fault Shape := do
  let round ← Factory.circle (← Scalar.mul (.double (.ofInt 1 / .ofInt 2)) r)
  let offset ← Scalar.div (← Scalar.mul r (.single pi)) (.whole 4)
  let ends ← (← round.translate (.of [.whole 0, offset])).iterRotateEqual (.whole 2)
  ends.combine .hull

end Demo
end SolidScript
