import SolidScript.Decimal.Basic
import SolidScript.Nested

/-!
# Constants

The side of the huge clipping shapes stays three orders of magnitude below the largest number, so
that they can be moved and turned further.
-/

set_option autoImplicit false

namespace SolidScript
open Binary

def halfSide : Single := .largest / .ofInt 1000

def pi : Single := (Decimal.round .double ⟨false, 3141592653589793, -15⟩).convert

def axisX : Coordinates := [.ofInt 1, .ofInt 0, .ofInt 0]

def axisY : Coordinates := [.ofInt 0, .ofInt 1, .ofInt 0]

def axisZ : Coordinates := [.ofInt 0, .ofInt 0, .ofInt 1]

end SolidScript
