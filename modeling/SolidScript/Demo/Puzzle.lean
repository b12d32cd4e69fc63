import SolidScript.Decimal.Basic
import SolidScript.Demo.Composition
import SolidScript.Solid.Beveled
import SolidScript.Solid.Centred

/-!
# Demonstration: a puzzle piece

A cubic frame of bars and, beside it, a thin tetrahedron that just passes through its opening. The
width of a bar is `e`, the side of the frame `s`.
-/

set_option autoImplicit false

namespace SolidScript.Demo.Puzzle
open Binary

def defaultBar : Scalar := .double (.ofInt 10)

def defaultSide : Scalar := .double (.ofInt 50)

def turned (s : Shape) (step : List Int) (n : Int) : Except Fault Shape := do
  (← s.iterRotate (.ofInts step) (.whole n)).combine .union

def frame (e s : Scalar) : Except Fault Shape := do
  let bar ← Shape.beveledBox (.of [e, e, s]) (.double (.ofInt 1))
  let x ← Scalar.sub (← Scalar.div s (.whole 2)) e
  let z ← Scalar.div (← Scalar.neg s) (.whole 2)
  let four ← turned (← bar.translate (.of [x, x, z])) [0, 0, 90] 4
  turned (← turned four [0, 90, 0] 2) [90, 0, 0] 2

def thickness : Double := Decimal.round .double ⟨false, 1, -2⟩

def tetra (e s : Scalar) : Except Fault Shape := do
  let edge ← Scalar.mul (← Scalar.sub s (← Scalar.mul (.whole 2) e)) (.double sqrtTwo)
  let rod ← Factory.box edge (.double thickness) (.double thickness)
  let x ← Scalar.div (← Scalar.neg edge) (.whole 2)
  let z ← Scalar.div (← Scalar.div edge (.whole 2)) (.double sqrtTwo)
  let placed ← rod.translate (.of [x, .whole 0, z])
  (← placed.addMap (·.rotate (.ofInts [180, 0, 90]))).hull

def piece (e s : Scalar) : Except Fault Shape := do
  let frame ← frame e s
  let tetra ← (← tetra e s).translate (.of [s, .whole 0, .whole 0])
  frame.union [tetra]

end SolidScript.Demo.Puzzle
