import SolidScript.Shape.Array
import SolidScript.Shape.Factory

/-!
# Demonstration of combinations
-/

set_option autoImplicit false

namespace SolidScript

def Nested.ofInts (xs : List Int) : Nested := .of (xs.map .whole)

namespace Demo.Composition

def squareNine : Except Fault Shape := Factory.square (.whole 9)

def circleFive : Except Fault Shape := Factory.circle (.whole 5)

def union : Except Fault Shape := do (← squareNine).union [← circleFive]

def difference : Except Fault Shape := do (← squareNine).difference (← circleFive)

def intersection : Except Fault Shape := do
  (← Factory.cube (.whole 9)).intersection [← Factory.sphere (.whole 6)]

def hull : Except Fault Shape := do
  let c ← Factory.circle (.whole 4)
  (← c.union [← c.translate (.ofInts [10, 0])]).hull

def minkowski : Except Fault Shape := do
  (← squareNine).minkowski [← Factory.circle (.whole 2)]

def rosette : Except Fault Shape := do
  let turned ← (← squareNine).iterRotate (.scalar (.whole 20)) (.whole 4)
  (← turned.combine .union).addMap (·.mirror (.ofInts [1, 0]))

def group : Except Fault Shape := do
  let c ← Factory.cube (.whole 3)
  let s ← (← Factory.sphere (.whole 2)).translate (.ofInts [5, 0, 0])
  let d ← (← Factory.cube (.whole 1)).translate (.ofInts [0, 5, 0])
  Shape.combine .union [c, s, d]

def all : List (String × Except Fault Shape) :=
  [("union", union), ("difference", difference), ("intersection", intersection), ("hull", hull),
    ("minkowski", minkowski), ("rosette", rosette), ("group", group)]

end Demo.Composition
end SolidScript
