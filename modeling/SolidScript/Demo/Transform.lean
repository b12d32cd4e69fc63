import SolidScript.Demo.Composition

/-!
# Demonstration of transforms
-/

set_option autoImplicit false

namespace SolidScript.Demo.Transform

def translation : Except Fault Shape := do
  let s ← Factory.square (.whole 4)
  s.union [← s.translate (.ofInts [6, 0])]

def rotation : Except Fault Shape := do
  (← (← Factory.cube (.whole 1)).scale (.ofInts [4, 1, 1])).rotate (.ofInts [30, 45, 60])

def mirror : Except Fault Shape := do
  let moved ← (← Factory.circle (.whole 3)).translate (.ofInts [5, 0])
  moved.addMap (·.mirror (.ofInts [1, 0]))

def color : Except Fault Shape := do
  (← (← Factory.cube (.whole 9)).difference (← Factory.spheroid (.ofInts [5, 4, 3]))).color .red

def extrude : Except Fault Shape := do
  let turned ← (← Factory.square (.whole 9)).iterRotateEqual (.whole 6)
  (← turned.combine .union).linearExtrude (.whole 10)

def lathe : Except Fault Shape := do
  (← (← Factory.circle (.whole 4)).translate (.ofInts [10, 0])).rotateExtrude (.whole 180)

def all : List (String × Except Fault Shape) :=
  [("translation", translation), ("rotation", rotation), ("mirror", mirror), ("color", color),
    ("extrude", extrude), ("lathe", lathe)]

end SolidScript.Demo.Transform
