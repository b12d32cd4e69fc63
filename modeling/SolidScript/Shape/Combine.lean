import SolidScript.Shape.Basic
import SolidScript.Text.LowerCase

/-!
# Combining shapes

A combination takes more operands as further children of itself instead of a new combination
around it; its operands are never taken apart. A kind given by name is read without regard to case.
-/

set_option autoImplicit false

namespace SolidScript

def Kind.read (name : String) : Except Fault Kind :=
  match ofName? (Text.lower name) with
  | some k => .ok k
  | none => .error (.unknownKind (Text.lower name))

namespace Shape

def operands (kind : Kind) : Shape → List Shape
  | s@(combination k children) => if k = kind then children else [s]
  | s => [s]

def extend (kind : Kind) (s : Shape) (others : List Shape) : Except Fault Shape :=
  combine kind (s.operands kind ++ others)

def union (s : Shape) (others : List Shape) : Except Fault Shape := s.extend .union others

def intersection (s : Shape) (others : List Shape) : Except Fault Shape :=
  s.extend .intersection others

def minkowski (s : Shape) (others : List Shape) : Except Fault Shape := s.extend .minkowski others

def difference (s other : Shape) : Except Fault Shape := combine .difference [s, other]

/-- A union gives its children to the hull. -/
def hull (s : Shape) : Except Fault Shape := combine .hull (s.operands .union)

def addMap (s : Shape) (f : Shape → Except Fault Shape) : Except Fault Shape := do
  s.union [← f s]

def compose (kind : String) (children : List Shape) : Except Fault Shape := do
  combine (← Kind.read kind) children

/-- A difference has an order of its own and is no way to put many shapes together. -/
def reducible (kind : String) : Except Fault Unit :=
  if kind = "difference" then .error .differenceReduction else .ok ()

def reduce (kind : String) (shapes : List Shape) : Except Fault Shape := do
  reducible kind
  compose kind shapes

end Shape
end SolidScript
