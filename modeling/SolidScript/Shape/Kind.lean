/-!
# Names of the script language

The ways to combine shapes, the operations on one shape with the keyword of their parameter, the
dimensions, and the named colours and directions.
-/

set_option autoImplicit false

namespace SolidScript

inductive Dimension where
  | plane
  | space
deriving DecidableEq

def Dimension.size : Dimension → Nat
  | .plane => 2
  | .space => 3

inductive Kind where
  | union
  | intersection
  | difference
  | hull
  | minkowski
deriving DecidableEq

namespace Kind

def name : Kind → String
  | union => "union"
  | intersection => "intersection"
  | difference => "difference"
  | hull => "hull"
  | minkowski => "minkowski"

def all : List Kind := [union, intersection, difference, hull, minkowski]

def ofName? (s : String) : Option Kind := all.find? fun k => k.name = s

/-- A difference has a minuend and a subtrahend; other combinations take any number of children. -/
def accepts (k : Kind) (n : Nat) : Bool := k ≠ .difference || n = 2

theorem ofName?_name (k : Kind) : ofName? k.name = some k := by
  cases k <;> decide

end Kind

inductive Family where
  | transform
  | color
  | extrude
deriving DecidableEq

namespace Family

def name : Family → String
  | transform => "transform"
  | color => "color"
  | extrude => "extrude"

def all : List Family := [transform, color, extrude]

def ofName? (s : String) : Option Family := all.find? fun f => f.name = s

end Family

inductive Operation where
  | translate
  | rotate
  | scale
  | mirror
  | color
  | linearExtrude
  | rotateExtrude
deriving DecidableEq

namespace Operation

def name : Operation → String
  | translate => "translate"
  | rotate => "rotate"
  | scale => "scale"
  | mirror => "mirror"
  | color => "color"
  | linearExtrude => "linear_extrude"
  | rotateExtrude => "rotate_extrude"

def family : Operation → Family
  | translate | rotate | scale | mirror => .transform
  | color => .color
  | linearExtrude | rotateExtrude => .extrude

def keyword? : Operation → Option String
  | translate | scale | mirror => some "v"
  | rotate | color => none
  | linearExtrude => some "height"
  | rotateExtrude => some "angle"

def all : List Operation :=
  [translate, rotate, scale, mirror, color, linearExtrude, rotateExtrude]

def ofNames? (family name : String) : Option Operation :=
  all.find? fun o => o.family.name = family ∧ o.name = name

end Operation

inductive Color where
  | red
  | green
  | blue
deriving DecidableEq

namespace Color

def name : Color → String
  | red => "red"
  | green => "green"
  | blue => "blue"

def constant : Color → String
  | red => "RED"
  | green => "GREEN"
  | blue => "BLUE"

def all : List Color := [red, green, blue]

def ofName? (s : String) : Option Color := all.find? fun c => c.name = s

def ofConstant? (s : String) : Option Color := all.find? fun c => c.constant = s

end Color

inductive Aim where
  | north
  | south
  | east
  | west
  | up
  | down
deriving DecidableEq

namespace Aim

def name : Aim → String
  | north => "north"
  | south => "south"
  | east => "east"
  | west => "west"
  | up => "up"
  | down => "down"

def constant : Aim → String
  | north => "N"
  | south => "S"
  | east => "E"
  | west => "W"
  | up => "U"
  | down => "D"

def all : List Aim := [north, south, east, west, up, down]

def ofName? (s : String) : Option Aim := all.find? fun a => a.name = s

def ofConstant? (s : String) : Option Aim := all.find? fun a => a.constant = s

end Aim
end SolidScript
