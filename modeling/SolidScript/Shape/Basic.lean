import SolidScript.Nested

/-!
# Shapes

A shape is a primitive of the plane or of space, an operation on one shape, or a combination of
many. `combine` and `operate` refuse what would mix dimensions, so that the dimension of a shape is
that of any primitive in it; a combination of nothing has none.
-/

set_option autoImplicit false

namespace SolidScript
open Binary

mutual

inductive Parameter where
  | scalar (x : Scalar)
  | vector (xs : Coordinates)
  /-- What a sum has made of a list: its rows, and the numbers in them at the precision that they
  are added in. -/
  | array (rows : List Nested)
  | color (c : Color)
  | shape (s : Shape)
  | list (items : List Parameter)

inductive Shape where
  | circle (diameter : Single)
  | square (side : Single)
  | rectangle (size : Coordinates)
  | polygon (points : List Coordinates)
  | cube (side : Single)
  | cuboid (size : Coordinates)
  | sphere (radius : Single)
  | cylinder (height radius : Single)
  | polyhedron (points : List Coordinates) (faces : List (List Int))
  | operator (operation : Operation) (parameters : List Parameter) (child : Shape)
  | combination (kind : Kind) (children : List Shape)

end

instance : Inhabited Shape := ⟨.combination .union []⟩

namespace Shape

mutual

def dim : Shape → Option Dimension
  | circle _ | square _ | rectangle _ | polygon _ => some .plane
  | cube _ | cuboid _ | sphere _ | cylinder _ _ | polyhedron _ _ => some .space
  | operator o _ child => match o.family with
    | .extrude => some .space
    | .transform | .color => child.dim
  | combination _ children => firstDim children

def firstDim : List Shape → Option Dimension
  | [] => none
  | s :: ss => match s.dim with
    | some d => some d
    | none => firstDim ss

end

theorem firstDim_eq_findSome? (ss : List Shape) : firstDim ss = ss.findSome? dim := by
  induction ss with
  | nil => simp [firstDim]
  | cons s ss ih => cases h : s.dim <;> simp [firstDim, h, ih]

def mixes (ss : List Shape) : Bool :=
  ss.any (·.dim = some .plane) && ss.any (·.dim = some .space)

def combine (kind : Kind) (children : List Shape) : Except Fault Shape :=
  if ¬kind.accepts children.length then .error .differenceArity
  else if mixes children then .error (.mixedDimensions kind)
  else .ok (.combination kind children)

def operate (o : Operation) (parameters : List Parameter) (child : Shape) : Except Fault Shape :=
  if o.family = .extrude ∧ child.dim = some .space then .error (.solidExtrusion o)
  else .ok (.operator o parameters child)

def sort : Shape → String
  | circle _ => "Circle"
  | square _ => "Square"
  | rectangle _ => "Rectangle"
  | polygon _ => "Polygon"
  | cube _ => "Cube"
  | cuboid _ => "Cuboid"
  | sphere _ => "Sphere"
  | cylinder _ _ => "Cylinder"
  | polyhedron _ _ => "Polyhedron"
  | operator _ _ _ => "Operator"
  | combination _ _ => "Compositor"

def shown (s : Shape) : String :=
  let d := match s.dim with
    | some d => toString d.size
    | none => "None"
  s!"<{s.sort} dim={d}>"

end Shape
end SolidScript
