import SolidScript.Script.Command
import SolidScript.Script.Equality
import SolidScript.Script.Shown
import SolidScript.Shape.Factory
import SolidScript.Solid.Beveled
import SolidScript.Solid.Centred
import SolidScript.Solid.Half

/-!
# Functions of the command language

Each table gives the functions of one subject by name.
-/

set_option autoImplicit false

namespace SolidScript.Script
open Binary Command

def constants : List (String × Value) := [
  ("MAX", .single halfSide), ("MAX2", .single halfSide), ("MAX3", .single halfSide),
  ("PI", .single pi), ("X", .vector axisX), ("Y", .vector axisY), ("Z", .vector axisZ)]

def constant? (name : String) : Option Item := (constants.lookup name).map (.constant name)

def isSize (c : Context) (size : Value) (n : Nat) : Except Fault Bool := do
  (← compareValues c false size (.whole n)).answer

def vectorOf (c : Context) (v size : Value) : Except Fault Value := do
  let xs ← v.toVector c none
  let xs := if ← isSize c size 3 then Nested.promote (some 3) xs else xs
  match size with
  | .scalar .absent => return .vector xs
  | size =>
    if ← isSize c size xs.length then return .vector xs
    else .error (.vectorLength (← size.inline) xs.length)

def product (c : Context) (a b : Value) : Except Fault Value := do
  match ← a.toVector c (some 2), ← b.toVector c (some 2) with
  | [a0, a1], [b0, b1] => return .vector [a0 * b0 - a1 * b1, a0 * b1 + a1 * b0]
  | _, _ => .error .unmatched

def narrow (c : Context) (v : Value) : Except Fault Value :=
  match v with
  | .list _ | .vector _ => do return .vector (← v.toVector c none)
  | v => do return .single (← (v.toScalar c).narrow)

def vectorOfComponents (c : Context) (vs : List Value) : Except Fault Value := do
  return .vector (← (Value.listOf vs).toVector c none)

/-- The text of a number. Of a list only a lone NaN has one. -/
def realText (c : Context) (style : Style) (v : Value) : Except Fault (List Char) :=
  match v with
  | .list _ | .vector _ | .copies .. | .calls .. | .image .. => do loneText (← v.nest c)
  | v => do return style.write (← (v.toScalar c).narrow)

def numberFunctions (c : Context) : List (String × Command) := [
  ("real", unary (narrow c)),
  ("from_int", unary fun x => do
    return .single (← (Scalar.whole (← (x.toScalar c).toInt)).narrow)),
  ("from_float", unary fun x => do return .single (← (x.toScalar c).toDouble).convert),
  ("v2", binary fun x y => vectorOfComponents c [x, y]),
  ("v3", ternary fun x y z => vectorOfComponents c [x, y, z]),
  ("cmul", binary (product c)),
  ("as_vector", binaryOr .absent (vectorOf c)),
  ("is_vector", unary fun v => do
    match v with
    | .list _ | .vector _ => return .truth (← (← v.nest c).isVector)
    | _ => return .truth false),
  ("format_real", unary fun x => do return .text (← realText c Style.script x)),
  ("format_vector", unary fun v => do
    return .text (bracketed (← v.each c (realText c Style.script)))),
  ("format_debug_real", unary fun x => do return .text (← realText c Style.coordinate x))]

def cuboid (c : Context) (x y z : Value) : Except Fault Shape :=
  match y, z with
  | .scalar .absent, .scalar .absent => do Factory.cuboid (← x.nest c)
  | y, z => do return .cuboid (← (Value.listOf [x, y, z]).toVector c (some 3))

def rectangle (c : Context) (x y : Value) : Except Fault Shape := do
  return .rectangle (← (Value.listOf [x, y]).toVector c (some 2))

def faceList (c : Context) (faces : Value) : Except Fault (List (List Int)) :=
  faces.each c fun face => face.each c fun i => (i.toScalar c).toInt

def polyhedron (c : Context) (points faces : Value) : Except Fault Shape := do
  let ps ← points.each c (Value.toVector c (some 3))
  match faces with
  | .scalar .absent => return .polyhedron ps [Factory.firstFace]
  | faces => return .polyhedron ps (← faceList c faces)

def one : Value := .whole 1

def primitiveFunctions (c : Context) : List (String × Command) := [
  ("circle", unaryOr one fun x => do return .shape (← Factory.circle (x.toScalar c))),
  ("square", unaryOr one fun x => do return .shape (← Factory.square (x.toScalar c))),
  ("rectangle", binaryOrBoth one one fun x y => do return .shape (← rectangle c x y)),
  ("polygon", unary fun ps => do
    return .shape (.polygon (← ps.each c (Value.toVector c (some 2))))),
  ("triangle", ternary fun p q r => do
    return .shape (.polygon (← [p, q, r].mapM (Value.toVector c (some 2))))),
  ("cube", unaryOr one fun x => do return .shape (← Factory.cube (x.toScalar c))),
  ("cuboid", ternaryOr .absent .absent fun x y z => do return .shape (← cuboid c x y z)),
  ("sphere", unaryOr one fun x => do return .shape (← Factory.sphere (x.toScalar c))),
  ("spheroid", unary fun v => do return .shape (← Factory.spheroid (← v.nest c))),
  ("cylinder", binaryOrBoth one one fun h r => do
    return .shape (← Factory.cylinder (h.toScalar c) (r.toScalar c))),
  ("polyhedron", binaryOr .absent fun ps fs => do return .shape (← polyhedron c ps fs)),
  ("half_plane", unary fun a => do return .shape (← Shape.halfPlane (← a.toAim))),
  ("half_space", unary fun a => do return .shape (← Shape.halfSpace (← a.toAim)))]

def invert (c : Context) (shape edge : Value) : Except Fault Value := do
  let cube ← Shape.centredCube (edge.toScalar c)
  return .shape (← cube.difference (← shape.toShape))

/-- A block by its three counts. A fourth is read before it is refused. -/
def cubeBlock (c : Context) (dims side bevel gap : Value) : Except Fault Value := do
  match ← dims.eachOfFirst c 4 fun d => (d.toScalar c).toInt with
  | [nx, ny, nz] =>
    return .shape (← Shape.beveledCubeBlock nx ny nz (side.toScalar c) (bevel.toScalar c)
      (gap.toScalar c))
  | _ => .error .tripleExpected

def solidFunctions (c : Context) : List (String × Command) := [
  ("beveled_box", binary fun size b => do
    return .shape (← Shape.beveledBox (← size.nest c) (b.toScalar c))),
  ("beveled_cube_block", quaternary (cubeBlock c)),
  ("rounded_cube", unary fun x => do return .shape (← Shape.roundedCube (x.toScalar c))),
  ("truncated_octahedron", unary fun x => do
    return .shape (← Shape.truncatedOctahedron (x.toScalar c))),
  ("invert", binary (invert c))]

/-- A name is looked up in a table, which a list or vector cannot be, and a shape only by its
script. -/
def lookedUp : Value → Except Fault Unit
  | .list _ | .vector _ => .error .wrongSort
  | .shape s => do let _ ← s.render
  | _ => .ok ()

def operationOf (family name : Value) : Except Fault Operation := do
  lookedUp family
  let known := match family with
    | .scalar (.text f) => Family.ofName? f
    | _ => none
  if known.isSome then lookedUp name
  match known, name with
  | some f, .scalar (.text n) => match Operation.ofNames? f.name n with
    | some o => return o
    | none => .error (.unknownOperation f.name n)
  | _, _ => .error (.unknownOperation (← family.inline) (← name.inline))

def operator (c : Context) (child family name parameters : Value) : Except Fault Value := do
  let parameters := (← parameters.toValues c).map (Value.toParameter c)
  let o ← operationOf family name
  return .shape (← Shape.operate o parameters (← child.toShape))

def combinationFunctions (c : Context) : List (String × Command) := [
  ("Group", variadic (compose (kindValue .union))),
  ("Compositor", binaryOr (kindValue .union) fun children kind => do
    compose kind (← children.toValues c)),
  ("Operator", quaternary (operator c)),
  ("reduce_shapes", binaryOr (kindValue .union) (reduce c)),
  ("shape_sum", unary fun shapes => reduce c shapes (kindValue .union)),
  ("shape_product", unary fun shapes => reduce c shapes (kindValue .intersection)),
  ("indent", unary fun s => do return .text (SolidScript.indent (← s.script))),
  ("block", binary fun header children => do
    let bodies ← children.each c Value.script
    return .text (SolidScript.block (← header.inline).toList bodies)),
  ("value", direct fun o => .ok o.toItem)]

def functions (c : Context) : List (String × Command) :=
  numberFunctions c ++ primitiveFunctions c ++ solidFunctions c ++ combinationFunctions c

def callFunction (c : Context) (name : String) (operands : List Operand) : Except Fault Item :=
  match (functions c).lookup name with
  | some command => command operands
  | none => .error .noSuchMember

end SolidScript.Script
