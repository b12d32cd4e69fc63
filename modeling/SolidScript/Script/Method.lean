import SolidScript.Script.Arithmetic
import SolidScript.Script.Command
import SolidScript.Script.Shown
import SolidScript.Shape.Array
import SolidScript.Solid.Centred

/-!
# Methods of the command language

What a value can be asked for. The name is looked up before the operands are counted.
-/

set_option autoImplicit false

namespace SolidScript.Script
open Binary Command

def extending (kind : Kind) (s : Shape) : List Value → Except Fault Value := fun others => do
  return .shape (← s.extend kind (← others.mapM Value.toShape))

def subtracting (s : Shape) (other : Value) : Except Fault Value := do
  return .shape (← s.difference (← other.toShape))

def combiningMethods (c : Context) (a : Item) (s : Shape) : List (String × Command) := [
  ("union", variadic (extending .union s)),
  ("add", unary fun x => extending .union s [x]),
  ("intersection", variadic (extending .intersection s)),
  ("and_", unary fun x => extending .intersection s [x]),
  ("minkowski", variadic (extending .minkowski s)),
  ("difference", unary (subtracting s)),
  ("subtract", unary (subtracting s)),
  ("hull", nullary fun _ => do return .shape (← s.hull)),
  ("add_map", direct fun f => do made (extending .union s [(← f.apply c a).value])),
  ("map", direct fun f => f.apply c a),
  ("invert", unary fun edge => do return .shape (← s.invert (edge.toScalar c))),
  ("to_scad", nullary fun _ => do return .text (← s.render))]

def scalarOrList (c : Context) : Value → Except Fault Nested
  | v@(.list _) | v@(.vector _) => v.nest c
  | v => .ok (.scalar (v.toScalar c))

def transformMethods (c : Context) (s : Shape) : List (String × Command) := [
  ("translate", unary fun v => do return .shape (← s.translate (← v.nest c))),
  ("rotate", unary fun v => do return .shape (← s.rotate (← scalarOrList c v))),
  ("scale", unary fun v => do return .shape (← s.scale (← scalarOrList c v))),
  ("scale_nonuniform", unary fun v => do return .shape (← s.scaleEach (← v.nest c))),
  ("mirror", unary fun v => do return .shape (← s.mirror (← v.nest c))),
  ("color", unary fun v => do return .shape (← s.color (← v.toColor))),
  ("linear_extrude", unary fun x => do return .shape (← s.linearExtrude (x.toScalar c))),
  ("rotate_extrude", unary fun x => do return .shape (← s.rotateExtrude (x.toScalar c)))]

def moving (c : Context) (s : Shape) : Command := binary fun step n => do
  return .copies (← s.iterTranslate (← step.nest c) (n.toScalar c))

def turning (c : Context) (s : Shape) : Command := binary fun step n => do
  return .copies (← s.iterRotate (← scalarOrList c step) (n.toScalar c))

def turningEqually (c : Context) (s : Shape) : Command := unary fun n => do
  return .copies (← s.iterRotateEqual (n.toScalar c))

def arrayMethods (c : Context) (s : Shape) : List (String × Command) := [
  ("iter_translate", moving c s),
  ("iterate", moving c s),
  ("iter_rotate", turning c s),
  ("iterate_rotate", turning c s),
  ("iter_rotate_equal", turningEqually c s),
  ("iterate_equal_angle", turningEqually c s),
  ("iter_square_edge", unary fun d => do return .copies (← s.iterSquareEdge (d.toScalar c))),
  ("translate_vec", binary fun step n => do
    let copies ← s.translateList (← step.nest c) (n.toScalar c)
    return .listOf (copies.map .shape))]

def shapeMethods (c : Context) (a : Item) (s : Shape) : List (String × Command) :=
  combiningMethods c a s ++ transformMethods c s ++ arrayMethods c s

def reducing (c : Context) (v : Value) (kind : Kind) : Command :=
  nullary fun _ => reduce c v (kindValue kind)

def sequenceMethods (c : Context) (a : Item) : List (String × Command) := [
  ("map", direct fun f => .ok (.new (.image a f))),
  ("reduce", unaryOr (kindValue .union) (reduce c a.value)),
  ("union", reducing c a.value .union),
  ("intersection", reducing c a.value .intersection),
  ("hull", reducing c a.value .hull),
  ("minkowski", reducing c a.value .minkowski),
  ("sum", reducing c a.value .union),
  ("product", reducing c a.value .intersection)]

def joining (s : Shape) (j : Join) (x : Value) : Except Fault Value :=
  match j with
  | .sum | .alternative => extending .union s [x]
  | .conjunction => extending .intersection s [x]
  | .difference => subtracting s x

def joins (c : Context) (v : Value) : List (String × Command) :=
  Join.all.map fun j => (j.symbol, unary (match v with
    | .shape s => joining s j
    | v => join c j v))

def itemAt {α : Type} (vs : List α) (i : Int) : Except Fault α :=
  let place := if i < 0 then i + vs.length else i
  if place < 0 then .error .listIndex
  else match vs[place.toNat]? with
    | some v => .ok v
    | none => .error .listIndex

def listItem {α : Type} (items : List α) : Value → Except Fault α
  | .scalar (.whole i) => itemAt items i
  | .scalar (.truth b) => itemAt items b.toInt
  | _ => .error .wrongSort

/-- A component, or the components at the places of a list. A vector takes whole numbers only, and
refuses others as if out of range. -/
def component (xs : Coordinates) : Value → Except Fault Value
  | .scalar (.whole i) => .single <$> itemAt xs i
  | .list places => .vector <$> places.mapM fun
    | .mk _ (.scalar (.whole i)) => itemAt xs i
    | _ => .error .listIndex
  | _ => .error .listIndex

def selection (x : Single) : Value → Except Fault Value
  | .scalar .absent | .scalar (.truth true) => .ok (.vector [x])
  | .scalar (.truth false) => .ok (.vector [])
  | _ => .error .listIndex

def item (c : Context) (v index : Value) : Except Fault Item := do
  match v.sequence? c with
  | some s => s.get (← index.toIndex)
  | none => match v with
    | .list items => listItem items index
    | .scalar (.text s) => made (listItem (s.toList.map fun c => .text [c]) index)
    | .vector xs => made (component xs index)
    | .scalar (.single x) => made (selection x index)
    | _ => .error .wrongSort

def probes (c : Context) (v : Value) : List (String × Command) := [
  ("get", direct fun index => item c v index.toValue),
  ("items", nullary fun _ => do return .list (← v.items c)),
  ("list", nullary fun _ => do return .list (← v.toList c)),
  ("len", nullary fun _ => do return .whole (← v.length c))]

def vectorMethods (xs : Coordinates) : List (String × Command) := [
  ("sum", nullary fun _ => .ok (.single (xs.foldl (· + ·) (.zero false))))]

def methods (c : Context) (a : Item) : List (String × Command) :=
  let own := match a.value with
    | .shape s => shapeMethods c a s
    | .copies .. | .calls .. | .image .. => sequenceMethods c a
    | .color k => [("to_scad", nullary fun _ => .ok (.text k.text))]
    | .vector xs => vectorMethods xs
    | .scalar (.single x) => vectorMethods [x]
    | .scalar _ | .aim _ | .list _ => []
  own ++ joins c a.value ++ probes c a.value

def callMethod (c : Context) (target : Item) (name : String) (operands : List Operand) :
    Except Fault Item :=
  match (methods c target).lookup name with
  | some command => command operands
  | none => .error .noSuchMember

end SolidScript.Script
