import SolidScript.Shape.Basic
import SolidScript.Decimal.Layout

/-!
# Scripts of shapes

A primitive is one line. An operation or combination is a header and, in braces, the scripts of its
children, each line two spaces deeper. Two shapes are the same if their scripts are.

Trees of any depth and face indices of any length have a script. How deep calls may nest and how
many digits a whole number may be written with are settings of the machine and left out, unlike the
depth at which the runner of command scripts gives up (`Script.maxDepth`).
-/

set_option autoImplicit false

namespace SolidScript
open Binary

/-- Text that nests two spaces deeper, its first line apart. -/
def indent (text : List Char) : List Char :=
  text.flatMap fun c => if c = '\n' then ['\n', ' ', ' '] else [c]

/-- A header with the bodies in braces, each on its own lines. -/
def block (header : List Char) (bodies : List (List Char)) : List Char :=
  header ++ " \x7b\n  ".toList ++ List.intercalate "\n  ".toList (bodies.map indent) ++
    "\n\x7d".toList

theorem indent_append (a b : List Char) : indent (a ++ b) = indent a ++ indent b := by
  simp [indent]

theorem indent_of_line {a : List Char} (h : '\n' ∉ a) : indent a = a := by
  induction a with
  | nil => rfl
  | cons c a ih =>
    have hc : c ≠ '\n' := fun e => h (e ▸ List.mem_cons_self ..)
    have ha := ih fun m => h (List.mem_cons_of_mem _ m)
    simp only [indent, List.flatMap_cons, hc, if_false] at ha ⊢
    simp [ha]

def bracketed (items : List (List Char)) : List Char :=
  '[' :: List.intercalate ", ".toList items ++ [']']

def numberText (x : Single) : List Char := Style.script.write x

def vectorText (xs : Coordinates) : List Char := bracketed (xs.map numberText)

def vertexText (xs : Coordinates) : List Char := bracketed (xs.map Style.coordinate.write)

def faceText (f : List Int) : List Char := bracketed (f.map fun i => (toString i).toList)

def call (name : String) (arguments : List Char) : List Char :=
  name.toList ++ '(' :: arguments ++ [')']

def named (keyword : String) (value : List Char) : List Char :=
  keyword.toList ++ " = ".toList ++ value

def statement (name : String) (arguments : List (List Char)) : List Char :=
  call name (List.intercalate ", ".toList arguments) ++ [';']

def Color.text (c : Color) : List Char := '\x22' :: c.name.toList ++ ['\x22']

namespace Parameter

mutual

def toNested : Parameter → Nested
  | scalar x => .scalar x
  | vector xs => .vector xs
  | array rows => .list rows
  | color _ | shape _ => .scalar (.foreign .noNumber)
  | list ps => .list (toNestedAll ps)

def toNestedAll : List Parameter → List Nested
  | [] => []
  | p :: ps => p.toNested :: toNestedAll ps

end

end Parameter

def loneText (n : Nested) : Except Fault (List Char) := do
  match ← n.toVector none with
  | [x] => if x.isNaN then return numberText x else .error .noNumber
  | _ => .error .ambiguousTruth

/-- A row of an array: a number, or rows of its own, of which only a lone NaN can be written. -/
def rowText : Nested → Except Fault (List Char)
  | .scalar s => do return numberText (← s.narrow)
  | n => loneText n

def Operation.header (o : Operation) (parameter : List Char) : List Char :=
  call o.name (match o.keyword? with
    | some k => named k parameter
    | none => parameter)

def Kind.header (k : Kind) : List Char := call k.name []

namespace Shape

mutual

def parameterText : List Parameter → Except Fault (List Char)
  | [] => .error .missingParameter
  | .scalar x :: _ => do return numberText (← x.narrow)
  | .vector xs :: _ => .ok (vectorText xs)
  | .array rows :: _ => do return bracketed (← rows.mapM rowText)
  | .color c :: _ => .ok c.text
  | .shape s :: _ => s.render
  | p@(.list _) :: _ => loneText p.toNested

def render : Shape → Except Fault (List Char)
  | circle d => .ok (statement "circle" [named "d" (numberText d)])
  | square s => .ok (statement "square" [named "size" (numberText s)])
  | rectangle v => .ok (statement "square" [named "size" (vectorText v)])
  | polygon ps =>
    let points := List.intercalate ", ".toList (ps.map vectorText)
    .ok (statement "polygon" [named "points" ("[ ".toList ++ points ++ " ]".toList)])
  | cube s => .ok (statement "cube" [named "size" (numberText s)])
  | cuboid v => .ok (statement "cube" [named "size" (vectorText v)])
  | sphere r => .ok (statement "sphere" [named "r" (numberText r)])
  | cylinder h r =>
    .ok (statement "cylinder" [named "h" (numberText h), named "r" (numberText r)])
  | polyhedron ps fs =>
    .ok (statement "polyhedron" [named "points" (bracketed (ps.map vertexText)),
      named "faces" (bracketed (fs.map faceText))])
  | operator o parameters child => do
    let parameter ← parameterText parameters
    return block (o.header parameter) [← child.render]
  | combination k children => do return block k.header (← renderAll children)

def renderAll : List Shape → Except Fault (List (List Char))
  | [] => .ok []
  | s :: ss => do return (← s.render) :: (← renderAll ss)

end

theorem renderAll_eq_mapM (ss : List Shape) : renderAll ss = ss.mapM render := by
  induction ss with
  | nil => simp [renderAll]; rfl
  | cons s ss ih => simp [renderAll, ih]

def same (a b : Shape) : Except Fault Bool := do return (← a.render) == (← b.render)

end Shape
end SolidScript
