import SolidScript.Script.Context
import SolidScript.Shape.Combine

/-!
# Commands

A command takes the operands that stand behind its name. The forms below say how many it takes and
what stands for those left out; any other number of operands is refused.
-/

set_option autoImplicit false

namespace SolidScript.Script

abbrev Command := List Operand → Except Fault Item

namespace Command

def made (result : Except Fault Value) : Except Fault Item := do return .new (← result)

def variadic (f : List Value → Except Fault Value) : Command :=
  fun os => made (f (os.map (·.toValue)))

def nullary (f : Unit → Except Fault Value) : Command
  | [] => made (f ())
  | _ => .error .wrongArguments

def unary (f : Value → Except Fault Value) : Command
  | [x] => made (f x.toValue)
  | _ => .error .wrongArguments

def unaryOr (default : Value) (f : Value → Except Fault Value) : Command
  | [] => made (f default)
  | [x] => made (f x.toValue)
  | _ => .error .wrongArguments

def binary (f : Value → Value → Except Fault Value) : Command
  | [x, y] => made (f x.toValue y.toValue)
  | _ => .error .wrongArguments

def binaryOr (default : Value) (f : Value → Value → Except Fault Value) : Command
  | [x] => made (f x.toValue default)
  | [x, y] => made (f x.toValue y.toValue)
  | _ => .error .wrongArguments

def binaryOrBoth (first second : Value) (f : Value → Value → Except Fault Value) : Command
  | [] => made (f first second)
  | [x] => made (f x.toValue second)
  | [x, y] => made (f x.toValue y.toValue)
  | _ => .error .wrongArguments

def ternary (f : Value → Value → Value → Except Fault Value) : Command
  | [x, y, z] => made (f x.toValue y.toValue z.toValue)
  | _ => .error .wrongArguments

def ternaryOr (second third : Value) (f : Value → Value → Value → Except Fault Value) : Command
  | [x] => made (f x.toValue second third)
  | [x, y] => made (f x.toValue y.toValue third)
  | [x, y, z] => made (f x.toValue y.toValue z.toValue)
  | _ => .error .wrongArguments

def quaternary (f : Value → Value → Value → Value → Except Fault Value) : Command
  | [x, y, z, w] => made (f x.toValue y.toValue z.toValue w.toValue)
  | _ => .error .wrongArguments

def direct (f : Operand → Except Fault Item) : Command
  | [o] => f o
  | _ => .error .wrongArguments

end Command

/-- A combination of values that ought to be shapes, of a kind that ought to be a name. A fault in
the kind or in their number comes before one in a value. -/
def compose (kind : Value) (children : List Value) : Except Fault Value :=
  match kind with
  | .scalar (.text name) =>
    match children.mapM Value.toShape with
    | .ok shapes => do return .shape (← Shape.compose name shapes)
    | .error e => do
      if (← Kind.read name).accepts children.length then .error e else .error .differenceArity
  | _ => .error .noSuchMember

/-- A kind is compared with the one that cannot be reduced, to which no vector but one of a single
component has an answer. -/
def reducible : Value → Except Fault Unit
  | .scalar (.text name) => Shape.reducible name
  | .vector [_] => .ok ()
  | .vector _ => .error .ambiguousTruth
  | _ => .ok ()

def reduce (c : Context) (shapes kind : Value) : Except Fault Value := do
  reducible kind
  compose kind (← shapes.toValues c)

def kindValue (k : Kind) : Value := .scalar (.text k.name)

end SolidScript.Script
