import SolidScript.Decimal.FreeForm
import SolidScript.Fault

/-!
# Scalars

What may stand where a number is wanted. Geometry is carried in single precision: `narrow` rounds
a number to it, a whole number by way of double precision, and reads a text as a number that people
type. Arithmetic on numbers that are not yet narrowed keeps whole numbers exact, works in single
precision as soon as one operand does, and in double precision otherwise.
-/

set_option autoImplicit false

attribute [local instance (10000)] instPowNat

namespace SolidScript
open Binary

inductive Scalar where
  | absent
  | truth (b : Bool)
  | whole (i : Int)
  | double (x : Double)
  | single (x : Single)
  | text (s : String)
  /-- A thing of another sort, and what is wrong with it as a number. -/
  | foreign (why : Fault)
deriving DecidableEq

namespace Scalar

def wholeToDouble (i : Int) : Except Fault Double :=
  let x := Number.ofInt i
  if x.isFinite then .ok x else .error .numberTooLarge

def readDouble (s : String) : Except Fault Double :=
  match Decimal.ofFreeForm? s with
  | some x => .ok x
  | none => .error .textForNumber

def narrow : Scalar → Except Fault Single
  | absent => .ok .nan
  | truth b => .ok (.ofInt b.toInt)
  | whole i => do return (← wholeToDouble i).convert
  | double x => .ok x.convert
  | single x => .ok x
  | text s => do return (← readDouble s).convert
  | foreign why => .error why

def toDouble : Scalar → Except Fault Double
  | truth b => .ok (.ofInt b.toInt)
  | whole i => wholeToDouble i
  | double x => .ok x
  | single x => .ok x.convert
  | text s => readDouble s
  | absent | foreign _ => .error .noNumber

def truncate {f : Format} (x : Number f) : Except Fault Int :=
  match x.truncate? with
  | some i => .ok i
  | none => .error (if x.isNaN then .nanToWhole else .infinityToWhole)

def readWhole (s : String) : Except Fault Int :=
  match Decimal.ofFreeWhole? s with
  | some i => .ok i
  | none => .error .textForNumber

def toInt : Scalar → Except Fault Int
  | truth b => .ok b.toInt
  | whole i => .ok i
  | double x => truncate x
  | single x => truncate x
  | text s => readWhole s
  | absent | foreign _ => .error .noNumber

def operand : Scalar → Except Fault Scalar
  | truth b => .ok (.whole b.toInt)
  | whole i => .ok (.whole i)
  | double x => .ok (.double x)
  | single x => .ok (.single x)
  | absent | text _ | foreign _ => .error .noNumber

structure Arithmetic where
  whole : Int → Int → Except Fault Scalar
  double : Double → Double → Except Fault Double
  single : Single → Single → Single

def Arithmetic.apply (op : Arithmetic) (x y : Scalar) : Except Fault Scalar := do
  match ← x.operand, ← y.operand with
  | .whole i, .whole j => op.whole i j
  | .single a, y => return .single (op.single a (← y.narrow))
  | x, .single b => return .single (op.single (← x.narrow) b)
  | x, y => return .double (← op.double (← x.toDouble) (← y.toDouble))

def wholeQuotient (i j : Int) : Except Fault Scalar :=
  if j = 0 then .error .divisionByZero
  else
    let x : Double := .ofRatio ((i < 0) != (j < 0)) (i.natAbs * 2 ^ Format.double.scale) j.natAbs
    if x.isFinite then .ok (.double x) else .error .numberTooLarge

def doubleQuotient (x y : Double) : Except Fault Double :=
  if y.isZero then .error .divisionByZero else .ok (x / y)

def sub : Scalar → Scalar → Except Fault Scalar :=
  Arithmetic.apply ⟨fun i j => .ok (.whole (i - j)), fun x y => .ok (x - y), (· - ·)⟩

def mul : Scalar → Scalar → Except Fault Scalar :=
  Arithmetic.apply ⟨fun i j => .ok (.whole (i * j)), fun x y => .ok (x * y), (· * ·)⟩

def div : Scalar → Scalar → Except Fault Scalar :=
  Arithmetic.apply ⟨wholeQuotient, doubleQuotient, (· / ·)⟩

def neg (x : Scalar) : Except Fault Scalar := do
  match ← x.operand with
  | .whole i => return .whole (-i)
  | .double x => return .double (-x)
  | .single x => return .single (-x)
  | x => return x

end Scalar
end SolidScript
