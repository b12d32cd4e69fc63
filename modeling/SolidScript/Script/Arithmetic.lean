import SolidScript.Script.Context
import SolidScript.Shape.Sum

/-!
# Arithmetic on values

Besides shapes, numbers and vectors can be added and subtracted, whole numbers and truth values
joined bit by bit, and lists and texts strung together with their like.
-/

set_option autoImplicit false

namespace SolidScript.Script
open Binary

inductive Join where
  | sum
  | difference
  | conjunction
  | alternative
deriving DecidableEq

namespace Join

def symbol : Join → String
  | sum => "+"
  | difference => "-"
  | conjunction => "&"
  | alternative => "|"

def all : List Join := [sum, difference, conjunction, alternative]

/-- The bits that two whole numbers have in common, a negative one being endless to the left. -/
def commonBits : Int → Int → Int
  | .ofNat m, .ofNat n => .ofNat (m &&& n)
  | .ofNat m, .negSucc n => .ofNat (m - (m &&& n))
  | .negSucc m, .ofNat n => .ofNat (n - (n &&& m))
  | .negSucc m, .negSucc n => .negSucc (m ||| n)

def onWholes (j : Join) (a b : Int) : Int :=
  match j with
  | sum => a + b
  | difference => a - b
  | conjunction => commonBits a b
  | alternative => -1 - commonBits (-1 - a) (-1 - b)

def onNumbers {f : Format} (j : Join) (x y : Number f) : Except Fault (Number f) :=
  match j with
  | sum => .ok (x + y)
  | difference => .ok (x - y)
  | conjunction | alternative => .error .wrongSort

end Join

def negatedScalar : Scalar → Except Fault Scalar
  | .text s => .ok (.text s)
  | .foreign why => .ok (.foreign why)
  | s => s.neg

mutual

def negatedRow : Nested → Except Fault Nested
  | .scalar s => .scalar <$> negatedScalar s
  | .vector xs => .ok (.vector (xs.map Neg.neg))
  | .list rows => .list <$> negatedRows rows

def negatedRows : List Nested → Except Fault (List Nested)
  | [] => .ok []
  | row :: rows => do return (← negatedRow row) :: (← negatedRows rows)

end

mutual

def negated : Parameter → Except Fault Parameter
  | .scalar s => .scalar <$> negatedScalar s
  | .vector xs => .ok (.vector (xs.map Neg.neg))
  | .array rows => .array <$> negatedRows rows
  | .color c => .ok (.color c)
  | .shape s => .ok (.shape s)
  | .list ps => .list <$> negatedAll ps

def negatedAll : List Parameter → Except Fault (List Parameter)
  | [] => .ok []
  | p :: ps => do return (← negated p) :: (← negatedAll ps)

end

def Join.addend (j : Join) (p : Parameter) : Except Fault Parameter :=
  match j with
  | sum => .ok p
  | difference => negated p
  | conjunction | alternative => .error .wrongSort

mutual

def ofRow : Nested → Except Fault Value
  | .scalar s => .single <$> s.narrow
  | .vector xs => .ok (.vector xs)
  | .list rows =>
    if rows.any Nested.isRow then .listOf <$> ofEachRow rows
    else .vector <$> (Nested.leavesOf rows).mapM (·.narrow)

def ofEachRow : List Nested → Except Fault (List Value)
  | [] => .ok []
  | row :: rows => do return (← ofRow row) :: (← ofEachRow rows)

end

def ofSum : Parameter → Except Fault Value
  | .vector xs => .ok (.vector xs)
  | .array rows => ofRow (.list rows)
  | .scalar _ | .color _ | .shape _ | .list _ => .error .noNumber

def withoutShape : Parameter → Parameter
  | .shape _ => .scalar (.foreign .noNumber)
  | p => p

def joinComponents (c : Context) (j : Join) (xs : Coordinates) (w : Value) :
    Except Fault Value := do
  match (withoutShape (← j.addend (w.toParameter c))).move xs with
  | .ok p => ofSum p
  | .error .noSuchMember => .error .noNumber
  | .error e => .error e

def joinSingle (c : Context) (j : Join) (x : Single) (w : Value) : Except Fault Value := do
  match ← j.addend (w.toParameter c), w with
  | .scalar (.text _), _ => .error .textInSum
  | p, .scalar _ => .single <$> p.addNumber x
  | _, w => joinComponents c j [x] w

/-- Whole numbers and doubles go with their own sort, and whole numbers with doubles. -/
def joinScalars (j : Join) (a b : Scalar) : Except Fault Value :=
  match a, b with
  | .truth p, .truth q => match j with
    | .conjunction => .ok (.truth (p && q))
    | .alternative => .ok (.truth (p || q))
    | j => .ok (.whole (j.onWholes p.toInt q.toInt))
  | .truth p, .whole n => .ok (.whole (j.onWholes p.toInt n))
  | .whole m, .truth q => .ok (.whole (j.onWholes m q.toInt))
  | .whole m, .whole n => .ok (.whole (j.onWholes m n))
  | .double x, b => match j, b with
    | .conjunction, _ | .alternative, _ => .error .noSuchMember
    | _, .truth _ | _, .whole _ | _, .double _ => do
      return .scalar (.double (← j.onNumbers x (← b.toDouble)))
    | _, _ => .error .wrongSort
  | .text s, b => match j, b with
    | .sum, .text t => .ok (.scalar (.text (s ++ t)))
    | .sum, _ => .error .wrongSort
    | _, _ => .error .noSuchMember
  | .absent, _ | .foreign _, _ => .error .noSuchMember
  | _, _ => .error .wrongSort

def join (c : Context) (j : Join) (v w : Value) : Except Fault Value :=
  match v with
  | .scalar (.single x) => joinSingle c j x w
  | .vector xs => joinComponents c j xs w
  | .list items => match j, w with
    | .sum, .list others => .ok (.list (items ++ others))
    | .sum, _ => .error .wrongSort
    | _, _ => .error .noSuchMember
  | .scalar a => match w with
    | .scalar b => joinScalars j a b
    | _ => joinScalars j a .absent
  | _ => .error .noSuchMember

end SolidScript.Script
