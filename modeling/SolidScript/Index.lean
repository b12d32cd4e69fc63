import SolidScript.Message

/-!
# Indices

An index is a number, whole or between two others, or a vector of one component. A negative one
counts from the end: `wrap` takes every index of the range to one from zero on, up to rounding.
-/

set_option autoImplicit false

namespace SolidScript
open Binary

inductive Index where
  | number (s : Scalar)
  | component (x : Single)
deriving DecidableEq

namespace Index

def whole (i : Int) : Index := number (.whole i)

def plain : Index → String
  | number s => s.plain
  | component x => Columns.plain [x]

def singleInside (count : Int) (x : Single) : Except Fault Bool := do
  let n ← (Scalar.whole count).narrow
  return (-n).le x && x.lt n

/-- Whether the index is one of `count` elements, counted from the start or from the end. -/
def inside (count : Int) : Index → Except Fault Bool
  | number (.truth b) => .ok (-count ≤ b.toInt && b.toInt < count)
  | number (.whole i) => .ok (-count ≤ i && i < count)
  | number (.double x) =>
    .ok (((x.compareInt? (-count)).any (· ≠ .lt)) && x.compareInt? count = some .lt)
  | number (.single x) | component x => singleInside count x
  | number (.absent) | number (.text _) | number (.foreign _) => .error .wrongSort

def wrap (count : Int) : Index → Except Fault Index
  | number (.truth b) => .ok (whole (b.toInt % count))
  | number (.whole i) => .ok (whole (i % count))
  | number (.double x) => do return number (.double (x.mod (← Scalar.wholeToDouble count)))
  | number (.single x) => do return number (.single (x.mod (← (Scalar.whole count).narrow)))
  | component x => do return component (x.mod (← (Scalar.whole count).narrow))
  | number s => .ok (number s)

def narrow : Index → Except Fault Single
  | number s => s.narrow
  | component x => .ok x

end Index
end SolidScript
