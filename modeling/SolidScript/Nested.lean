import SolidScript.Scalar

/-!
# Vectors and nested lists

A vector is given as nested lists of numbers. All lists at one depth must have the same length, and
only the numbers in them count: `toVector` narrows them in order, gives a point of the plane a zero
height where a point of space is wanted, and checks the length.
-/

set_option autoImplicit false

namespace SolidScript
open Binary

abbrev Coordinates := List Single

namespace Coordinates

/-- A sum by components. A lone component is added to each of the others. -/
def add : Coordinates → Coordinates → Except Fault Coordinates
  | [x], ys => .ok (ys.map (x + ·))
  | xs, [y] => .ok (xs.map (· + y))
  | xs, ys => if xs.length = ys.length then .ok (xs.zipWith (· + ·) ys) else .error .unmatched

def scale (xs : Coordinates) (k : Single) : Coordinates := xs.map (· * k)

end Coordinates

inductive Nested where
  | scalar (s : Scalar)
  | vector (xs : Coordinates)
  | list (items : List Nested)

namespace Nested

def maxDepth : Nat := 64

def common? (extents : List (List Nat)) : Option (List Nat) :=
  match extents with
  | [] => some []
  | e :: es => if es.all (· = e) then some e else none

mutual

/-- The lengths of the lists by depth, if all lists at one depth agree. -/
def extents? : Nested → Option (List Nat)
  | scalar _ => some []
  | vector xs => some [xs.length]
  | list items => do return items.length :: (← common? (← extentsOf? items))

def extentsOf? : List Nested → Option (List (List Nat))
  | [] => some []
  | item :: items => do return (← item.extents?) :: (← extentsOf? items)

end

mutual

def leaves : Nested → List Scalar
  | scalar s => [s]
  | vector xs => xs.map .single
  | list items => leavesOf items

def leavesOf : List Nested → List Scalar
  | [] => []
  | item :: items => item.leaves ++ leavesOf items

end

def isEven (n : Nested) : Bool :=
  match n.extents? with
  | some e => e.length ≤ maxDepth
  | none => false

def promote (size : Option Int) (xs : Coordinates) : Coordinates :=
  if size = some 3 ∧ xs.length = 2 then xs ++ [.zero false] else xs

def checkLength (size : Option Int) (xs : Coordinates) : Except Fault Coordinates :=
  match size with
  | none => .ok xs
  | some n => if n = xs.length then .ok xs else .error (.vectorLength (toString n) xs.length)

def toVector (size : Option Int) (n : Nested) : Except Fault Coordinates := do
  if n.isEven then checkLength size (promote size (← n.leaves.mapM Scalar.narrow))
  else .error .uneven

def isVector : Nested → Except Fault Bool
  | scalar _ => .ok false
  | vector _ => .ok true
  | n@(list _) => if n.isEven then .ok true else .error .uneven

def of (xs : List Scalar) : Nested := list (xs.map scalar)

end Nested
end SolidScript
