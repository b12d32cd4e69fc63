import SolidScript.Shape.Render

/-!
# Sums of parameters

An offset or turn is added to what a parameter already is. Single precision stays single. A list
becomes an array first: of doubles if it holds whole numbers or doubles, and of single precision if
it does not. In a list that holds other things besides, or whole numbers beyond 64 bits, each number
keeps its own precision. A row of an array is added to the same offset as the others.
-/

set_option autoImplicit false

namespace SolidScript
open Binary

/-- Two rows by components. A lone component goes with each of the others. -/
def pairUp {α β γ : Type} (f : α → β → γ) : List α → List β → Except Fault (List γ)
  | [a], bs => .ok (bs.map (f a))
  | as, [b] => .ok (as.map fun a => f a b)
  | as, bs => if as.length = bs.length then .ok (as.zipWith f bs) else .error .unmatched

namespace Nested

def isRow : Nested → Bool
  | scalar _ => false
  | vector _ | list _ => true

def addItem (s : Scalar) (x : Single) : Except Fault Scalar :=
  match s with
  | .single y => .ok (.single (y + x))
  | .foreign why => .error why
  | s => do return .double ((← (← s.operand).toDouble) + x.convert)

def addItems (items : List Scalar) (xs : Coordinates) : Except Fault (List Nested) := do
  (← pairUp Prod.mk items xs).mapM fun (s, x) => scalar <$> addItem s x

mutual

def addTo (xs : Coordinates) : Nested → Except Fault Nested
  | scalar s => list <$> addItems [s] xs
  | vector ys => list <$> addItems (ys.map .single) xs
  | list items =>
    list <$> if items.any isRow then addToEach xs items else addItems (leavesOf items) xs

def addToEach (xs : Coordinates) : List Nested → Except Fault (List Nested)
  | [] => .ok []
  | row :: rows => do return (← addTo xs row) :: (← addToEach xs rows)

end

def rows : Nested → List Nested
  | scalar s => [scalar s]
  | vector xs => xs.map fun x => scalar (.single x)
  | list items => items

def addRows (xs : Coordinates) (items : List Nested) : Except Fault (List Nested) :=
  rows <$> addTo xs (list items)

end Nested

/-- The numbers that the items of a list are added as. -/
inductive Precision where
  | single
  | double
  | each
deriving DecidableEq

namespace Precision

def isWord (i : Int) : Bool := -9223372036854775808 ≤ i && i < 18446744073709551616

def isPlain : Scalar → Bool
  | .whole i => isWord i
  | .truth _ | .double _ | .single _ | .text _ => true
  | .absent | .foreign _ => false

def isText : Scalar → Bool
  | .text _ => true
  | _ => false

def isSingle : Scalar → Bool
  | .truth _ | .single _ => true
  | _ => false

def ofLeaves (leaves : List Scalar) : Except Fault Precision :=
  if leaves.all isPlain then
    if leaves.any isText then .error .textInSum
    else .ok (if leaves ≠ [] && leaves.all isSingle then .single else .double)
  else .ok .each

def item (p : Precision) (s : Scalar) : Except Fault Scalar :=
  match p with
  | single => .single <$> s.narrow
  | double => .double <$> s.toDouble
  | each => .ok s

/-- A component of a vector in a list. Among other things it is as good as a double. -/
def component (p : Precision) (x : Single) : Scalar :=
  match p with
  | single => .single x
  | double | each => .double x.convert

end Precision

namespace Parameter

def foreignItem (why : Fault) : Except Fault Scalar :=
  if why = .noNumber ∨ why = .sequenceForNumber then .ok (.foreign .noNumber) else .error why

mutual

def toItem (p : Precision) : Parameter → Except Fault Nested
  | scalar (.foreign why) => .scalar <$> foreignItem why
  | scalar s => .scalar <$> p.item s
  | vector xs => .ok (.of (xs.map p.component))
  | array rows => .ok (.list rows)
  | color _ => .ok (.scalar (.foreign .noNumber))
  | shape _ => .ok (.scalar (.foreign .noSuchMember))
  | list items => .list <$> toItems p items

def toItems (p : Precision) : List Parameter → Except Fault (List Nested)
  | [] => .ok []
  | item :: items => do return (← item.toItem p) :: (← toItems p items)

end

def toArray (items : List Parameter) : Except Fault (List Nested) := do
  let n := (list items).toNested
  if n.isEven then toItems (← Precision.ofLeaves n.leaves) items else .error .uneven

/-- A thing that is no number can be added to no component, but to none of them. -/
def addToNone (xs : Coordinates) : Except Fault Parameter :=
  if xs = [] then .ok (vector []) else .error .noNumber

def move (xs : Coordinates) : Parameter → Except Fault Parameter
  | scalar s => match s with
    | .text _ => .error .textInSum
    | .absent => addToNone xs
    | .foreign why => do
      let _ ← foreignItem why
      addToNone xs
    | s => do
      let y ← s.narrow
      return vector (xs.map (y + ·))
  | vector ys => vector <$> ys.add xs
  | array rows => array <$> Nested.addRows xs rows
  | color _ => addToNone xs
  | shape _ => .error .noSuchMember
  | list items => do return array (← Nested.addRows xs (← toArray items))

def addNumber (p : Parameter) (x : Single) : Except Fault Single :=
  match p with
  | scalar s => do return (← (← s.operand).narrow) + x
  | shape _ => .error .noSuchMember
  | vector _ | array _ | color _ | list _ => .error .noNumber

def extents (p : Parameter) : Except Fault (List Nat) :=
  match p with
  | scalar (.foreign why) => do
    let _ ← foreignItem why
    return []
  | p =>
    let n := p.toNested
    if n.isEven then .ok (n.extents?.getD []) else .error .uneven

def turn? (p turn : Parameter) : Except Fault (Option Parameter) := do
  if (← p.extents) ≠ (← turn.extents) then return none
  match turn with
  | vector xs => return some (← p.move xs)
  | scalar s => return some (scalar (.single (← p.addNumber (← s.narrow))))
  | _ => return none

end Parameter
end SolidScript
