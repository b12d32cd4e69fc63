import SolidScript.Script.Context
import SolidScript.Shape.Sum

/-!
# Equality of values

Numbers are equal by value, at single precision if one side is of it. Shapes are equal if their
scripts are, and to nothing else; sequences only to themselves. A comparison with a vector has an
answer for each component, and an answer of its own only if it is for one. Lists are equal if their
items are; an item that stands in both lists is equal to itself without being looked at.

Equal numbers have one `Key`, whatever their sort, and a shape has that of its script.
-/

set_option autoImplicit false

attribute [local instance (10000)] instPowNat

namespace SolidScript.Script
open Binary

inductive Comparison where
  | one (b : Bool)
  | each (bs : List Bool)

namespace Comparison

def answer : Comparison → Except Fault Bool
  | one b | each [b] => .ok b
  | each _ => .error .ambiguousTruth

end Comparison

def sameWide : Scalar → Scalar → Bool
  | .absent, .absent => true
  | .text s, .text t => s = t
  | .truth b, y => sameWhole b.toInt y
  | .whole i, y => sameWhole i y
  | .double x, .double y => x.same y
  | .double x, .truth b => x.compareInt? b.toInt = some .eq
  | .double x, .whole i => x.compareInt? i = some .eq
  | _, _ => false
where
  sameWhole (i : Int) : Scalar → Bool
    | .truth b => i = b.toInt
    | .whole j => i = j
    | .double y => y.compareInt? i = some .eq
    | _ => false

def counterpart : Scalar → Except Fault (Option Single)
  | .absent | .text _ | .foreign _ => .ok none
  | s => some <$> s.narrow

def sameScalar : Scalar → Scalar → Except Fault Bool
  | .single x, s | s, .single x => do return (← counterpart s).any x.same
  | s, t => .ok (sameWide s t)

def sameLeaf (x : Single) : Scalar → Bool
  | .single y => x.same y
  | s => sameWide (.double x.convert) s

def compareComponents (c : Context) (xs : Coordinates) (v : Value) : Except Fault Comparison := do
  match v with
  | .scalar s => do
    let y ← counterpart s
    return .each (xs.map fun x => y.any x.same)
  | .color _ | .aim _ | .shape _ => return .each (xs.map fun _ => false)
  | v =>
    let n ← v.nest c
    if n.isEven then return .each (← pairUp sameLeaf xs n.leaves) else .error .uneven

mutual

def compareValues (c : Context) (one : Bool) : Value → Value → Except Fault Comparison
  | .shape s, .shape t => .one <$> s.same t
  | .shape _, _ => .ok (.one false)
  | .vector xs, w => compareComponents c xs w
  | v, .vector ys => compareComponents c ys v
  | .scalar (.foreign _), .scalar (.foreign _) => .ok (.one one)
  | .scalar s, .scalar t => .one <$> sameScalar s t
  | .scalar (.single x), w => compareComponents c [x] w
  | v, .scalar (.single y) => compareComponents c [y] v
  | .list items, .list others => .one <$> sameItems c items others
  | .color k, .color l => .ok (.one (k = l))
  | .aim a, .aim b => .ok (.one (a = b))
  | .copies .., .copies .. | .calls .., .calls .. | .image .., .image .. => .ok (.one one)
  | _, _ => .ok (.one false)

def sameItems (c : Context) : List Item → List Item → Except Fault Bool
  | [], [] => .ok true
  | .mk o v :: items, .mk p w :: others => do
    if items.length ≠ others.length then return false
    else if Item.sameOrigin o p then sameItems c items others
    else if ← (← compareValues c false v w).answer then sameItems c items others
    else return false
  | _, _ => .ok false

end

def same (c : Context) (a b : Item) : Except Fault Bool := do
  (← compareValues c (a.isOne b) a.value b.value).answer

/-- What a value is filed under. -/
inductive Key where
  | number (residue : Int)
  | text (cs : List Char)
  | absent
  | own
deriving DecidableEq

namespace Key

/-- The largest number of 61 binary digits. Numbers are filed by their residue, in which halving is
a rotation of these digits. -/
def modulus : Nat := 0x1fffffffffffffff

def ofUnits (negative : Bool) (n scale : Nat) : Key :=
  let r := n * 2 ^ (61 - scale % 61) % modulus
  if negative then number (if r = 1 then -2 else -↑r) else number r

def endless : Int := 314159

def ofNumber {f : Format} : Number f → Key
  | .nan => own
  | .infinite s => number (if s then -endless else endless)
  | .finite s n _ => ofUnits s n f.scale

def ofText (cs : List Char) : Key := if cs = [] then number 0 else text cs

def ofScalar : Scalar → Key
  | .absent => absent
  | .truth b => number b.toInt
  | .whole i => ofUnits (i < 0) i.natAbs 0
  | .double x => ofNumber x
  | .single x => ofNumber x
  | .text s => ofText s.toList
  | .foreign _ => own

def ofValue : Value → Except Fault Key
  | .scalar s => .ok (ofScalar s)
  | .color c => .ok (ofText c.constant.toList)
  | .aim a => .ok (ofText a.constant.toList)
  | .shape s => ofText <$> s.render
  | .copies _ | .calls .. | .image .. => .ok own
  | .list _ | .vector _ => .error .wrongSort

end Key

def sameKey (a b : Item) : Except Fault Bool := do
  let k ← Key.ofValue a.value
  let l ← Key.ofValue b.value
  return a.isOne b || (k ≠ .own && k = l)

end SolidScript.Script
