import SolidScript.Script.Value

/-!
# Reading values

A value is read as a sequence, a list, a vector or a number. The elements of a sequence that a
script made come from running its calls, which is what a `Context` can do.
-/

set_option autoImplicit false

namespace SolidScript.Script
open Binary

/-- What an argument may refer to besides steps. -/
structure Scope where
  self : Option Item
  index : Option Index

structure Context where
  run : Scope → List Call → Item → Except Fault Item

def iterate (f : Item → Except Fault Item) : Nat → Item → Except Fault Item
  | 0, a => .ok a
  | n + 1, a => do iterate f n (← f a)

def Operand.apply (c : Context) (o : Operand) (a : Item) : Except Fault Item :=
  match o with
  | item _ => .error .notCallable
  | routine calls times index => iterate (c.run ⟨some a, index⟩ calls) times a

namespace Value

def sequence? (c : Context) : Value → Option (Sequence Item)
  | copies s => some (s.map fun x => .ok (.new (shape x)))
  | calls n base cs => some ⟨n, fun i => c.run ⟨some base, some i⟩ cs base⟩
  | image (.mk _ source) f => (source.sequence? c).map fun s => s.map (f.apply c)
  | scalar _ | vector _ | color _ | aim _ | shape _ | list _ => none

def fixedItems : Value → Except Fault (List Item)
  | list items => .ok items
  | vector xs => .ok (xs.map fun x => .new (single x))
  | scalar (.text s) => .ok (s.toList.map fun c => .new (text [c]))
  | _ => .error .notIterable

/-- The results for the items in order. An element of a sequence is made when its turn comes, and
none after the first failure. -/
def each {α : Type} (c : Context) (v : Value) (f : Value → Except Fault α) :
    Except Fault (List α) := do
  match v.sequence? c with
  | some s => (s.map fun a => f a.value).items
  | none => (← v.fixedItems).mapM fun a => f a.value

def eachOfFirst {α : Type} (c : Context) (n : Nat) (v : Value) (f : Value → Except Fault α) :
    Except Fault (List α) := do
  match v.sequence? c with
  | some s => (s.map fun a => f a.value).take 0 (min n s.count.toNat)
  | none => ((← v.fixedItems).take n).mapM fun a => f a.value

def items (c : Context) (v : Value) : Except Fault (List Item) :=
  match v.sequence? c with
  | some s => s.items
  | none => v.fixedItems

def toList (c : Context) (v : Value) : Except Fault (List Item) :=
  match v.sequence? c with
  | some s => s.toList
  | none => v.fixedItems

def toValues (c : Context) (v : Value) : Except Fault (List Value) := do
  return (← v.toList c).map (·.value)

def length (c : Context) (v : Value) : Except Fault Int :=
  match v.sequence? c with
  | some s => s.length
  | none => match v with
    | list items => .ok items.length
    | vector xs => .ok xs.length
    | scalar (.text s) => .ok s.length
    | _ => .error .wrongSort

def nestItems (f : Nat → Value → Except Fault (Nested × Nat)) :
    Nat → List Value → Except Fault (List Nested × Nat)
  | room, [] => .ok ([], room)
  | room, v :: vs => do
    let (item, room) ← f room v
    let (items, room) ← nestItems f room vs
    return (item :: items, room)

def nestList (f : Nat → Value → Except Fault (Nested × Nat)) (room : Nat) :
    List Value → Except Fault (Nested × Nat)
  | [] => .ok (.list [], 1)
  | vs => do
    let (items, room) ← nestItems f room vs
    return (.list items, room + 1)

/-- Nested lists with the elements of the sequences in them. Where a number was found at some
depth, a list there makes the whole uneven whatever it holds, and is not looked into: `room` is the
depth that is left. A sequence without a length is no list. -/
def nestWithin (c : Context) : Nat → Nat → Value → Except Fault (Nested × Nat)
  | 0, _, _ => .ok (.list [], 0)
  | fuel + 1, room, v =>
    match v, v.sequence? c with
    | scalar s, _ => .ok (.scalar s, 0)
    | vector xs, _ => .ok (.vector xs, min room 1)
    | list items, _ => match room with
      | 0 => .ok (.list [], 0)
      | room + 1 => nestList (nestWithin c fuel) room (items.map (·.value))
    | _, none => .ok (.scalar (.foreign .noNumber), 0)
    | _, some s => match s.length, room with
      | .error _, _ => .ok (.scalar (.foreign .sequenceForNumber), 0)
      | .ok _, 0 => .ok (.list [], 0)
      | .ok _, room + 1 => do
        nestList (nestWithin c fuel) room ((← s.items).map (·.value))

def nest (c : Context) (v : Value) : Except Fault Nested :=
  (·.1) <$> nestWithin c (Nested.maxDepth + 1) Nested.maxDepth v

def toVector (c : Context) (size : Option Int) (v : Value) : Except Fault Coordinates := do
  (← v.nest c).toVector size

/-- The value as a number. A list or sequence is none, for the reason that it is no vector of
numbers if there is one. -/
def toScalar (c : Context) : Value → Scalar
  | scalar s => s
  | color _ | aim _ | shape _ => .foreign .noNumber
  | v => match v.toVector c none with
    | .error e => .foreign e
    | .ok _ => .foreign .noNumber

mutual

def asParameter (ofSequence : Value → Parameter) : Value → Parameter
  | scalar s => .scalar s
  | vector xs => .vector xs
  | color k => .color k
  | shape s => .shape s
  | list items => .list (asParameters ofSequence items)
  | aim _ => .scalar (.foreign .noNumber)
  | v => ofSequence v

def asParameters (ofSequence : Value → Parameter) : List Item → List Parameter
  | [] => []
  | .mk _ v :: items => v.asParameter ofSequence :: asParameters ofSequence items

end

def sequenceParameter (c : Context) : Nat → Value → Parameter
  | 0, _ => .scalar (.foreign .uneven)
  | fuel + 1, v => match v.length c with
    | .error _ => .scalar (.foreign .sequenceForNumber)
    | .ok _ => match v.items c with
      | .error e => .scalar (.foreign e)
      | .ok items => .list (asParameters (sequenceParameter c fuel) items)

def toParameter (c : Context) (v : Value) : Parameter :=
  v.asParameter (sequenceParameter c (Nested.maxDepth + 1))

end Value
end SolidScript.Script
