import SolidScript.Sequence
import SolidScript.Shape.Render

/-!
# Values of the command language

A command takes and gives scalars, vectors, named constants, shapes, lists and sequences. What a
script says about a value stands for itself: a sequence that a script makes holds the calls that
make its elements, and a routine holds its calls, so that both refer to the steps as they are when
an element is asked for.

An item is a value together with its origin. Items of one origin are one and the same, however a
script has come by them; a value that has just been made has an origin once its step is done.
-/

set_option autoImplicit false

namespace SolidScript.Script
open Binary

/-- What made a value: its name, or a step, which may make more than one. -/
inductive Origin where
  | constant (name : String)
  | step (k place : Nat)
deriving DecidableEq

mutual

inductive Value where
  | scalar (s : Scalar)
  | vector (xs : Coordinates)
  | color (c : Color)
  | aim (a : Aim)
  | shape (s : Shape)
  | list (items : List Item)
  | copies (s : Sequence Shape)
  | calls (count : Int) (base : Item) (calls : List Call)
  | image (source : Item) (f : Operand)

inductive Item where
  | mk (origin : Option Origin) (value : Value)

inductive Operand where
  | item (i : Item)
  /-- A chain of calls, run `times` times in a row, with the index where it was written. -/
  | routine (calls : List Call) (times : Nat) (index : Option Index)

/-- An argument is written out, refers to the value of an earlier step, or is a routine. Inside a
routine it may refer to what the routine is applied to, and inside a sequence to the index. -/
inductive Argument where
  | literal (i : Item)
  | list (items : List Argument)
  | vector (items : List Argument)
  | step (k : Int)
  | self
  | index
  | routine (calls : List Call) (times : Nat)

inductive Call where
  | mk (method : String) (arguments : List Argument)

end

instance : Inhabited Value := ⟨.scalar .absent⟩
instance : Inhabited Item := ⟨.mk none default⟩
instance : Inhabited Argument := ⟨.literal default⟩
instance : Inhabited Call := ⟨.mk "" []⟩

namespace Value

def absent : Value := scalar .absent

def truth (b : Bool) : Value := scalar (.truth b)

def whole (i : Int) : Value := scalar (.whole i)

def single (x : Single) : Value := scalar (.single x)

def text (cs : List Char) : Value := scalar (.text (String.ofList cs))

def ofIndex : Index → Value
  | .number s => scalar s
  | .component x => vector [x]

def toShape : Value → Except Fault Shape
  | shape s => .ok s
  | _ => .error .noSuchMember

def script : Value → Except Fault (List Char)
  | shape s => s.render
  | color c => .ok c.text
  | _ => .error .noSuchMember

def toIndex : Value → Except Fault Index
  | scalar s => .ok (.number s)
  | vector [x] => .ok (.component x)
  | vector _ => .error .ambiguousTruth
  | _ => .error .wrongSort

end Value

namespace Item

def new (v : Value) : Item := mk none v

def constant (name : String) (v : Value) : Item := mk (some (.constant name)) v

def origin : Item → Option Origin
  | mk o _ => o

def value : Item → Value
  | mk _ v => v

def sameOrigin (o p : Option Origin) : Bool := o.isSome && o = p

def isOne (a b : Item) : Bool := sameOrigin a.origin b.origin

end Item

def Value.listOf (vs : List Value) : Value := list (vs.map .new)

mutual

/-- The item with an origin. The places of a step are numbered in order, each item before its
parts; one that was there before keeps what it had. -/
def Item.settle (step place : Nat) : Item → Item × Nat
  | .mk (some o) v => (.mk (some o) v, place)
  | .mk none v =>
    let (v, next) := v.settle step (place + 1)
    (.mk (some (.step step place)) v, next)

def Value.settle (step place : Nat) : Value → Value × Nat
  | .list items =>
    let (items, next) := settleAll step place items
    (.list items, next)
  | .calls n base cs =>
    let (base, next) := base.settle step place
    (.calls n base cs, next)
  | .image source f =>
    let (source, next) := source.settle step place
    (.image source f, next)
  | v => (v, place)

def settleAll (step place : Nat) : List Item → List Item × Nat
  | [] => ([], place)
  | item :: items =>
    let (item, next) := item.settle step place
    let (items, next) := settleAll step next items
    (item :: items, next)

end

namespace Operand

def toItem : Operand → Item
  | item i => i
  | routine _ _ _ => .new (.scalar (.foreign .noNumber))

def toValue (o : Operand) : Value := o.toItem.value

end Operand
end SolidScript.Script
