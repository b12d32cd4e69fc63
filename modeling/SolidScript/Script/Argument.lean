import SolidScript.Script.Method

/-!
# Running calls

The arguments of a call are read in order, then the method is called. A chain of calls may apply
routines and make elements of sequences, which run further chains; a script whose chains run one
another deeper than `maxDepth` is stopped.
-/

set_option autoImplicit false

namespace SolidScript.Script

abbrev Values := Array (Option Item)

namespace Scope

def find (o : Option Item) : Except Fault Item :=
  match o with
  | some a => .ok a
  | none => .error .absentStep

def outermost : Scope := ⟨none, none⟩

end Scope

def Values.find (values : Values) (k : Int) : Except Fault Item :=
  if k < 0 then .error .absentStep else Scope.find (values[k.toNat]?.join)

mutual

def Argument.eval (values : Values) (c : Context) (scope : Scope) :
    Argument → Except Fault Operand
  | .literal a => .ok (.item a)
  | .list items => do
    return .item (.new (.list ((← evalAll values c scope items).map (·.toItem))))
  | .vector items => do
    let v := Value.list ((← evalAll values c scope items).map (·.toItem))
    return .item (.new (.vector (← v.toVector c none)))
  | .step k => do return .item (← values.find k)
  | .self => do return .item (← Scope.find scope.self)
  | .index => do return .item (← Scope.find (scope.index.map fun i => .new (.ofIndex i)))
  | .routine calls times => .ok (.routine calls times scope.index)

def evalAll (values : Values) (c : Context) (scope : Scope) :
    List Argument → Except Fault (List Operand)
  | [] => .ok []
  | a :: as => do return (← a.eval values c scope) :: (← evalAll values c scope as)

end

def Call.run (values : Values) (c : Context) (scope : Scope) : Call → Item → Except Fault Item
  | .mk method arguments, a => do callMethod c a method (← evalAll values c scope arguments)

def runCalls (values : Values) (c : Context) (scope : Scope) :
    List Call → Item → Except Fault Item
  | [], a => .ok a
  | call :: calls, a => do runCalls values c scope calls (← call.run values c scope a)

/-- A context in which chains run one another up to a depth. -/
def Context.ofDepth (values : Values) : Nat → Context
  | 0 => ⟨fun _ _ _ => .error .tooDeep⟩
  | depth + 1 => ⟨fun scope calls a => runCalls values (ofDepth values depth) scope calls a⟩

def maxDepth : Nat := 1000

def Context.of (values : Values) : Context := .ofDepth values maxDepth

end SolidScript.Script
