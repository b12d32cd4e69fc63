import SolidScript.Script.Argument
import SolidScript.Script.Demonstration
import SolidScript.Script.Function

/-!
# Running command scripts

A script is a list of steps. A step calls a function or a method, makes a sequence, or asks about a
value; a step that fails leaves no value and does not stop the script. What a step has made gets its
origin, so that later steps can tell it from the like. Files saved by one step are there for the
next.
-/

set_option autoImplicit false

namespace SolidScript.Script

inductive Step where
  | function (name : String) (arguments : List Argument)
  | method (name : String) (target : Argument) (arguments : List Argument)
  | sequence (arguments : List Argument) (calls : List Call)
  | demonstration (program name : String) (arguments : List Argument)

inductive Outcome where
  | value (a : Item)
  /-- An answer, which later steps find absent. -/
  | answer (b : Bool)
  | length (n : Int)
  | tree (s : Shape)
  | saved (report : SaveReport)
  | fault (f : Fault)

structure State where
  values : Values
  store : Store

def State.empty : State := ⟨#[], Store.empty⟩

def State.context (s : State) : Context := .of s.values

def State.eval (s : State) (a : Argument) : Except Fault Item := do
  return (← a.eval s.values s.context .outermost).toItem

def State.evalAll (s : State) (arguments : List Argument) : Except Fault (List Operand) :=
  Script.evalAll s.values s.context .outermost arguments

def answered (f : Item → Except Fault Bool) : List Operand → Except Fault Outcome
  | [o] => do return .answer (← f o.toItem)
  | _ => .error .wrongArguments

def treeOf (v : Value) : List Operand → Except Fault Outcome
  | [] => do return .tree (← v.toShape)
  | _ => .error .wrongArguments

def lengthOf (c : Context) (v : Value) : List Operand → Except Fault Outcome
  | [] => do return .length (← v.length c)
  | _ => .error .wrongArguments

def destination (c : Context) : List Operand → Except Fault (Path × Bool)
  | [path] => do return (← pathOf path.toValue, true)
  | [path, verbose] => do return (← pathOf path.toValue, ← verbose.toValue.isTrue c)
  | _ => .error .wrongArguments
where
  pathOf : Value → Except Fault Path
    | .scalar (.text p) => .ok (.ofString p)
    | _ => .error .wrongSort

/-- Saving looks for the script of a value only after the warning. Whatever fails, there is a
report. -/
def saveValue (c : Context) (store : Store) (v : Value) (operands : List Operand) : SaveReport :=
  match destination c operands with
  | .ok (path, verbose) => save store path verbose v.script
  | .error e => ⟨"", store, .error e⟩

def saveShape (c : Context) (store : Store) (v : Value) (operands : List Operand) : SaveReport :=
  match v with
  | .shape _ => saveValue c store v operands
  | _ => ⟨"", store, .error .noSuchMember⟩

def ask (state : State) (name : String) (target : Argument) (arguments : List Argument) :
    Except Fault Outcome := do
  let c := state.context
  let a ← state.eval target
  let operands ← state.evalAll arguments
  match name with
  | "eq" => answered (same c a) operands
  | "ne" => answered (fun b => do return !(← same c a b)) operands
  | "hash_eq" => answered (sameKey a) operands
  | "len" => lengthOf c a.value operands
  | "tree" => treeOf a.value operands
  | "save" => return .saved (saveShape c state.store a.value operands)
  | "save_fn" => return .saved (saveValue c state.store a.value operands)
  | name => return .value (← callMethod c a name operands)

def makeSequence (c : Context) (calls : List Call) : List Operand → Except Fault Value
  | [count, base] => do
    return .calls (← (count.toValue.toScalar c).toInt) base.toItem calls
  | _ => .error .wrongArguments

def Step.run (state : State) : Step → Except Fault Outcome
  | .function name arguments => do
    return .value (← callFunction state.context name (← state.evalAll arguments))
  | .method name target arguments => ask state name target arguments
  | .sequence arguments calls => do
    return .value (.new (← makeSequence state.context calls (← state.evalAll arguments)))
  | .demonstration program name arguments => do
    return .value (← demonstrate state.context program name (← state.evalAll arguments))

/-- What later steps find: nothing after a failure, and an absent value after an answer. -/
def Outcome.kept : Outcome → Option Item
  | .value a => some a
  | .answer _ | .length _ | .tree _ | .saved _ => some (.new .absent)
  | .fault _ => none

def Outcome.storeAfter (store : Store) : Outcome → Store
  | .saved r => r.store
  | _ => store

def State.step (state : State) (s : Step) : Outcome × State :=
  let outcome := match s.run state with
    | .ok outcome => outcome
    | .error f => .fault f
  let kept := outcome.kept.map fun a => (a.settle state.values.size 0).1
  (outcome, ⟨state.values.push kept, outcome.storeAfter state.store⟩)

def runSteps (state : State) : List Step → List Outcome
  | [] => []
  | s :: ss =>
    let (outcome, state) := state.step s
    outcome :: runSteps state ss

def run (steps : List Step) : List Outcome := runSteps State.empty steps

end SolidScript.Script
