import SolidScript.Demo.Program
import SolidScript.Script.Command

/-!
# Demonstrations as commands

The shapes that the demonstration programs print, by the name of the program and their own.
-/

set_option autoImplicit false

namespace SolidScript.Script

def fixed (shape : Except Fault Shape) : Command :=
  Command.nullary fun _ => do return .shape (← shape)

def puzzle (c : Context) (make : Scalar → Scalar → Except Fault Shape) : Command :=
  Command.binaryOrBoth (.scalar Demo.Puzzle.defaultBar) (.scalar Demo.Puzzle.defaultSide)
    fun e s => do return .shape (← make (e.toScalar c) (s.toScalar c))

def catalogue (demos : List (String × Except Fault Shape)) : List (String × Command) :=
  demos.map fun (name, shape) => (name ++ "_example", fixed shape)

def demonstrations (c : Context) : Demo.Program → List (String × Command)
  | .composition => catalogue Demo.Composition.all
  | .transform => catalogue Demo.Transform.all
  | .racetrack => [("racetrack", Command.unaryOr (.scalar Demo.defaultRadius) fun r => do
      return .shape (← Demo.racetrack (r.toScalar c)))]
  | .puzzle => [("frame", puzzle c Demo.Puzzle.frame), ("tetra", puzzle c Demo.Puzzle.tetra),
      ("puzzle_piece", puzzle c Demo.Puzzle.piece)]

def demonstrate (c : Context) (program name : String) (operands : List Operand) :
    Except Fault Item :=
  match (Demo.Program.ofName? program).bind fun p => (demonstrations c p).lookup name with
  | some command => command operands
  | none => .error .noSuchMember

end SolidScript.Script
