import SolidScript.Decimal.FreeForm
import SolidScript.Demo.Puzzle
import SolidScript.Demo.Racetrack
import SolidScript.Demo.Transform
import SolidScript.Store

/-!
# Demonstration programs

Each program turns its arguments and a store into what it prints and the store it leaves.
-/

set_option autoImplicit false

namespace SolidScript.Demo
open Binary

inductive Program where
  | composition
  | transform
  | racetrack
  | puzzle
deriving DecidableEq

namespace Program

def name : Program → String
  | composition => "compositors"
  | transform => "transforms"
  | racetrack => "racetrack"
  | puzzle => "puzzle_tetra"

def ofName? (s : String) : Option Program :=
  [composition, transform, racetrack, puzzle].find? fun p => p.name = s

end Program

structure Report where
  output : String
  log : String
  store : Store
  result : Except Fault Unit

namespace Report

def printed (store : Store) (output : String) : Report := ⟨output, "", store, .ok ()⟩

def script (store : Store) (before : String) (shape : Except Fault Shape) : Report :=
  match shape >>= Shape.render with
  | .ok text => printed store (before ++ String.ofList text ++ "\n")
  | .error e => ⟨before, "", store, .error e⟩

def saved (r : SaveReport) : Report := ⟨"", r.log, r.store, r.result⟩

end Report

/-- Prints the demonstration that the first argument names, or the names there are. -/
def menu (title : String) (demos : List (String × Except Fault Shape)) (arguments : List String)
    (store : Store) : Report :=
  let head := s!"--- scadforge {title} Examples ---\n"
  match arguments with
  | [] =>
    let names := ", ".intercalate (demos.map (·.1))
    .printed store s!"{head}Available examples: {names}\n"
  | name :: _ => match demos.lookup name with
    | some shape => .script store head shape
    | none => .printed store s!"{head}Example '{name}' not found.\n"

def printRacetrack (arguments : List String) (store : Store) : Report :=
  match arguments with
  | [] => .script store "" (racetrack defaultRadius)
  | radius :: _ => match Decimal.ofFreeForm? radius with
    | some r => .script store "" (racetrack (.double r))
    | none => ⟨"", "", store, .error .textForNumber⟩

def makePuzzle (arguments : List String) (store : Store) : Report :=
  let shape := Puzzle.piece Puzzle.defaultBar Puzzle.defaultSide
  match arguments with
  | [] => .script store "" shape
  | path :: _ => .saved (save store (.ofString path) true (shape >>= Shape.render))

def Program.run : Program → List String → Store → Report
  | composition => menu "Composition" Composition.all
  | transform => menu "Transform" Transform.all
  | racetrack => printRacetrack
  | puzzle => makePuzzle

end SolidScript.Demo
