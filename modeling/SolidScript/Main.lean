import SolidScript.Demo.Program

/-!
# Command line

The first argument names a demonstration program, the others are its own.
-/

set_option autoImplicit false

namespace SolidScript.Demo

def usage : String :=
  "usage: solidscript (compositors | transforms | racetrack | puzzle_tetra) [argument]\n"

/-- Prints what a program reports and writes the files it saved. -/
def Report.perform (r : Report) : IO UInt32 := do
  (← IO.getStdout).putStr r.output
  for (name, text) in r.store.files do
    IO.FS.writeFile name text
  let err ← IO.getStderr
  err.putStr r.log
  match r.result with
  | .ok () => return 0
  | .error f =>
    if let some text := f.message? then err.putStrLn text
    return 1

end SolidScript.Demo

def main (arguments : List String) : IO UInt32 := do
  match arguments with
  | name :: rest => match SolidScript.Demo.Program.ofName? name with
    | some p => (p.run rest ⟨[], .written⟩).perform
    | none => (← IO.getStderr).putStr SolidScript.Demo.usage; return 2
  | [] => (← IO.getStderr).putStr SolidScript.Demo.usage; return 2
