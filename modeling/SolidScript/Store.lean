import SolidScript.Path
import SolidScript.Shape.Render
import SolidScript.Text.LowerCase

/-!
# Saving scripts

A store has files, and places that tell which file a path leads to. To open a file for writing is
to make or empty it, so `save` warns, has the shape rendered, and only then opens, writes and
reports. What was said and done before a failure stays.
-/

set_option autoImplicit false

namespace SolidScript

structure Store where
  files : Files
  places : Places

namespace Store

def empty : Store := ⟨[], Tree.bare.places⟩

def read? (s : Store) (file : String) : Option String := s.files.lookup file

def write (s : Store) (file text : String) : Store :=
  { s with files := (file, text) :: s.files.filter fun f => f.1 ≠ file }

def append (s : Store) (file text : String) : Store :=
  s.write file ((s.read? file).getD "" ++ text)

theorem read?_write (s : Store) (file text : String) :
    (s.write file text).read? file = some text := by
  simp [read?, write]

theorem read?_write_of_ne (s : Store) {file other : String} (text : String) (h : other ≠ file) :
    (s.write file text).read? other = s.read? other := by
  obtain ⟨files, places⟩ := s
  simp only [read?, write, List.lookup_cons, beq_eq_false_iff_ne.2 h]
  induction files with
  | nil => rfl
  | cons f fs ih =>
    obtain ⟨n, t⟩ := f
    by_cases hn : n = file
    · subst hn
      simpa [List.lookup_cons, beq_eq_false_iff_ne.2 h] using ih
    · cases ho : other == n
      · simpa [List.lookup_cons, hn, ho] using ih
      · simp [List.lookup_cons, hn, ho]

theorem read?_append (s : Store) (file text : String) :
    (s.append file text).read? file = some ((s.read? file).getD "" ++ text) :=
  s.read?_write file _

theorem read?_append_of_ne (s : Store) {file other : String} (text : String) (h : other ≠ file) :
    (s.append file text).read? other = s.read? other := s.read?_write_of_ne _ h

end Store

/-! Saving step by step -/

structure Progress where
  log : String
  store : Store

/-- Steps that can fail, each from the log and the store that the ones before have left. -/
abbrev Saving := ExceptT Fault (StateM Progress)

namespace Saving

def say (text : String) : Saving Unit := modify fun w => { w with log := w.log ++ text }

/-- Opens a file for writing. If there is none it is made, and if there is one it is emptied. -/
def openFile (p : Path) : Saving String := fun w =>
  match w.store.places.refusal w.store.files p with
  | some e => (.error e, w)
  | none =>
    let file := w.store.places.file p
    (.ok file, { w with store := w.store.write file "" })

def append (file text : String) : Saving Unit :=
  modify fun w => { w with store := w.store.append file text }

end Saving

def scriptSuffix : String := ".scad"

def warning (p : Path) : String :=
  s!"WARNING: '{p.name}' does not end in '.scad'; OpenSCAD may not open it.\n"

def success (p : Path) : String := s!"SUCCESS: Script exported to '{p.shown}'.\n"

def saving (p : Path) (verbose : Bool) (script : Except Fault (List Char)) : Saving Unit := do
  if verbose ∧ Text.lower p.suffix ≠ scriptSuffix then
    Saving.say (warning p)
  let text ← script
  let file ← Saving.openFile p
  Saving.append file (String.ofList text)
  Saving.append file "\n"
  if verbose then
    Saving.say (success p)

structure SaveReport where
  log : String
  store : Store
  result : Except Fault Unit

def save (store : Store) (p : Path) (verbose : Bool) (script : Except Fault (List Char)) :
    SaveReport :=
  let (result, progress) := (saving p verbose script).run.run ⟨"", store⟩
  ⟨progress.log, progress.store, result⟩

end SolidScript
