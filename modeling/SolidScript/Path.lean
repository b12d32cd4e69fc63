import SolidScript.Fault

/-!
# Paths

A path is read as its parts. Which file it leads to, and whether that can be opened for writing, is
up to the places around it. Trees of directories are such places.
-/

set_option autoImplicit false

namespace SolidScript

/-- A path as its parts, without empty ones and without those that stand for the same place. -/
structure Path where
  root : String
  parts : List String
deriving DecidableEq

namespace Path

/-- Two slashes in front are a root of their own; any other number above is one slash. -/
def rootOf (s : String) : String :=
  match (s.toList.takeWhile (· = '/')).length with
  | 0 => ""
  | 2 => "//"
  | _ => "/"

def split (separator : Char) : List Char → List (List Char)
  | [] => [[]]
  | c :: cs =>
    if c = separator then [] :: split separator cs
    else match split separator cs with
      | piece :: pieces => (c :: piece) :: pieces
      | [] => [[c]]

def ofString (s : String) : Path :=
  ⟨rootOf s, ((split '/' s.toList).map String.ofList).filter fun p => p ≠ "" ∧ p ≠ "."⟩

def shown (p : Path) : String :=
  if p.root = "" ∧ p.parts = [] then "." else p.root ++ "/".intercalate p.parts

def name (p : Path) : String := p.parts.getLastD ""

/-- The last point of the name and what follows, unless the name starts or ends with it. -/
def suffix (p : Path) : String :=
  let reversed := p.name.toList.reverse
  let extension := (reversed.takeWhile (· ≠ '.')).reverse
  let stem := (reversed.dropWhile (· ≠ '.')).drop 1
  if extension = [] ∨ stem = [] then "" else String.ofList ('.' :: extension)

example : (ofString "./a//b.txt.scad/").shown = "a/b.txt.scad" ∧ (ofString "").shown = "." ∧
    (ofString "a.b.scad").suffix = ".scad" ∧ (ofString ".scad").suffix = "" ∧
    (ofString "a.").suffix = "" := by
  decide +kernel

end Path

abbrev Files := List (String × String)

/-- The file that each path leads to, and why a path cannot be opened for writing, if so, with the
files that there are. -/
structure Places where
  file : Path → String
  refusal : Files → Path → Option Fault

/-- Every path is a file of its own and none is refused. -/
def Places.written : Places := ⟨Path.shown, fun _ _ => none⟩

/-- A tree of directories without links, each given by the names on the way down from the root. -/
structure Tree where
  directories : List (List String)
  working : List String

namespace Tree

def pathLimit : Nat := 4095

def nameLimit : Nat := 255

def start (t : Tree) (p : Path) : List String := if p.root = "" then t.working else []

def enter (here : List String) (name : String) : List String :=
  if name = ".." then here.dropLast else here ++ [name]

/-- What lies below the working directory is named from there, all else from the root. -/
def fileName (t : Tree) (location : List String) : String :=
  if t.working.isPrefixOf location then "/".intercalate (location.drop t.working.length)
  else "/" ++ "/".intercalate location

def file (t : Tree) (p : Path) : String := t.fileName (p.parts.foldl enter (t.start p))

def obstacle (t : Tree) (files : Files) (here : List String) : List String → Option Fault
  | [] => some .directoryName
  | name :: rest =>
    if name = ".." then t.obstacle files here.dropLast rest
    else if nameLimit < name.utf8ByteSize then some .nameTooLong
    else if here ++ [name] ∈ t.directories then t.obstacle files (here ++ [name]) rest
    else if rest = [] then none
    else if (files.lookup (t.fileName (here ++ [name]))).isSome then some .fileAsDirectory
    else some .missingDirectory

def refusal (t : Tree) (files : Files) (p : Path) : Option Fault :=
  if '\x00' ∈ p.shown.toList then some .nulInName
  else if pathLimit < p.shown.utf8ByteSize then some .nameTooLong
  else t.obstacle files (t.start p) p.parts

def places (t : Tree) : Places := ⟨t.file, t.refusal⟩

def bare : Tree := ⟨[["work"]], ["work"]⟩

end Tree
end SolidScript
