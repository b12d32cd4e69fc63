import SolidScript.Shape.Kind

/-!
# Faults

Why a request cannot be carried out. A fault that the library finds by its own rules has a
message; one that lies in the form of a value, of a call or of a file name has none.
-/

set_option autoImplicit false

namespace SolidScript

inductive Fault where
  | textForNumber
  | noNumber
  /-- A sequence without a length stands where a number is wanted. -/
  | sequenceForNumber
  | textInSum
  | nanToWhole
  | infinityToWhole
  | numberTooLarge
  | divisionByZero
  | uneven
  | unmatched
  | vectorLength (expected : String) (actual : Nat)
  | unknownKind (name : String)
  | differenceArity
  | differenceReduction
  | mixedDimensions (kind : Kind)
  | unknownOperation (family name : String)
  | solidExtrusion (operation : Operation)
  | unknownColor (shown : String)
  | unknownAim (shown : String)
  | ambiguousTruth
  /-- An operation without parameters has none to write or to add to. -/
  | missingParameter
  | index (shown : String)
  | listIndex
  | negativeLength
  | lengthTooLarge
  | tripleExpected
  | wrongArguments
  | wrongSort
  | notIterable
  | notCallable
  | noSuchMember
  | absentStep
  /-- Routines call one another without end. -/
  | tooDeep
  | nulInName
  | directoryName
  | missingDirectory
  | fileAsDirectory
  | nameTooLong
deriving DecidableEq

def Fault.message? : Fault → Option String
  | vectorLength expected actual =>
    some s!"Expected a vector of length {expected}, got {actual}"
  | unknownKind name => some s!"Unknown operation type: {name}"
  | differenceArity => some "A difference takes exactly two shapes: (minuend, subtrahend)."
  | differenceReduction => some "A difference cannot be reduced from a sequence."
  | mixedDimensions kind => some s!"Cannot combine 2D and 3D shapes in a {kind.name}."
  | unknownOperation family name => some s!"Unknown operation: {family}/{name}"
  | solidExtrusion operation => some s!"Cannot {operation.name} a 3D shape."
  | unknownColor shown => some s!"{shown} is not a valid Color"
  | unknownAim shown => some s!"{shown} is not a valid Aim"
  | index shown => some shown
  | _ => none

end SolidScript
