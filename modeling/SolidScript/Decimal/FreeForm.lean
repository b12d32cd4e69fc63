import SolidScript.Decimal.Reader
import SolidScript.Text.Numeral

/-!
# Numbers as people type them

Besides plain decimals, blanks may stand around the number, underscores between two digits, digits
may be those of any script, and infinity and NaN have names.
-/

set_option autoImplicit false

namespace SolidScript.Decimal
open Binary Text

def plain (c : Char) : Char :=
  if c.toNat < 128 then c
  else if isWideBlank c then ' '
  else match digit? c with
    | some d => Nat.digitChar d
    | none => c

def trimBlanks (cs : List Char) : List Char :=
  let front := cs.dropWhile isPlainBlank
  (front.reverse.dropWhile isPlainBlank).reverse

/-- The text without its underscores, each of which must stand between two digits. -/
def ungroup (previous : Char) : List Char → Option (List Char)
  | [] => some []
  | '_' :: c :: cs =>
    if previous.isDigit && c.isDigit then (ungroup c cs).map (c :: ·) else none
  | c :: cs => if c = '_' then none else (ungroup c cs).map (c :: ·)

def named? (cs : List Char) : Option Double :=
  let (negative, name) := takeSign (cs.map Char.toLower)
  if name = "inf".toList ∨ name = "infinity".toList then some (.infinite negative)
  else if name = "nan".toList then some .nan
  else none

def ofFreeForm? (s : String) : Option Double := do
  let cs ← ungroup ' ' (trimBlanks (s.toList.map plain))
  named? cs <|> (ofText? cs).map (round .double)

def ofFreeWhole? (s : String) : Option Int := do
  let cs ← ungroup ' ' (trimBlanks (s.toList.map plain))
  let (negative, ds) := takeSign cs
  if ds.isEmpty || ds.any fun c => !c.isDigit then none
  else
    let n : Int := ↑(Nat.ofDigitChars 10 ds 0)
    some (if negative then -n else n)

example : ofFreeForm? " 1_000" = some (.ofInt 1000) ∧
    ofFreeForm? "-Infinity" = some (.infinite true) ∧ ofFreeForm? "1__0" = none ∧
    ofFreeForm? "0x10" = none ∧ ofFreeForm? "" = none ∧ ofFreeWhole? " -1_0 " = some (-10) ∧
    ofFreeWhole? "1.5" = none ∧ ofFreeWhole? "+" = none := by
  decide +kernel

end SolidScript.Decimal
