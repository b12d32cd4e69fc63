import SolidScript.Decimal.Basic

/-!
# Reading decimals

A written decimal is a sign, digits with at most one point and at least one digit, and an optional
signed exponent. What follows it is left over.
-/

set_option autoImplicit false

namespace SolidScript.Decimal

def takeDigits (cs : List Char) : List Char × List Char := cs.span Char.isDigit

def takeSign : List Char → Bool × List Char
  | '-' :: cs => (true, cs)
  | '+' :: cs => (false, cs)
  | cs => (false, cs)

def takeFraction : List Char → List Char × List Char
  | '.' :: cs => takeDigits cs
  | cs => ([], cs)

/-- The exponent after an `e`, and the rest. A mark without digits is no exponent. -/
def takePower : List Char → Int × List Char
  | [] => (0, [])
  | c :: cs =>
    if c = 'e' ∨ c = 'E' then
      let (negative, rest) := takeSign cs
      match takeDigits rest with
      | ([], _) => (0, c :: cs)
      | (ds, rest) =>
        let n : Int := ↑(Nat.ofDigitChars 10 ds 0)
        (if negative then -n else n, rest)
    else (0, c :: cs)

def read? (cs : List Char) : Option (Decimal × List Char) :=
  let (negative, cs) := takeSign cs
  let (whole, cs) := takeDigits cs
  let (part, cs) := takeFraction cs
  if whole.isEmpty && part.isEmpty then none
  else
    let (e, cs) := takePower cs
    some (⟨negative, Nat.ofDigitChars 10 (whole ++ part) 0, e - part.length⟩, cs)

def ofText? (cs : List Char) : Option Decimal :=
  match read? cs with
  | some (d, []) => some d
  | _ => none

end SolidScript.Decimal
