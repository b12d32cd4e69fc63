import SolidScript.Decimal.Shortest

/-!
# Layout of numbers in text

A number is written with the digits of its shortest decimal. A `Style` says which powers of ten are
written positionally, whether a whole number keeps `.0`, and how the values without digits are
spelled.
-/

set_option autoImplicit false

attribute [local instance (10000)] instPowNat

namespace SolidScript

namespace Decimal

def padded (width n : Nat) : List Char :=
  let ds := Nat.toDigits 10 n
  List.replicate (width - ds.length) '0' ++ ds

def signed (negative : Bool) (text : List Char) : List Char :=
  if negative then '-' :: text else text

def positional (d : Decimal) : List Char :=
  match d.exponent with
  | .ofNat e => Nat.toDigits 10 d.digits ++ List.replicate e '0'
  | .negSucc e =>
    Nat.toDigits 10 (d.digits / 10 ^ (e + 1)) ++ '.' :: padded (e + 1) (d.digits % 10 ^ (e + 1))

def leading (d : Decimal) : Int := d.length + d.exponent - 1

def power (e : Int) : List Char := 'e' :: (if e < 0 then '-' else '+') :: padded 2 e.natAbs

def scientific (d : Decimal) : List Char :=
  let mantissa := match Nat.toDigits 10 d.digits with
    | c :: c' :: cs => c :: '.' :: c' :: cs
    | cs => cs
  mantissa ++ power d.leading

def exactLeading (f : Binary.Format) (n : Nat) : Int :=
  if n = 0 then 0 else (Nat.toDigits 10 (n * 5 ^ f.scale)).length - 1 - f.scale

end Decimal

structure Style where
  /-- Numbers from the first power of ten on and below the second are positional; without a span
  all are. -/
  span : Option (Int × Int)
  pointed : Bool
  nan : String
  infinity : String

namespace Style
open Binary

/-- Lengths, angles and extents in a script: `5`, `0.25`, never an exponent. -/
def script : Style := ⟨none, false, "NaN", "inf"⟩

/-- Coordinates of a polyhedron in a script: `5.0`, `0.25`. -/
def coordinate : Style := { script with pointed := true }

/-- Numbers quoted in a message: `5.0`, `1e+16`, `1e-05`. -/
def message : Style := ⟨some (-4, 16), true, "nan", "inf"⟩

/-- Numbers of single precision quoted in a message: `5.0`, `1e+06`, `1e-05`. -/
def brief : Style := { message with span := some (-4, 6) }

def isPositional (style : Style) (f : Format) (n : Nat) : Bool :=
  match style.span with
  | none => true
  | some (least, bound) =>
    let e := Decimal.exactLeading f n
    least ≤ e && e < bound

def layout (style : Style) (positional : Bool) (d : Decimal) : List Char :=
  if positional then
    let text := d.positional
    if style.pointed && !text.contains '.' then text ++ ['.', '0'] else text
  else d.scientific

def write {f : Format} (style : Style) : Number f → List Char
  | .nan => style.nan.toList
  | .infinite s => Decimal.signed s style.infinity.toList
  | x@(.finite s n _) =>
    let text := x.shortest?.map (style.layout (style.isPositional f n))
    Decimal.signed s (text.getD [])

example : script.write (.ofInt 8589934592 : Single) = "8589935000".toList ∧
    script.write (.ofRatio true (2 ^ 148) 1 : Single) = "-0.5".toList ∧
    script.write (.zero true : Single) = "-0".toList ∧
    coordinate.write (.ofInt 5 : Single) = "5.0".toList ∧
    coordinate.write (.infinite true : Single) = "-inf".toList := by
  decide +kernel

example : message.write (.ofInt (10 ^ 16) : Double) = "1e+16".toList ∧
    message.write (Decimal.round .double ⟨true, 12345, -9⟩) = "-1.2345e-05".toList ∧
    message.write (Decimal.round .double ⟨false, 1, -4⟩) = "0.0001".toList := by
  decide +kernel

example : brief.write (Decimal.round .single ⟨false, 99999994, -2⟩) = "999999.94".toList ∧
    brief.write (.ofInt (-25000000) : Single) = "-2.5e+07".toList ∧
    brief.write (Decimal.round .single ⟨false, 1, -4⟩) = "1e-04".toList := by
  decide +kernel

end Style
end SolidScript
