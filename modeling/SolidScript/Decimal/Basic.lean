import SolidScript.Binary.Number

/-!
# Decimals

A decimal is a sign, a natural number and a power of ten. It rounds to the nearest binary number
of any format.
-/

set_option autoImplicit false

attribute [local instance (10000)] instPowNat

namespace SolidScript

structure Decimal where
  negative : Bool
  digits : Nat
  exponent : Int
deriving DecidableEq

namespace Decimal
open Binary

def trim (d : Decimal) : Decimal :=
  if d.digits ≠ 0 ∧ d.digits % 10 = 0 then
    trim ⟨d.negative, d.digits / 10, d.exponent + 1⟩
  else d
termination_by d.digits
decreasing_by omega

@[simp] theorem trim_negative (d : Decimal) : d.trim.negative = d.negative := by
  fun_induction trim d with
  | case1 d h ih => exact ih
  | case2 d h => rfl

theorem trim_digits (d : Decimal) : d.trim.digits = 0 ∨ d.trim.digits % 10 ≠ 0 := by
  fun_induction trim d with
  | case1 d h ih => exact ih
  | case2 d h => omega

def length (d : Decimal) : Nat := (Nat.toDigits 10 d.digits).length

def exact (f : Format) (d : Decimal) : Number f :=
  match d.exponent with
  | .ofNat e => .ofRatio d.negative (d.digits * 10 ^ e * 2 ^ f.scale) 1
  | .negSucc e => .ofRatio d.negative (d.digits * 2 ^ f.scale) (10 ^ (e + 1))

/-- The nearest number. A power of ten past the limit is infinite and one far below the least unit
is zero, without writing either out. -/
def round (f : Format) (d : Decimal) : Number f :=
  if d.digits = 0 then .zero d.negative
  else if (f.limit : Int) ≤ d.exponent then .infinite d.negative
  else if d.length + d.exponent + f.scale < 0 then .zero d.negative
  else d.exact f

end Decimal
end SolidScript
