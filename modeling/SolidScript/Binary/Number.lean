import SolidScript.Binary.Format

/-!
# Binary numbers

A number is not a number, an infinity, or a sign and a magnitude in least units that the format
holds. Each operation takes the exact result and rounds it once. A sum that cancels is positive
zero; a zero keeps its sign elsewhere. The words of the two interchange formats are a view of the
numbers (`toBits`), in which every NaN has the same word.
-/

set_option autoImplicit false

attribute [local instance (10000)] instPowNat

namespace SolidScript.Binary

inductive Number (f : Format) where
  | nan
  | infinite (negative : Bool)
  | finite (negative : Bool) (units : Nat) (fits : f.Fits units)
deriving DecidableEq

namespace Number

variable {f : Format}

def zero (negative : Bool) : Number f := .finite negative 0 f.fits_zero

instance : Inhabited (Number f) := ⟨zero false⟩

/-- The number nearest to a signed quotient of units, infinite from `2 ^ limit` on. -/
def ofRatio (negative : Bool) (numerator denominator : Nat) : Number f :=
  if h : f.round numerator denominator < 2 ^ f.limit then
    .finite negative (f.round numerator denominator) (f.fits_round h)
  else .infinite negative

theorem ofRatio_units (negative : Bool) {n : Nat} (h : f.Fits n) :
    ofRatio negative n 1 = .finite negative n h := by
  simp [ofRatio, f.round_of_fits h, h.2]

def largest : Number f := ofRatio false (2 ^ f.limit - 2 ^ (f.limit - f.precision)) 1

def ofInt (i : Int) : Number f := ofRatio (i < 0) (i.natAbs * 2 ^ f.scale) 1

def convert {g : Format} : Number f → Number g
  | .nan => .nan
  | .infinite s => .infinite s
  | .finite s n _ => ofRatio s (n * 2 ^ g.scale) (2 ^ f.scale)

def negative : Number f → Bool
  | .nan => false
  | .infinite s | .finite s _ _ => s

def isFinite : Number f → Bool
  | .finite _ _ _ => true
  | _ => false

def isNaN : Number f → Bool
  | .nan => true
  | _ => false

def isZero : Number f → Bool
  | .finite _ n _ => n == 0
  | _ => false

def neg : Number f → Number f
  | .nan => .nan
  | .infinite s => .infinite !s
  | .finite s n h => .finite (!s) n h

def add : Number f → Number f → Number f
  | .nan, _ | _, .nan => .nan
  | .infinite s, .infinite t => if s = t then .infinite s else .nan
  | .infinite s, _ | _, .infinite s => .infinite s
  | .finite s m _, .finite t n _ =>
    if s = t then ofRatio s (m + n) 1
    else if m = n then zero false
    else if n < m then ofRatio s (m - n) 1
    else ofRatio t (n - m) 1

def sub (x y : Number f) : Number f := x.add y.neg

def mul : Number f → Number f → Number f
  | .nan, _ | _, .nan => .nan
  | .infinite s, y => if y.isZero then .nan else .infinite (s != y.negative)
  | x, .infinite t => if x.isZero then .nan else .infinite (x.negative != t)
  | .finite s m _, .finite t n _ => ofRatio (s != t) (m * n) (2 ^ f.scale)

def div : Number f → Number f → Number f
  | .nan, _ | _, .nan => .nan
  | .infinite _, .infinite _ => .nan
  | .infinite s, .finite t _ _ => .infinite (s != t)
  | .finite s _ _, .infinite t => zero (s != t)
  | .finite s m _, .finite t n _ =>
    if n = 0 then if m = 0 then .nan else .infinite (s != t)
    else ofRatio (s != t) (m * 2 ^ f.scale) n

instance : Neg (Number f) := ⟨neg⟩
instance : Add (Number f) := ⟨add⟩
instance : Sub (Number f) := ⟨sub⟩
instance : Mul (Number f) := ⟨mul⟩
instance : Div (Number f) := ⟨div⟩

theorem add_comm (x y : Number f) : x + y = y + x := by
  change add x y = add y x
  cases x <;> cases y <;> simp only [add]
  · rename_i s t
    cases s <;> cases t <;> rfl
  · rename_i s m _ t n _
    by_cases hst : s = t
    · subst hst
      simp [Nat.add_comm]
    · by_cases hmn : m = n
      · simp [hst, Ne.symm hst, hmn]
      · rcases Nat.lt_or_gt_of_ne hmn with h | h
        · simp [hst, Ne.symm hst, hmn, Ne.symm hmn, h, Nat.lt_asymm h]
        · simp [hst, Ne.symm hst, hmn, Ne.symm hmn, h, Nat.lt_asymm h]

theorem mul_comm (x y : Number f) : x * y = y * x := by
  change mul x y = mul y x
  cases x <;> cases y <;> simp [mul, isZero, negative, Bool.xor_comm, Nat.mul_comm]

def signed (negative : Bool) (n : Nat) : Int := if negative then -↑n else ↑n

/-- Order by value, in which both zeros are one. A NaN has no place in it. -/
def compare? : Number f → Number f → Option Ordering
  | .nan, _ | _, .nan => none
  | .infinite s, .infinite t => some (if s = t then .eq else if s then .lt else .gt)
  | .infinite s, .finite _ _ _ => some (if s then .lt else .gt)
  | .finite _ _ _, .infinite t => some (if t then .gt else .lt)
  | .finite s m _, .finite t n _ => some (compare (signed s m) (signed t n))

def compareInt? (x : Number f) (i : Int) : Option Ordering :=
  match x with
  | .nan => none
  | .infinite s => some (if s then .lt else .gt)
  | .finite s n _ => some (compare (signed s n) (i * 2 ^ f.scale))

def lt (x y : Number f) : Bool := x.compare? y = some .lt

def le (x y : Number f) : Bool := x.lt y || x.compare? y = some .eq

def same (x y : Number f) : Bool := x.compare? y = some .eq

def magnitude (x : Number f) : Number f := if x.negative then x.neg else x

/-- The remainder of a division toward minus infinity. It has the sign of the divisor and is
rounded where that takes a sum. -/
def mod : Number f → Number f → Number f
  | .nan, _ | _, .nan => .nan
  | .infinite _, .finite _ _ _ | .infinite _, .infinite _ => .nan
  | x@(.finite s m _), .infinite t =>
    if m = 0 then zero t else if s = t then x else .infinite t
  | .finite s m _, y@(.finite t n _) =>
    if n = 0 then .nan
    else if m % n = 0 then zero t
    else
      let r : Number f := ofRatio s (m % n) 1
      if s = t then r else r.add y

def root (n : Nat) : Nat :=
  if n = 0 then 0
  else
    let r := 2 * root (n / 4)
    if (r + 1) * (r + 1) ≤ n then r + 1 else r
termination_by n
decreasing_by omega

theorem root_spec (n : Nat) : root n * root n ≤ n ∧ n < (root n + 1) * (root n + 1) := by
  induction n using Nat.strongRecOn with
  | ind n ih =>
    rw [root]
    split
    · simp_all
    · have ⟨h1, h2⟩ := ih (n / 4) (by omega)
      generalize root (n / 4) = q at h1 h2 ⊢
      have h3 : 2 * q * (2 * q) = 4 * (q * q) := Nat.mul_mul_mul_comm 2 q 2 q
      have h4 : (2 * q + 1 + 1) * (2 * q + 1 + 1) = 4 * ((q + 1) * (q + 1)) := by
        rw [show 2 * q + 1 + 1 = 2 * (q + 1) by omega, Nat.mul_mul_mul_comm]
      simp only
      split
      · exact ⟨by assumption, by omega⟩
      · exact ⟨by omega, by omega⟩

/-- The nearest square root. The root of a positive magnitude in least units has far more digits
than the precision, so half a unit marks a remainder without moving the rounding. -/
def sqrt : Number f → Number f
  | .nan => .nan
  | .infinite s => if s then .nan else .infinite s
  | .finite s n h =>
    if n = 0 then .finite s n h
    else if s then .nan
    else
      let square := n * 2 ^ f.scale
      let r := root square
      ofRatio false (if r * r = square then 2 * r else 2 * r + 1) 2

def truncate? : Number f → Option Int
  | .finite s n _ =>
    let whole : Int := ↑(n / 2 ^ f.scale)
    some (if s then -whole else whole)
  | _ => none

def magnitudeBits (f : Format) (n : Nat) : Nat :=
  f.excess n * 2 ^ (f.precision - 1) + n / f.step n

def infinityBits (f : Format) : Nat := magnitudeBits f (2 ^ f.limit)

def toBits : Number f → Nat
  | .nan => infinityBits f + 2 ^ (f.precision - 2)
  | .infinite s => sign s + infinityBits f
  | .finite s n _ => sign s + magnitudeBits f n
where
  sign (s : Bool) : Nat := if s then infinityBits f + 2 ^ (f.precision - 1) else 0

end Number

abbrev Single := Number .single

abbrev Double := Number .double

end SolidScript.Binary
