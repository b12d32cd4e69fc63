import SolidScript.Decimal.Basic

/-!
# Shortest decimals

The reals that round to a binary number form an interval between the midpoints to its neighbours;
the midpoints belong to it when the last binary digit is even. A least binary unit is
`5 ^ scale` decimal units of `10 ^ -scale`, so the interval and every candidate are natural numbers,
here times four to keep the midpoints whole. The search goes from the coarsest grid of powers of
ten to the finest and stops at the first with a point in the interval. Of two such points it takes
the nearer, and of two equally near ones the even.
-/

set_option autoImplicit false

attribute [local instance (10000)] instPowNat

namespace SolidScript

namespace Decimal
open Binary

structure Interval where
  lower : Nat
  value : Nat
  upper : Nat
  closed : Bool

namespace Interval

def Mem (i : Interval) (x : Nat) : Prop :=
  (i.lower < x ∨ i.closed = true ∧ i.lower = x) ∧ (x < i.upper ∨ i.closed = true ∧ x = i.upper)

instance (i : Interval) (x : Nat) : Decidable (i.Mem x) := by
  unfold Mem; infer_instance

theorem Mem.convex {i : Interval} {x y z : Nat} (hx : i.Mem x) (hz : i.Mem z)
    (hxy : x ≤ y) (hyz : y ≤ z) : i.Mem y := by
  have h1 := hx.1
  have h2 := hz.2
  constructor
  · rcases h1 with h | ⟨hc, h⟩
    · omega
    · rcases Nat.eq_or_lt_of_le hxy with rfl | h'
      · exact .inr ⟨hc, h⟩
      · omega
  · rcases h2 with h | ⟨hc, h⟩
    · omega
    · rcases Nat.eq_or_lt_of_le hyz with rfl | h'
      · exact .inr ⟨hc, h⟩
      · omega

def candidate? (i : Interval) (grid : Nat) : Option Nat :=
  let below := i.value / grid
  let above := below + 1
  if i.Mem (below * grid) then
    if i.Mem (above * grid) then
      let down := i.value - below * grid
      let up := above * grid - i.value
      if down < up then some below
      else if up < down then some above
      else some (below + below % 2)
    else some below
  else if i.Mem (above * grid) then some above
  else none

theorem candidate?_mem {i : Interval} {grid d : Nat} (h : i.candidate? grid = some d) :
    i.Mem (d * grid) := by
  simp only [candidate?] at h
  split at h
  · split at h
    · split at h
      · simp_all
      · split at h
        · simp_all
        · rcases Nat.mod_two_eq_zero_or_one (i.value / grid) with h0 | h0 <;> simp_all
    · simp_all
  · split at h <;> simp_all

/-- Digits and power of ten of the first grid that reaches the interval, from `10 ^ j` down. -/
def search (i : Interval) : Nat → Nat × Nat
  | 0 => (i.value / 4, 0)
  | j + 1 =>
    match i.candidate? (4 * 10 ^ (j + 1)) with
    | some d => (d, j + 1)
    | none => i.search j

theorem search_mem (i : Interval) (hv : i.Mem i.value) (h4 : i.value % 4 = 0) (j : Nat) :
    i.Mem ((i.search j).1 * (4 * 10 ^ (i.search j).2)) := by
  induction j with
  | zero =>
    have : i.value / 4 * (4 * 10 ^ 0) = i.value := by omega
    simpa only [search, this]
  | succ j ih =>
    simp only [search]
    split
    · exact candidate?_mem (by assumption)
    · exact ih

end Interval

/-- Four times the interval of `n` units, in decimal units. Below a power of two the neighbours
are twice as close. -/
def interval (f : Format) (n : Nat) : Interval :=
  let ten := 5 ^ f.scale
  let s := f.step n
  let below := if 1 < s ∧ n = 2 ^ n.log2 then s else 2 * s
  ⟨(4 * n - below) * ten, 4 * n * ten, (4 * n + 2 * s) * ten, n / s % 2 == 0⟩

def shortest (f : Format) (negative : Bool) (n : Nat) : Decimal :=
  let top := (Nat.toDigits 10 (n * 5 ^ f.scale)).length - 1
  let (d, j) := (interval f n).search top
  trim ⟨negative, d, j - f.scale⟩

end Decimal

def Binary.Number.shortest? {f : Binary.Format} : Binary.Number f → Option Decimal
  | .finite s n _ => some (if n = 0 then ⟨s, 0, 0⟩ else Decimal.shortest f s n)
  | _ => none

end SolidScript
