/-!
# Binary formats

A finite number of a binary format is a whole number of the format's least units, so every
question of rounding is one about natural numbers. `Format.round` takes a quotient to the nearest
number of the format, a tie to the neighbour whose last digit is even; `fits_round` says that the
result is one.
-/

set_option autoImplicit false

-- Powers are the core library's in every module, whatever else is in scope there.
attribute [local instance (10000)] instPowNat

namespace SolidScript.Binary

/-- Numbers of `precision` binary digits, in units of `2 ^ -scale`, below `2 ^ limit` units. -/
structure Format where
  precision : Nat
  scale : Nat
  limit : Nat
  precision_pos : 0 < precision
deriving DecidableEq

def half (numerator denominator : Nat) : Nat :=
  let q := numerator / denominator
  let r := numerator % denominator
  if 2 * r < denominator then q
  else if denominator < 2 * r then q + 1
  else q + q % 2

theorem half_le (a b : Nat) : half a b ≤ a / b + 1 := by
  simp only [half]
  split
  · omega
  · split <;> omega

theorem le_half (a b : Nat) : a / b ≤ half a b := by
  simp only [half]
  split
  · omega
  · split <;> omega

@[simp] theorem half_one (a : Nat) : half a 1 = a := by
  simp [half, Nat.mod_one]

namespace Format

def single : Format := ⟨24, 149, 277, by decide⟩

def double : Format := ⟨53, 1074, 2098, by decide⟩

def excess (f : Format) (n : Nat) : Nat := n.log2 + 1 - f.precision

def step (f : Format) (n : Nat) : Nat := 2 ^ f.excess n

def Fits (f : Format) (n : Nat) : Prop := n % f.step n = 0 ∧ n < 2 ^ f.limit

instance (f : Format) (n : Nat) : Decidable (f.Fits n) := by
  unfold Fits; infer_instance

/-- The multiple of the local step nearest to a quotient, without an upper bound. -/
def round (f : Format) (numerator denominator : Nat) : Nat :=
  let s := f.step (numerator / denominator)
  half numerator (denominator * s) * s

theorem step_pos (f : Format) (n : Nat) : 0 < f.step n := Nat.two_pow_pos _

theorem lt_two_pow_excess (f : Format) (n : Nat) : n < 2 ^ (f.precision + f.excess n) :=
  Nat.lt_of_lt_of_le Nat.lt_log2_self
    (Nat.pow_le_pow_right (by decide) (by unfold excess; omega))

theorem mod_step_of_digits (f : Format) {q k : Nat} (hq : q ≤ 2 ^ f.precision) :
    q * 2 ^ k % f.step (q * 2 ^ k) = 0 := by
  apply Nat.mod_eq_zero_of_dvd
  rcases Nat.eq_or_lt_of_le hq with rfl | hq
  · rw [← Nat.pow_add, step, excess, Nat.log2_two_pow]
    have := f.precision_pos
    exact Nat.pow_dvd_pow 2 (by omega)
  · rcases Nat.eq_zero_or_pos q with rfl | hp
    · simp
    · have hn : q * 2 ^ k ≠ 0 := Nat.ne_of_gt (Nat.mul_pos hp (Nat.two_pow_pos k))
      have hlt : q * 2 ^ k < 2 ^ (f.precision + k) := by
        rw [Nat.pow_add]
        exact Nat.mul_lt_mul_of_pos_right hq (Nat.two_pow_pos k)
      have := (Nat.log2_lt hn).2 hlt
      exact Nat.dvd_trans (Nat.pow_dvd_pow 2 (by unfold excess; omega)) (Nat.dvd_mul_left _ _)

theorem mod_step_round (f : Format) (a b : Nat) : f.round a b % f.step (f.round a b) = 0 := by
  apply mod_step_of_digits
  refine Nat.le_trans (half_le _ _) ?_
  rw [← Nat.div_div_eq_div_mul]
  apply Nat.succ_le_of_lt
  rw [Nat.div_lt_iff_lt_mul (f.step_pos _), step, ← Nat.pow_add]
  exact f.lt_two_pow_excess _

theorem fits_round (f : Format) {a b : Nat} (h : f.round a b < 2 ^ f.limit) :
    f.Fits (f.round a b) :=
  ⟨f.mod_step_round a b, h⟩

theorem fits_zero (f : Format) : f.Fits 0 := ⟨Nat.zero_mod _, Nat.two_pow_pos _⟩

theorem round_of_fits (f : Format) {n : Nat} (h : f.Fits n) : f.round n 1 = n := by
  have hd : f.step n ∣ n := Nat.dvd_of_mod_eq_zero h.1
  simp only [round, Nat.div_one, Nat.one_mul, half, h.1, Nat.mul_zero, f.step_pos, if_true]
  exact Nat.div_mul_cancel hd

end Format

end SolidScript.Binary
