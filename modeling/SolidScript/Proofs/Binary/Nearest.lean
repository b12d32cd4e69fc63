import SolidScript.Proofs.Binary.Rounding

/-!
# Rounding to the nearest

What rounding is for, apart from how it is done: no number of the format is nearer, and of two that
are as near the one with an even last digit is taken. Distances are of rational numbers of units.
-/

set_option autoImplicit false

attribute [local instance (10000)] instPowNat

namespace SolidScript.Binary

theorem half_spec (a : Nat) {b : Nat} (hb : 0 < b) :
    2 * half a b * b ≤ 2 * a + b ∧ 2 * a ≤ 2 * half a b * b + b ∧
      (2 * half a b * b = 2 * a + b ∨ 2 * a = 2 * half a b * b + b → half a b % 2 = 0) := by
  have hd := Nat.div_add_mod a b
  have hr := Nat.mod_lt a hb
  simp only [half]
  generalize a / b = q at *
  generalize a % b = r at *
  have e0 : 2 * q * b = 2 * (b * q) := by ring
  have e1 : 2 * (q + 1) * b = 2 * (b * q) + 2 * b := by ring
  have e2 : q % 2 = 1 → 2 * (q + q % 2) * b = 2 * (b * q) + 2 * b := fun h => by rw [h, e1]
  have e3 : q % 2 = 0 → 2 * (q + q % 2) * b = 2 * (b * q) := fun h => by rw [h, Nat.add_zero, e0]
  split_ifs <;> omega

namespace Format

variable {f : Format}

def Short (f : Format) (n : Nat) : Prop := n % f.step n = 0

/-- No number of the format is nearer than `n`, and the last digit of `n` is even if another is as
near. -/
structure Nearest (f : Format) (q : ℚ) (n : Nat) : Prop where
  short : f.Short n
  le : ∀ m, f.Short m → |q - n| ≤ |q - m|
  even : ∀ m, f.Short m → m ≠ n → |q - n| = |q - m| → n / f.step n % 2 = 0

theorem round_error (f : Format) (a : Nat) {b : Nat} (hb : 0 < b) :
    |(a : ℚ) / b - f.round a b| ≤ f.step (a / b) / 2 := by
  obtain ⟨hl, hu, -⟩ := half_spec a (Nat.mul_pos hb (f.step_pos (a / b)))
  have hb' : (0 : ℚ) < b := by exact_mod_cast hb
  simp only [round]
  generalize f.step (a / b) = s at *
  generalize half a (b * s) = m at *
  have hl' : 2 * (m : ℚ) * (b * s) ≤ 2 * a + b * s := by exact_mod_cast hl
  have hu' : 2 * (a : ℚ) ≤ 2 * m * (b * s) + b * s := by exact_mod_cast hu
  have e : (a : ℚ) / b - (m * s : ℕ) = (a - m * s * b) / b := by
    push_cast
    field_simp
  rw [e, abs_le, le_div_iff₀ hb', div_le_iff₀ hb']
  constructor <;> nlinarith

theorem le_abs_sub_of_dvd {q : ℚ} {s m n : Nat} (hm : s ∣ m) (hn : s ∣ n) (h : m ≠ n)
    (he : |q - n| ≤ s / 2) : (s : ℚ) / 2 ≤ |q - m| := by
  obtain ⟨i, rfl⟩ := hm
  obtain ⟨j, rfl⟩ := hn
  have hij : (i : ℤ) - j ≠ 0 := by
    intro h0
    exact h (by rw [show i = j by omega])
  have h1 : (1 : ℚ) ≤ |(((i : ℤ) - j : ℤ) : ℚ)| := by exact_mod_cast Int.one_le_abs hij
  have h2 : (s : ℚ) ≤ |((s * i : ℕ) : ℚ) - (s * j : ℕ)| := by
    have e : ((s * i : ℕ) : ℚ) - (s * j : ℕ) = s * (((i : ℤ) - j : ℤ) : ℚ) := by push_cast; ring
    rw [e, abs_mul, Nat.abs_cast]
    exact le_mul_of_one_le_right (Nat.cast_nonneg s) h1
  have h3 := abs_sub_le ((s * i : ℕ) : ℚ) q (s * j : ℕ)
  rw [abs_sub_comm _ q] at h3
  linarith

theorem step_dvd_of_log2_le {m n : Nat} (hm : f.Short m) (h : n.log2 ≤ m.log2) : f.step n ∣ m :=
  Nat.dvd_trans (Nat.pow_dvd_pow 2 (by unfold excess; omega)) (Nat.dvd_of_mod_eq_zero hm)

theorem lt_two_pow_of_not_dvd {m n : Nat} (hm : f.Short m) (h : ¬f.step n ∣ m) :
    m < 2 ^ n.log2 := by
  by_contra hlt
  apply h
  apply step_dvd_of_log2_le hm
  have hm0 : m ≠ 0 := by have := Nat.two_pow_pos n.log2; omega
  exact (Nat.le_log2 hm0).2 (by omega)

theorem dvd_round (f : Format) (a b : Nat) : f.step (a / b) ∣ f.round a b := Nat.dvd_mul_left _ _

theorem lt_abs_sub_of_not_dvd {a b m : Nat} (hb : 0 < b) (hm : f.Short m)
    (h : ¬f.step (a / b) ∣ m) : |(a : ℚ) / b - f.round a b| < |(a : ℚ) / b - m| := by
  have hlt := lt_two_pow_of_not_dvd hm h
  have hq0 : a / b ≠ 0 := by
    intro h0
    rw [h0] at hlt
    have : m = 0 := by simpa using hlt
    exact h (this ▸ Nat.dvd_zero _)
  have hq : (2 ^ (a / b).log2 : ℕ) ≤ (a : ℚ) / b := by
    have := Nat.mul_le_of_le_div _ _ _ (Nat.log2_self_le hq0)
    rw [le_div_iff₀ (by exact_mod_cast hb)]
    exact_mod_cast this
  have hmq : (m : ℚ) < (2 ^ (a / b).log2 : ℕ) := by exact_mod_cast hlt
  have he := f.round_error a hb
  have hle : |(a : ℚ) / b - f.round a b| ≤ |(a : ℚ) / b - (2 ^ (a / b).log2 : ℕ)| := by
    by_cases hne : 2 ^ (a / b).log2 = f.round a b
    · rw [hne]
    · exact he.trans (le_abs_sub_of_dvd (f.step_dvd_two_pow _) (f.dvd_round a b) hne he)
  rw [abs_of_nonneg (by linarith : (0 : ℚ) ≤ (a : ℚ) / b - (2 ^ (a / b).log2 : ℕ))] at hle
  rw [abs_of_pos (by linarith : (0 : ℚ) < (a : ℚ) / b - m)]
  linarith

theorem round_le (f : Format) (a b : Nat) : f.round a b ≤ 2 ^ ((a / b).log2 + 1) := by
  obtain ⟨k, hk⟩ : f.step (a / b) ∣ 2 ^ ((a / b).log2 + 1) :=
    Nat.dvd_trans (f.step_dvd_two_pow _) (Nat.pow_dvd_pow 2 (by omega))
  have hlt : a / b < 2 ^ ((a / b).log2 + 1) := Nat.lt_log2_self
  have hs := f.step_pos (a / b)
  have hq : half a (b * f.step (a / b)) ≤ k := by
    apply Nat.le_trans (half_le _ _)
    rw [← Nat.div_div_eq_div_mul]
    apply Nat.succ_le_of_lt
    rw [Nat.div_lt_iff_lt_mul hs, Nat.mul_comm, ← hk]
    exact hlt
  rw [round, hk, Nat.mul_comm]
  exact Nat.mul_le_mul_left _ hq

theorem even_of_two_pow (hp : 1 < f.precision) (k : Nat) :
    2 ^ (k + 1) / f.step (2 ^ (k + 1)) % 2 = 0 := by
  rw [step, excess, Nat.log2_two_pow, Nat.pow_div (by omega) (by decide)]
  obtain ⟨j, hj⟩ : ∃ j, k + 1 - (k + 1 + 1 - f.precision) = j + 1 :=
    ⟨k - (k + 1 + 1 - f.precision), by omega⟩
  rw [hj, Nat.pow_succ', Nat.mul_mod_right]

theorem even_of_le (hp : 1 < f.precision) {n h : Nat} (hn : h * f.step n ≤ 2 ^ (n.log2 + 1))
    (hh : h % 2 = 0) : h * f.step n / f.step (h * f.step n) % 2 = 0 := by
  rcases Nat.lt_or_eq_of_le hn with hlt | heq
  · obtain ⟨j, hj⟩ : f.step (h * f.step n) ∣ f.step n := by
      apply Nat.pow_dvd_pow 2
      have : (h * f.step n).log2 ≤ n.log2 := by
        by_cases h0 : h * f.step n = 0
        · simp [h0]
        · exact Nat.lt_succ_iff.1 ((Nat.log2_lt h0).2 hlt)
      unfold excess
      omega
    have hpos := f.step_pos (h * f.step n)
    have e : h * f.step n = f.step (h * f.step n) * (h * j) := by
      conv_lhs => rw [hj]
      ring
    rw [Nat.div_eq_of_eq_mul_right hpos e, Nat.mul_mod, hh, Nat.zero_mul, Nat.zero_mod]
  · rw [heq]
    exact even_of_two_pow hp _

theorem half_even_of_error {a b : Nat} (hb : 0 < b)
    (h : |(a : ℚ) / b - f.round a b| = f.step (a / b) / 2) :
    half a (b * f.step (a / b)) % 2 = 0 := by
  have hs := f.step_pos (a / b)
  apply (half_spec a (Nat.mul_pos hb hs)).2.2
  have hb' : (b : ℚ) ≠ 0 := by exact_mod_cast hb.ne'
  simp only [round] at h
  generalize f.step (a / b) = s at *
  generalize half a (b * s) = m at *
  push_cast at h
  rcases abs_eq (by positivity : (0 : ℚ) ≤ s / 2) |>.1 h with h | h
  · right
    have : 2 * (a : ℚ) = 2 * m * (b * s) + b * s := by
      field_simp at h
      linarith
    exact_mod_cast this
  · left
    have : 2 * (m : ℚ) * (b * s) = 2 * a + b * s := by
      field_simp at h
      linarith
    exact_mod_cast this

/-- Rounding finds the nearest number, and of two the one with an even last digit. -/
theorem nearest_round (hp : 1 < f.precision) (a : Nat) {b : Nat} (hb : 0 < b) :
    f.Nearest ((a : ℚ) / b) (f.round a b) := by
  have he := f.round_error a hb
  refine ⟨f.mod_step_round a b, fun m hm => ?_, fun m hm hne heq => ?_⟩
  · by_cases hd : f.step (a / b) ∣ m
    · by_cases hne : m = f.round a b
      · rw [hne]
      · exact he.trans (le_abs_sub_of_dvd hd (f.dvd_round a b) hne he)
    · exact (lt_abs_sub_of_not_dvd hb hm hd).le
  · have hd : f.step (a / b) ∣ m := by
      by_contra hd
      exact absurd heq (lt_abs_sub_of_not_dvd hb hm hd).ne
    have hge := le_abs_sub_of_dvd hd (f.dvd_round a b) hne he
    exact even_of_le hp (f.round_le a b) (half_even_of_error hb (by linarith))

end Format
end SolidScript.Binary
