import SolidScript.Proofs.Binary.Nearest

/-!
# Neighbours

The numbers of a format next to a given one. What has it as the nearest lies between the midpoints
to its neighbours, or on one of them if its last digit is even.
-/

set_option autoImplicit false

attribute [local instance (10000)] instPowNat

namespace SolidScript.Binary.Format

variable {f : Format} {m n : Nat}

theorem log2_mono (h : m ≤ n) : m.log2 ≤ n.log2 := by
  rw [Nat.log2_eq_log_two, Nat.log2_eq_log_two]
  exact Nat.log_mono_right h

theorem short_of_dvd (h : f.step n ∣ m) (hlog : m.log2 ≤ n.log2) : f.Short m :=
  Nat.mod_eq_zero_of_dvd (Nat.dvd_trans (Nat.pow_dvd_pow 2 (by unfold excess; omega)) h)

theorem short_add_step (h : f.Fits n) (hn : 0 < n) : f.Short (n + f.step n) := by
  have hd : f.step n ∣ n + f.step n := Nat.dvd_add (step_dvd h) (Nat.dvd_refl _)
  have hlow : 2 ^ n.log2 ≤ n + f.step n := Nat.le_add_right_of_le (Nat.log2_self_le (by omega))
  rcases Nat.lt_or_eq_of_le (add_step_le h) with hlt | heq
  · exact short_of_dvd hd (log2_eq hlow hlt).le
  · have hpow := f.step_dvd_two_pow (2 ^ (n.log2 + 1))
    rw [Nat.log2_two_pow] at hpow
    rw [heq]
    exact Nat.mod_eq_zero_of_dvd hpow

def twiceBelow (f : Format) (n : Nat) : Nat :=
  if 1 < f.step n ∧ n = 2 ^ n.log2 then f.step n else 2 * f.step n

theorem twiceBelow_pos (f : Format) (n : Nat) : 0 < f.twiceBelow n := by
  have := f.step_pos n
  unfold twiceBelow
  split <;> omega

theorem twiceBelow_le (f : Format) (hn : 0 < n) : f.twiceBelow n ≤ 4 * n := by
  have hs : f.step n ≤ n := (f.step_le n).trans (Nat.log2_self_le (by omega))
  unfold twiceBelow
  split <;> omega

theorem two_mul_step (h1 : 1 < f.step n) :
    0 < n.log2 ∧ 2 * f.step (2 ^ (n.log2 - 1)) = f.step n := by
  have he : f.excess n ≠ 0 := by
    intro h0
    rw [step, h0] at h1
    exact absurd h1 (by decide)
  have hp := f.precision_pos
  unfold excess at he
  refine ⟨by omega, ?_⟩
  rw [step, step, excess, Nat.log2_two_pow, ← Nat.pow_succ', excess]
  congr 1
  omega

theorem exists_short_below (h : f.Fits n) (hn : 0 < n) :
    ∃ m, f.Short m ∧ 2 * m + f.twiceBelow n = 2 * n := by
  have hsn : f.step n ≤ n := (f.step_le n).trans (Nat.log2_self_le (by omega))
  by_cases hpow : 1 < f.step n ∧ n = 2 ^ n.log2
  · obtain ⟨hlog, hhalf⟩ := two_mul_step hpow.1
    have hd : f.step (2 ^ (n.log2 - 1)) ∣ n := Nat.dvd_trans ⟨2, by omega⟩ (step_dvd h)
    have hpos := f.step_pos (2 ^ (n.log2 - 1))
    refine ⟨n - f.step (2 ^ (n.log2 - 1)), ?_, ?_⟩
    · apply short_of_dvd (Nat.dvd_sub hd (Nat.dvd_refl _))
      rw [Nat.log2_two_pow]
      by_cases h0 : n - f.step (2 ^ (n.log2 - 1)) = 0
      · simp [h0]
      · have hlt : n - f.step (2 ^ (n.log2 - 1)) < 2 ^ n.log2 := by omega
        have := (Nat.log2_lt h0).2 hlt
        omega
    · rw [twiceBelow, if_pos hpow]
      omega
  · refine ⟨n - f.step n, ?_, ?_⟩
    · exact short_of_dvd (Nat.dvd_sub (step_dvd h) (Nat.dvd_refl _)) (log2_mono (by omega))
    · rw [twiceBelow, if_neg hpow]
      omega

/-- Between the midpoints, and on one of them if the last digit is even, a quotient rounds to the
number. -/
theorem round_eq_of_bounds {a b : Nat} (h : f.Fits n) (hn : 0 < n) (hb : 0 < b)
    (hl : 4 * n * b ≤ 4 * a + f.twiceBelow n * b) (hu : 4 * a ≤ 4 * n * b + 2 * f.step n * b)
    (ht : 4 * n * b = 4 * a + f.twiceBelow n * b ∨ 4 * a = 4 * n * b + 2 * f.step n * b →
      n / f.step n % 2 = 0) : f.round a b = n := by
  have hs := f.step_pos n
  have e2 : 2 * n * b = 2 * (n * b) := Nat.mul_assoc 2 n b
  have e4 : 4 * n * b = 4 * (n * b) := Nat.mul_assoc 4 n b
  have es : 2 * f.step n * b = 2 * (f.step n * b) := Nat.mul_assoc 2 _ b
  by_cases hna : n * b ≤ a
  · exact round_eq_of_le h hn hb hna (by omega) fun he => ht (.inr (by omega))
  · by_cases hpow : 1 < f.step n ∧ n = 2 ^ n.log2
    · rw [twiceBelow, if_pos hpow] at hl
      exact round_eq_of_power hb (by omega) hpow.1 hpow.2 hl
    · rw [twiceBelow, if_neg hpow] at hl ht
      have hg : f.step n = 1 ∨ n ≠ 2 ^ n.log2 := by omega
      exact round_eq_of_lt h hb (by omega) hg (by omega) fun he => ht (.inl (by omega))

/-! Midpoints -/

theorem midpoint_le {q a b : ℚ} (hab : a < b) (h : |q - b| ≤ |q - a|) : (a + b) / 2 ≤ q := by
  by_contra hlt
  rw [not_le] at hlt
  have hb : |q - b| = b - q := by rw [abs_sub_comm, abs_of_pos (by linarith)]
  have ha : |q - a| < b - q := abs_lt.2 ⟨by linarith, by linarith⟩
  linarith

theorem le_midpoint {q a b : ℚ} (hab : a < b) (h : |q - a| ≤ |q - b|) : q ≤ (a + b) / 2 := by
  by_contra hlt
  rw [not_le] at hlt
  have ha : |q - a| = q - a := abs_of_pos (by linarith)
  have hb : |q - b| < q - a := abs_lt.2 ⟨by linarith, by linarith⟩
  linarith

theorem abs_sub_midpoint (a b : ℚ) : |(a + b) / 2 - b| = |(a + b) / 2 - a| := by
  rw [show (a + b) / 2 - b = -((a + b) / 2 - a) by ring, abs_neg]

/-- Whatever is nearest to a number lies between the midpoints, where a tie goes to the even. -/
theorem Nearest.bounds {q : ℚ} (hq : f.Nearest q n) (h : f.Fits n) (hn : 0 < n) :
    4 * (n : ℚ) - f.twiceBelow n ≤ 4 * q ∧ 4 * q ≤ 4 * n + 2 * f.step n ∧
      (4 * (n : ℚ) - f.twiceBelow n = 4 * q ∨ 4 * q = 4 * n + 2 * f.step n →
        n / f.step n % 2 = 0) := by
  obtain ⟨m, hm, hmn⟩ := exists_short_below h hn
  have hbelow := f.twiceBelow_pos n
  have hstep := f.step_pos n
  have hup := short_add_step h hn
  have hmq : 2 * (m : ℚ) + f.twiceBelow n = 2 * n := by exact_mod_cast hmn
  have hlt : (m : ℚ) < n := by
    have : m < n := by omega
    exact_mod_cast this
  have hlt' : (n : ℚ) < (n + f.step n : ℕ) := by
    have : n < n + f.step n := by omega
    exact_mod_cast this
  have hl := midpoint_le hlt (hq.le m hm)
  have hu := le_midpoint hlt' (hq.le _ hup)
  have hcast : ((n + f.step n : ℕ) : ℚ) = n + f.step n := by push_cast; rfl
  refine ⟨by linarith, by linarith, ?_⟩
  rintro (htie | htie)
  · have hmid : q = ((m : ℚ) + n) / 2 := by linarith
    exact hq.even m hm (by omega) (by rw [hmid, abs_sub_midpoint])
  · have hmid : q = ((n : ℚ) + (n + f.step n : ℕ)) / 2 := by linarith
    exact hq.even _ hup (by omega) (by rw [hmid, ← abs_sub_midpoint])

end SolidScript.Binary.Format
