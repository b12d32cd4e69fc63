import Mathlib
import SolidScript.Binary.Number

/-!
# Rounding of quotients

A quotient rounds to a number of a format when it is no further from it than half a step. The step
below a power of two is half the step above. What is said here are inequalities of products, so
that no quotient has to be written out.
-/

set_option autoImplicit false

attribute [local instance (10000)] instPowNat

namespace SolidScript.Binary

theorem half_mul_right (a b : Nat) {k : Nat} (hk : 0 < k) : half (a * k) (b * k) = half a b := by
  have h1 : 2 * (a % b * k) = 2 * (a % b) * k := by rw [Nat.mul_assoc]
  simp only [half, Nat.mul_div_mul_right _ _ hk, Nat.mul_mod_mul_right, h1,
    Nat.mul_lt_mul_right hk]

theorem half_eq {a b n : Nat} (hb : 0 < b) (hl : 2 * n * b ≤ 2 * a + b) (hu : 2 * a ≤ 2 * n * b + b)
    (ht : 2 * n * b = 2 * a + b ∨ 2 * a = 2 * n * b + b → n % 2 = 0) : half a b = n := by
  have hd := Nat.div_add_mod a b
  have hr := Nat.mod_lt a hb
  simp only [half]
  generalize a / b = q at *
  generalize a % b = r at *
  have hq : q ≤ n := by
    by_contra h
    have : (n + 1) * b ≤ q * b := Nat.mul_le_mul_right _ (by omega)
    nlinarith
  have hn : n ≤ q + 1 := by
    by_contra h
    have : (q + 2) * b ≤ n * b := Nat.mul_le_mul_right _ (by omega)
    nlinarith
  obtain rfl | rfl : n = q ∨ n = q + 1 := by omega
  · have e : 2 * n * b = 2 * (b * n) := by ring
    split_ifs <;> omega
  · have e : 2 * (q + 1) * b = 2 * (b * q) + 2 * b := by ring
    split_ifs <;> omega

theorem half_congr {a b c d : Nat} (hb : 0 < b) (hd : 0 < d) (h : a * d = c * b) :
    half a b = half c d := by
  rw [← half_mul_right a b hd, h, Nat.mul_comm b d, half_mul_right c d hb]

namespace Format

variable {f : Format}

theorem step_dvd {n : Nat} (h : f.Fits n) : f.step n ∣ n := Nat.dvd_of_mod_eq_zero h.1

theorem step_le (f : Format) (n : Nat) : f.step n ≤ 2 ^ n.log2 := by
  have hp := f.precision_pos
  exact Nat.pow_le_pow_right (by decide) (by unfold excess; omega)

theorem step_dvd_two_pow (f : Format) (n : Nat) : f.step n ∣ 2 ^ n.log2 := by
  have hp := f.precision_pos
  exact Nat.pow_dvd_pow 2 (by unfold excess; omega)

theorem add_step_le {n : Nat} (h : f.Fits n) : n + f.step n ≤ 2 ^ (n.log2 + 1) := by
  have hlt : n < 2 ^ (n.log2 + 1) := Nat.lt_log2_self
  obtain ⟨m, hm⟩ := step_dvd h
  obtain ⟨k, hk⟩ : f.step n ∣ 2 ^ (n.log2 + 1) :=
    Nat.dvd_trans (f.step_dvd_two_pow n) (Nat.pow_dvd_pow 2 (by omega))
  have hs := f.step_pos n
  rw [hk] at hlt ⊢
  have : m < k := by
    by_contra hmk
    have : f.step n * k ≤ f.step n * m := Nat.mul_le_mul_left _ (by omega)
    omega
  calc n + f.step n = f.step n * (m + 1) := by rw [Nat.mul_add, ← hm, Nat.mul_one]
    _ ≤ f.step n * k := Nat.mul_le_mul_left _ this

theorem log2_eq {n k : Nat} (h1 : 2 ^ k ≤ n) (h2 : n < 2 ^ (k + 1)) : n.log2 = k := by
  have hn : n ≠ 0 := by have := Nat.two_pow_pos k; omega
  exact (Nat.log2_eq_iff hn).2 ⟨h1, h2⟩

theorem step_eq {n k : Nat} (h : n.log2 = k) : f.step n = 2 ^ (k + 1 - f.precision) := by
  rw [step, excess, h]


/-- In the binade of `n`, a quotient at most half a step away rounds to `n`. -/
theorem round_eq_of_step {n a b : Nat} (h : f.Fits n) (hb : 0 < b)
    (hs : f.step (a / b) = f.step n) (hl : 2 * n * b ≤ 2 * a + f.step n * b)
    (hu : 2 * a ≤ 2 * n * b + f.step n * b)
    (ht : 2 * n * b = 2 * a + f.step n * b ∨ 2 * a = 2 * n * b + f.step n * b →
      n / f.step n % 2 = 0) : f.round a b = n := by
  obtain ⟨m, hm⟩ := step_dvd h
  have hp := f.step_pos n
  simp only [round, hs]
  generalize f.step n = s at *
  have hdiv : n / s = m := Nat.div_eq_of_eq_mul_right hp hm
  have e : 2 * m * (b * s) = 2 * n * b := by rw [hm]; ring
  have e' : b * s = s * b := Nat.mul_comm _ _
  have hh : half a (b * s) = m := by
    apply half_eq (Nat.mul_pos hb hp)
    · rw [e, e']; exact hl
    · rw [e, e']; exact hu
    · rw [e, e', ← hdiv]; exact ht
  rw [hh, Nat.mul_comm, ← hm]

theorem round_eq_of_le {n a b : Nat} (h : f.Fits n) (hn : 0 < n) (hb : 0 < b)
    (hl : n * b ≤ a) (hu : 2 * a ≤ 2 * n * b + f.step n * b)
    (ht : 2 * a = 2 * n * b + f.step n * b → n / f.step n % 2 = 0) : f.round a b = n := by
  have hs := f.step_pos n
  have hsb : 0 < f.step n * b := Nat.mul_pos hs hb
  have h1 : n ≤ a / b := (Nat.le_div_iff_mul_le hb).2 hl
  have h2 : a / b < 2 ^ (n.log2 + 1) := by
    have := Nat.mul_le_mul_right b (add_step_le h)
    rw [Nat.add_mul] at this
    rw [Nat.div_lt_iff_lt_mul hb]
    have : 2 * n * b = 2 * (n * b) := Nat.mul_assoc 2 n b
    omega
  have hlog := log2_eq (Nat.le_trans (Nat.log2_self_le (by omega)) h1) h2
  have e : 2 * n * b = 2 * (n * b) := Nat.mul_assoc 2 n b
  exact round_eq_of_step h hb (by rw [step_eq hlog, step_eq rfl]) (by omega) hu (by omega)

theorem round_eq_of_lt {n a b : Nat} (h : f.Fits n) (hb : 0 < b) (hu : a < n * b)
    (hg : f.step n = 1 ∨ n ≠ 2 ^ n.log2) (hl : 2 * n * b ≤ 2 * a + f.step n * b)
    (ht : 2 * n * b = 2 * a + f.step n * b → n / f.step n % 2 = 0) : f.round a b = n := by
  have hn : n ≠ 0 := by rintro rfl; simp at hu
  have hqn : a / b < n := (Nat.div_lt_iff_lt_mul hb).2 hu
  have e : 2 * n * b = 2 * (n * b) := Nat.mul_assoc 2 n b
  refine round_eq_of_step h hb ?_ hl (by omega) (by omega)
  rcases hg with h1 | hg
  · have hlog : (a / b).log2 ≤ n.log2 := by
      rw [Nat.log2_eq_log_two, Nat.log2_eq_log_two]
      exact Nat.log_mono_right hqn.le
    have he : f.excess n = 0 := by
      by_contra h0
      have := Nat.one_lt_two_pow h0
      unfold step at h1
      omega
    have he' : f.excess (a / b) = 0 := by unfold excess at he ⊢; omega
    rw [step, step, he, he']
  · obtain ⟨m, hm⟩ := step_dvd h
    obtain ⟨k, hk⟩ := f.step_dvd_two_pow n
    have hs := f.step_pos n
    have hge : 2 ^ n.log2 + f.step n ≤ n := by
      have h2 := Nat.log2_self_le hn
      have : k < m := by
        by_contra hkm
        have : f.step n * m ≤ f.step n * k := Nat.mul_le_mul_left _ (by omega)
        omega
      calc 2 ^ n.log2 + f.step n = f.step n * (k + 1) := by rw [hk, Nat.mul_add, Nat.mul_one]
        _ ≤ f.step n * m := Nat.mul_le_mul_left _ this
        _ = n := hm.symm
    have hq : 2 ^ n.log2 ≤ a / b := by
      rw [Nat.le_div_iff_mul_le hb]
      have := Nat.mul_le_mul_right b hge
      rw [Nat.add_mul] at this
      omega
    have hlog := log2_eq hq (Nat.lt_trans hqn Nat.lt_log2_self)
    rw [step_eq hlog, step_eq rfl]

theorem round_eq_of_power {n a b : Nat} (hb : 0 < b) (hu : a < n * b)
    (h1 : 1 < f.step n) (hn : n = 2 ^ n.log2) (hl : 4 * n * b ≤ 4 * a + f.step n * b) :
    f.round a b = n := by
  have hp := f.precision_pos
  generalize hk : n.log2 = k at hn
  obtain ⟨j, rfl⟩ : ∃ j, k = f.precision + j := by
    refine ⟨k - f.precision, ?_⟩
    by_contra h0
    have : k + 1 - f.precision = 0 := by omega
    rw [step_eq hk, this] at h1
    exact absurd h1 (by decide)
  have hs : f.step n = 2 * 2 ^ j := by
    rw [step_eq hk, show f.precision + j + 1 - f.precision = j + 1 by omega, Nat.pow_succ,
      Nat.mul_comm]
  have hhalf : n = 2 * 2 ^ (f.precision + j - 1) := by
    rw [hn, ← Nat.pow_succ']; congr 1; omega
  have hsn : f.step n ≤ n := Nat.le_trans (f.step_le n) (by rw [hk, ← hn])
  have hsb := Nat.mul_le_mul_right b hsn
  have e4 : 4 * n * b = 4 * (n * b) := Nat.mul_assoc 4 n b
  have hq1 : 2 ^ (f.precision + j - 1) ≤ a / b := by
    rw [Nat.le_div_iff_mul_le hb]
    have e : n * b = 2 * (2 ^ (f.precision + j - 1) * b) := by rw [hhalf, Nat.mul_assoc]
    omega
  have hq2 : a / b < 2 ^ (f.precision + j - 1 + 1) := by
    rw [Nat.div_lt_iff_lt_mul hb, Nat.pow_succ', ← hhalf]
    exact hu
  have hstep : f.step (a / b) = 2 ^ j := by
    rw [step_eq (log2_eq hq1 hq2)]; congr 1; omega
  have hm : n = 2 ^ f.precision * 2 ^ j := by rw [hn, Nat.pow_add]
  have hh : half a (b * 2 ^ j) = 2 ^ f.precision := by
    have e : 2 * 2 ^ f.precision * (b * 2 ^ j) = 2 * (n * b) := by rw [hm]; ring
    have e' : f.step n * b = 2 * (b * 2 ^ j) := by rw [hs]; ring
    apply half_eq (Nat.mul_pos hb (Nat.two_pow_pos j))
    · omega
    · omega
    · intro _
      rw [show f.precision = f.precision - 1 + 1 by omega, Nat.pow_succ', Nat.mul_mod_right]
  simp only [round, hstep, hh]
  exact hm.symm
theorem round_congr {a b c d : Nat} (hb : 0 < b) (hd : 0 < d) (h : a * d = c * b) :
    f.round a b = f.round c d := by
  have hq : a / b = c / d := by
    rw [← Nat.mul_div_mul_right a b hd, h, Nat.mul_comm b d, Nat.mul_div_mul_right c d hb]
  simp only [Format.round, hq]
  have hs := f.step_pos (c / d)
  rw [half_congr (Nat.mul_pos hb hs) (Nat.mul_pos hd hs)]
  rw [← Nat.mul_assoc, h, Nat.mul_assoc]

theorem round_eq_zero {a b : Nat} (h : 2 * a < b) :
    f.round a b = 0 := by
  have hq : a / b = 0 := Nat.div_eq_of_lt (by omega)
  have hs : f.step 0 = 1 := by
    have := f.precision_pos
    rw [Format.step, Format.excess, Nat.log2_zero, Nat.zero_add, Nat.sub_eq_zero_of_le this,
      Nat.pow_zero]
  simp only [Format.round, hq, hs, Nat.mul_one, half, Nat.mod_eq_of_lt (by omega : a < b), h,
    if_true]

theorem two_pow_log2_le_round (f : Format) {a : Nat} (h : a ≠ 0) :
    2 ^ a.log2 ≤ f.round a 1 := by
  obtain ⟨k, hk⟩ := f.step_dvd_two_pow a
  have hs := f.step_pos a
  have hle : k ≤ a / f.step a := by
    rw [Nat.le_div_iff_mul_le hs, Nat.mul_comm, ← hk]
    exact Nat.log2_self_le h
  simp only [Format.round, Nat.div_one, Nat.one_mul]
  rw [hk, Nat.mul_comm]
  exact Nat.mul_le_mul_right _ (Nat.le_trans hle (le_half _ _))

end Format

theorem Number.ofRatio_congr {f : Format} (s : Bool) {a b c d : Nat} (hb : 0 < b) (hd : 0 < d)
    (h : a * d = c * b) : (Number.ofRatio s a b : Number f) = .ofRatio s c d := by
  simp only [Number.ofRatio, Format.round_congr hb hd h]

end SolidScript.Binary
