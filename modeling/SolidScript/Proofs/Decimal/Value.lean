import SolidScript.Decimal.Basic
import SolidScript.Proofs.Binary.Rounding

/-!
# Values of decimals

Rounding depends on the sign and the value of a decimal, however it is written. The short cuts for
very large and very small exponents agree with the exact quotient.
-/

set_option autoImplicit false

attribute [local instance (10000)] instPowNat

namespace SolidScript.Decimal
open Binary

variable {f : Format}

def magnitude (d : Decimal) : ℚ := d.digits * 10 ^ d.exponent

theorem exact_eq_ofRatio (d : Decimal) {a b : Nat} (hb : 0 < b)
    (h : (a : ℚ) / b = d.magnitude * 2 ^ f.scale) : d.exact f = .ofRatio d.negative a b := by
  obtain ⟨s, n, e⟩ := d
  have hb' : (b : ℚ) ≠ 0 := by exact_mod_cast hb.ne'
  simp only [magnitude] at h
  rw [div_eq_iff hb'] at h
  cases e with
  | ofNat e =>
    apply Number.ofRatio_congr s (by decide) hb
    have : (n * 10 ^ e * 2 ^ f.scale * b : ℚ) = a * 1 := by
      rw [h, Int.ofNat_eq_natCast, zpow_natCast]
      ring
    exact_mod_cast this
  | negSucc e =>
    apply Number.ofRatio_congr s (Nat.pow_pos (by decide)) hb
    have : (n * 2 ^ f.scale * b : ℚ) = a * 10 ^ (e + 1) := by
      rw [h, zpow_negSucc]
      field_simp
    exact_mod_cast this

theorem exact_congr {d e : Decimal} (hs : d.negative = e.negative)
    (h : d.magnitude = e.magnitude) : d.exact f = e.exact f := by
  obtain ⟨s, n, p⟩ := d
  cases p with
  | ofNat p =>
    rw [exact_eq_ofRatio (f := f) e (a := n * 10 ^ p * 2 ^ f.scale) (b := 1) (by decide), ← hs]
    · rfl
    · rw [← h]
      simp [magnitude]
  | negSucc p =>
    rw [exact_eq_ofRatio (f := f) e (a := n * 2 ^ f.scale) (b := 10 ^ (p + 1))
      (Nat.pow_pos (by decide)), ← hs]
    · rfl
    · rw [← h]
      simp only [magnitude, zpow_negSucc]
      push_cast
      field_simp

theorem magnitude_trim (d : Decimal) : d.trim.magnitude = d.magnitude := by
  fun_induction trim d with
  | case1 d h ih =>
    rw [ih]
    have hd : (d.digits : ℚ) = (d.digits / 10 : ℕ) * 10 := by
      exact_mod_cast (Nat.div_mul_cancel (Nat.dvd_of_mod_eq_zero h.2)).symm
    simp only [magnitude]
    rw [zpow_add_one₀ (by norm_num), hd]
    ring
  | case2 d h => rfl

theorem exact_of_digits_zero {d : Decimal} (h : d.digits = 0) : d.exact f = .zero d.negative := by
  have h0 : ∀ b : Nat, 0 < b → f.round 0 b = 0 := fun b hb => Format.round_eq_zero (by omega)
  have hp := Nat.two_pow_pos f.limit
  obtain ⟨s, n, e⟩ := d
  subst h
  cases e with
  | ofNat e => simp [exact, Number.ofRatio, Number.zero, h0, hp]
  | negSucc e =>
    have := h0 (10 ^ (e + 1)) (Nat.pow_pos (by decide))
    simp [exact, Number.ofRatio, Number.zero, this, hp]

theorem exact_of_limit_le {d : Decimal} (hd : d.digits ≠ 0) (h : (f.limit : Int) ≤ d.exponent) :
    d.exact f = .infinite d.negative := by
  obtain ⟨s, n, e⟩ := d
  obtain ⟨e, rfl⟩ := Int.eq_ofNat_of_zero_le (Int.le_trans (Int.natCast_nonneg _) h)
  have hle : f.limit ≤ e := Int.ofNat_le.1 h
  have hn : 2 ^ f.limit ≤ n * 10 ^ e * 2 ^ f.scale := by
    calc 2 ^ f.limit ≤ 10 ^ f.limit := Nat.pow_le_pow_left (by decide) _
      _ ≤ 10 ^ e := Nat.pow_le_pow_right (by decide) hle
      _ ≤ n * 10 ^ e := Nat.le_mul_of_pos_left _ (Nat.pos_of_ne_zero hd)
      _ ≤ n * 10 ^ e * 2 ^ f.scale := Nat.le_mul_of_pos_right _ (Nat.two_pow_pos _)
  have h0 : n * 10 ^ e * 2 ^ f.scale ≠ 0 := by have := Nat.two_pow_pos f.limit; omega
  have hr := f.two_pow_log2_le_round h0
  have hlog := (Nat.le_log2 h0).2 hn
  have := Nat.pow_le_pow_right (by decide : 0 < 2) hlog
  simp only [exact, Number.ofRatio]
  rw [dif_neg (by omega)]

theorem exact_of_small {d : Decimal} (h : d.length + d.exponent + f.scale < 0) :
    d.exact f = .zero d.negative := by
  obtain ⟨s, n, e⟩ := d
  cases e with
  | ofNat e => simp only [Int.ofNat_eq_natCast] at h; omega
  | negSucc e =>
    have hlen : n < 10 ^ length ⟨s, n, .negSucc e⟩ :=
      (Nat.length_toDigits_le_iff (by decide) Nat.length_toDigits_pos).1 (Nat.le_refl _)
    generalize length ⟨s, n, .negSucc e⟩ = k at h hlen
    simp only [Int.negSucc_eq] at h
    have hr : f.round (n * 2 ^ f.scale) (10 ^ (e + 1)) = 0 := by
      apply Format.round_eq_zero
      calc 2 * (n * 2 ^ f.scale) ≤ 2 * (10 ^ k * 10 ^ f.scale) := by
            gcongr
            · decide
        _ = 2 * 10 ^ (k + f.scale) := by rw [Nat.pow_add]
        _ ≤ 2 * 10 ^ e := by gcongr <;> omega
        _ < 10 ^ (e + 1) := by have := Nat.pow_pos (n := e) (by decide : 0 < 10); omega
    have hp := Nat.two_pow_pos f.limit
    simp [exact, Number.ofRatio, Number.zero, hr, hp]

/-- The short cuts of rounding agree with the exact quotient. -/
theorem round_eq_exact (f : Format) (d : Decimal) : d.round f = d.exact f := by
  unfold round
  split_ifs with h1 h2 h3
  · exact (exact_of_digits_zero h1).symm
  · exact (exact_of_limit_le h1 h2).symm
  · exact (exact_of_small h3).symm
  · rfl

end SolidScript.Decimal
