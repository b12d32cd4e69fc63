import SolidScript.Proofs.Binary.Neighbours

/-!
# Rounding and order

Rounding keeps the order of quotients and moves none by more than half a unit in its last digit. So
what lies on one side of a number of the format stays on that side, and what is nearer to a value
than any midpoint rounds as the value does.
-/

set_option autoImplicit false

attribute [local instance (10000)] instPowNat

namespace SolidScript.Binary

namespace Format

variable {f : Format} {a b c d k n : Nat}

theorem Nearest.le_of_lt {p q : ℚ} {m : Nat} (hm : f.Nearest p m) (hn : f.Nearest q n)
    (h : p < q) : m ≤ n := by
  by_contra hlt
  have hnm : (n : ℚ) < m := by exact_mod_cast Nat.lt_of_not_le hlt
  have hp := midpoint_le hnm (hm.le n hn.short)
  have hq := le_midpoint hnm (hn.le m hm.short)
  linarith

theorem round_mono (hp : 1 < f.precision) (hb : 0 < b) (hd : 0 < d) (h : a * d ≤ c * b) :
    f.round a b ≤ f.round c d := by
  rcases Nat.lt_or_eq_of_le h with hlt | heq
  · apply (nearest_round hp a hb).le_of_lt (nearest_round hp c hd)
    rw [div_lt_div_iff₀ (by exact_mod_cast hb) (by exact_mod_cast hd)]
    exact_mod_cast hlt
  · exact (round_congr hb hd heq).le

theorem round_le_of_fits (hp : 1 < f.precision) (hn : f.Fits n) (hb : 0 < b) (h : a ≤ n * b) :
    f.round a b ≤ n := by
  have hle : f.round a b ≤ f.round n 1 := round_mono hp hb (by decide) (by omega)
  rwa [f.round_of_fits hn] at hle

theorem le_round_of_fits (hp : 1 < f.precision) (hn : f.Fits n) (hb : 0 < b) (h : n * b ≤ a) :
    n ≤ f.round a b := by
  have hle : f.round n 1 ≤ f.round a b := round_mono hp (by decide) hb (by omega)
  rwa [f.round_of_fits hn] at hle

theorem round_zero (f : Format) (hb : 0 < b) : f.round 0 b = 0 := round_eq_zero (by omega)

/-! How far rounding goes -/

theorem round_error_le (f : Format) (hb : 0 < b) (h : a < 2 ^ (f.precision + k) * b) :
    |(a : ℚ) / b - f.round a b| ≤ 2 ^ k / 2 := by
  have hs : f.step (a / b) ≤ 2 ^ k := by
    have hlt : a / b < 2 ^ (f.precision + k) := (Nat.div_lt_iff_lt_mul hb).2 h
    apply Nat.pow_le_pow_right (by decide)
    unfold excess
    by_cases h0 : a / b = 0
    · rw [h0, Nat.log2_zero]
      have := f.precision_pos
      omega
    · have := (Nat.log2_lt h0).2 hlt
      omega
  have hs' : (f.step (a / b) : ℚ) ≤ 2 ^ k := by exact_mod_cast hs
  have he := f.round_error a hb
  linarith

theorem round_error_mul_le (f : Format) (hb : 0 < b) (h : 2 ^ (f.precision - 1) * b ≤ a) :
    |(a : ℚ) / b - f.round a b| * 2 ^ f.precision ≤ a / b := by
  have hp := f.precision_pos
  have hq : 2 ^ (f.precision - 1) ≤ a / b := (Nat.le_div_iff_mul_le hb).2 h
  have h0 : a / b ≠ 0 := by have := Nat.two_pow_pos (f.precision - 1); omega
  have hlog := (Nat.le_log2 h0).2 hq
  have hs : f.step (a / b) * 2 ^ f.precision ≤ 2 * (a / b) := by
    have := Nat.log2_self_le h0
    calc f.step (a / b) * 2 ^ f.precision = 2 ^ ((a / b).log2 + 1) := by
          rw [step, excess, ← Nat.pow_add]
          congr 1
          omega
      _ ≤ 2 * (a / b) := by rw [Nat.pow_succ']; omega
  have hs' : (f.step (a / b) : ℚ) * 2 ^ f.precision ≤ 2 * (a / b : ℕ) := by exact_mod_cast hs
  have hdiv : ((a / b : ℕ) : ℚ) ≤ a / b := Nat.cast_div_le
  have he := f.round_error a hb
  have hpow : (0 : ℚ) < 2 ^ f.precision := by positivity
  nlinarith

theorem round_mul_le (f : Format) (hb : 0 < b) (h : 2 ^ (f.precision - 1) * b ≤ a) :
    f.round a b * b * 2 ^ f.precision ≤ a * (2 ^ f.precision + 1) := by
  have he := f.round_error_mul_le hb h
  have hb' : (0 : ℚ) < b := by exact_mod_cast hb
  have hpow : (0 : ℚ) < 2 ^ f.precision := by positivity
  have habs := neg_abs_le ((a : ℚ) / b - f.round a b)
  have hle : (f.round a b : ℚ) * 2 ^ f.precision ≤ a / b * (2 ^ f.precision + 1) := by nlinarith
  have hmul := mul_le_mul_of_nonneg_right hle hb'.le
  have ha : (a : ℚ) / b * (2 ^ f.precision + 1) * b = a * (2 ^ f.precision + 1) := by field_simp
  rw [ha, mul_right_comm] at hmul
  exact_mod_cast hmul

/-! Quotients that round alike -/

/-- A quotient that is nearer to a value than either midpoint of its nearest number rounds to that
number. -/
theorem Nearest.round_eq {q : ℚ} (hq : f.Nearest q n) (h : f.Fits n) (hn : 0 < n) (hb : 0 < b)
    (hl : 4 * |q - a / b| < |4 * q - (4 * n - f.twiceBelow n)|)
    (hu : 4 * |q - a / b| < |4 * q - (4 * n + 2 * f.step n)|) : f.round a b = n := by
  obtain ⟨hlow, hhigh, -⟩ := hq.bounds h hn
  rw [abs_of_nonneg (sub_nonneg.2 hlow)] at hl
  rw [abs_of_nonpos (sub_nonpos.2 hhigh)] at hu
  have hb' : (0 : ℚ) < b := by exact_mod_cast hb
  have hdist := abs_le.1 (le_refl |q - a / b|)
  have hlow' : (4 * (n : ℚ) - f.twiceBelow n) * b < 4 * a := by
    have hlt : 4 * (n : ℚ) - f.twiceBelow n < 4 * (a / b) := by linarith [hdist.2]
    rwa [← mul_div_assoc, lt_div_iff₀ hb'] at hlt
  have hhigh' : 4 * (a : ℚ) < (4 * n + 2 * f.step n) * b := by
    have hlt : 4 * ((a : ℚ) / b) < 4 * n + 2 * f.step n := by linarith [hdist.1]
    rwa [← mul_div_assoc, div_lt_iff₀ hb'] at hlt
  have hlow : 4 * n * b < 4 * a + f.twiceBelow n * b := by
    rw [sub_mul] at hlow'
    exact_mod_cast (sub_lt_iff_lt_add.1 hlow')
  have hhigh : 4 * a < 4 * n * b + 2 * f.step n * b := by
    rw [add_mul] at hhigh'
    exact_mod_cast hhigh'
  exact round_eq_of_bounds h hn hb hlow.le hhigh.le (by omega)

theorem Nearest.lt_two_pow {q : ℚ} (hq : f.Nearest q n) (h : f.Fits n) (hn : 0 < n) :
    q < 2 ^ (n.log2 + 1) := by
  have hadd : (n : ℚ) + f.step n ≤ 2 ^ (n.log2 + 1) := by exact_mod_cast add_step_le h
  have hpos : (0 : ℚ) < f.step n := by exact_mod_cast f.step_pos n
  linarith [(hq.bounds h hn).2.1]

theorem exists_midpoints (h : f.Fits n) : ∃ l u : ℤ, ¬4 ∣ l ∧ ¬4 ∣ u ∧
    4 * (n : ℚ) - f.twiceBelow n = f.step n * l ∧ 4 * (n : ℚ) + 2 * f.step n = f.step n * u := by
  obtain ⟨m, hm⟩ := step_dvd h
  have hm' : (n : ℚ) = f.step n * m := by exact_mod_cast hm
  have hup : 4 * (n : ℚ) + 2 * f.step n = f.step n * (4 * m + 2 : ℤ) := by
    push_cast
    rw [mul_add, hm']
    ring
  unfold twiceBelow
  split
  · refine ⟨4 * m - 1, 4 * m + 2, by omega, by omega, ?_, hup⟩
    push_cast
    rw [mul_sub, hm']
    ring
  · refine ⟨4 * m - 2, 4 * m + 2, by omega, by omega, ?_, hup⟩
    push_cast
    rw [mul_sub, hm']
    ring

end Format

/-! Finite results -/

namespace Number

variable {f : Format} {m n : Nat}

theorem ofRatio_of_lt (s : Bool) {a b : Nat} (h : f.round a b < 2 ^ f.limit) :
    (ofRatio s a b : Number f) = .finite s (f.round a b) (f.fits_round h) := dif_pos h

theorem ofInt_natCast (n : Nat) : (ofInt n : Number f) = ofRatio false (n * 2 ^ f.scale) 1 := by
  rw [ofInt, Int.natAbs_natCast, decide_eq_false (by omega)]

theorem mul_finite (hm : f.Fits m) (hn : f.Fits n)
    (h : f.round (m * n) (2 ^ f.scale) < 2 ^ f.limit) :
    (.finite false m hm * .finite false n hn : Number f) =
      .finite false (f.round (m * n) (2 ^ f.scale)) (f.fits_round h) := by
  change Number.mul _ _ = _
  rw [Number.mul]
  exact ofRatio_of_lt false h

theorem div_finite (hm : f.Fits m) (hn : f.Fits n) (h0 : n ≠ 0)
    (h : f.round (m * 2 ^ f.scale) n < 2 ^ f.limit) :
    (.finite false m hm / .finite false n hn : Number f) =
      .finite false (f.round (m * 2 ^ f.scale) n) (f.fits_round h) := by
  change Number.div _ _ = _
  rw [Number.div, if_neg h0]
  exact ofRatio_of_lt false h

theorem lt_finite (hm : f.Fits m) (hn : f.Fits n) :
    (finite false m hm).lt (finite false n hn) = true ↔ m < n := by
  simp [Number.lt, compare?, signed, compare_lt_iff_lt]

theorem neg_finite (s : Bool) (hn : f.Fits n) : (-.finite s n hn : Number f) = .finite (!s) n hn :=
  rfl

theorem le_signed {s t : Bool} {hm : f.Fits m} {hn : f.Fits n} :
    (finite s m hm).le (finite t n hn) = true ↔ signed s m ≤ signed t n := by
  rw [Number.le, Number.lt, Bool.or_eq_true, decide_eq_true_iff, decide_eq_true_iff, compare?,
    Option.some.injEq, Option.some.injEq, compare_lt_iff_lt, compare_eq_iff_eq, le_iff_lt_or_eq]

theorem le_finite (hm : f.Fits m) (hn : f.Fits n) :
    (finite false m hm).le (finite false n hn) = true ↔ m ≤ n := by
  rw [le_signed]
  exact Int.ofNat_le

/-! Bounds -/

/-- Whether a number is finite and no more than so many units from zero. -/
def Within (n : Nat) : Number f → Prop
  | .finite _ m _ => m ≤ n
  | _ => False

instance (n : Nat) (x : Number f) : Decidable (x.Within n) :=
  match x with
  | .finite _ m _ => inferInstanceAs (Decidable (m ≤ n))
  | .nan | .infinite _ => inferInstanceAs (Decidable False)

variable {x y : Number f}

theorem Within.isFinite (h : x.Within n) : x.isFinite = true := by
  cases x with
  | finite s m hm => rfl
  | _ => exact h.elim

theorem Within.mono (h : x.Within m) (hmn : m ≤ n) : x.Within n := by
  cases x with
  | finite s k hk => exact Nat.le_trans h hmn
  | _ => exact h.elim

theorem within_ofRatio (hp : 1 < f.precision) (hn : f.Fits n) (s : Bool) {a : Nat} (h : a ≤ n) :
    (ofRatio s a 1 : Number f).Within n := by
  have hle : f.round a 1 ≤ n := Format.round_le_of_fits hp hn Nat.one_pos (by omega)
  rw [ofRatio_of_lt s (hle.trans_lt hn.2)]
  exact hle

theorem Within.add (hx : x.Within m) (hy : y.Within n) (hp : 1 < f.precision)
    (hn : f.Fits (m + n)) : (x + y).Within (m + n) := by
  cases x with
  | finite s a ha => cases y with
    | finite t b hb =>
      have ha' : a ≤ m := hx
      have hb' : b ≤ n := hy
      change (Number.add _ _).Within _
      rw [Number.add]
      split_ifs
      · exact within_ofRatio hp hn s (by omega)
      · exact Nat.zero_le _
      · exact within_ofRatio hp hn s (by omega)
      · exact within_ofRatio hp hn t (by omega)
    | _ => exact hy.elim
  | _ => exact hx.elim

theorem within_of_le {hn : f.Fits n} (hl : (-.finite false n hn : Number f).le x = true)
    (hu : x.le (.finite false n hn) = true) : x.Within n := by
  cases x with
  | nan => cases hu
  | infinite s => cases s <;> simp [Number.le, Number.lt, compare?, neg_finite] at hl hu
  | finite s m hm =>
    rw [neg_finite, le_signed] at hl
    rw [le_signed] at hu
    change m ≤ n
    cases s <;>
      simp only [signed, Bool.not_false, if_true, Bool.false_eq_true, if_false] at hl hu <;> omega

end Number
end SolidScript.Binary
