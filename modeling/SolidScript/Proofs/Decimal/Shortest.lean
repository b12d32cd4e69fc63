import SolidScript.Proofs.Decimal.RoundTrip
import SolidScript.Proofs.Decimal.Search

/-!
# Shortest decimals

The text of a number has the fewest significant digits that a decimal which rounds to the number can
have, and among those with as many digits it is the one nearest to the number.
-/

set_option autoImplicit false

attribute [local instance (10000)] instPowNat

namespace SolidScript
open Binary

def Binary.Number.toRat {f : Format} : Number f → ℚ
  | .finite s n _ => Number.signed s n / 2 ^ f.scale
  | _ => 0

namespace Decimal

variable {f : Format}

def toRat (d : Decimal) : ℚ := if d.negative then -d.magnitude else d.magnitude

/-- The number of digits, without zeros in front of them and behind them. -/
def significant (d : Decimal) : Nat := d.trim.length

/-! Significant digits -/

theorem trim_digits_congr {d e : Decimal} (h : d.magnitude = e.magnitude) :
    d.trim.digits = e.trim.digits := by
  wlog hle : d.trim.exponent ≤ e.trim.exponent generalizing d e
  · exact (this h.symm (by omega)).symm
  obtain ⟨t, ht⟩ := Int.le.dest hle
  have hdigits : d.trim.digits = e.trim.digits * 10 ^ t := by
    rw [← magnitude_trim d, ← magnitude_trim e, magnitude, magnitude, ← ht,
      zpow_add₀ (by norm_num), zpow_natCast, mul_comm ((10 : ℚ) ^ _), ← mul_assoc] at h
    exact_mod_cast mul_right_cancel₀ (zpow_ne_zero _ (by norm_num)) h
  cases t with
  | zero => simpa using hdigits
  | succ t =>
    have hzero : d.trim.digits % 10 = 0 := by
      rw [hdigits, Nat.pow_succ, ← Nat.mul_assoc, Nat.mul_mod_left]
    have hd : d.trim.digits = 0 := d.trim_digits.resolve_right (by omega)
    have he : e.trim.digits = 0 :=
      (Nat.mul_eq_zero.1 (hd ▸ hdigits).symm).resolve_right (by positivity)
    rw [hd, he]

theorem significant_congr {d e : Decimal} (h : d.magnitude = e.magnitude) :
    d.significant = e.significant := by
  rw [significant, significant, length, length, trim_digits_congr h]

theorem trim_digits_le (d : Decimal) : d.trim.digits ≤ d.digits := by
  fun_induction trim d with
  | case1 d h ih =>
    simp only at ih
    omega
  | case2 d h => rfl

theorem significant_pos (d : Decimal) : 0 < d.significant := Nat.length_toDigits_pos

theorem significant_le_iff {d : Decimal} {k : Nat} (hk : 0 < k) :
    d.significant ≤ k ↔ d.trim.digits < 10 ^ k :=
  Nat.length_toDigits_le_iff (by decide) hk

theorem digits_lt (d : Decimal) : d.trim.digits < 10 ^ d.significant :=
  (significant_le_iff d.significant_pos).1 (Nat.le_refl _)

theorem significant_le_of_le {d : Decimal} {k : Nat} (hk : 0 < k) (h : d.digits ≤ 10 ^ k) :
    d.significant ≤ k := by
  rcases Nat.lt_or_eq_of_le h with hlt | heq
  · exact (significant_le_iff hk).2 (Nat.lt_of_le_of_lt d.trim_digits_le hlt)
  · have hone : d.magnitude = magnitude ⟨d.negative, 1, k + d.exponent⟩ := by
      rw [magnitude, magnitude, heq, zpow_add₀ (by norm_num), zpow_natCast]
      push_cast
      ring
    have hle := trim_digits_le ⟨d.negative, 1, k + d.exponent⟩
    rw [significant_congr hone, significant_le_iff hk]
    exact Nat.lt_of_le_of_lt hle (Nat.one_lt_pow (by omega) (by decide))

/-! Decimals in the interval -/

theorem covers_of_nearest {n : Nat} (h : f.Fits n) (hn : 0 < n) {q : ℚ} (hq : f.Nearest q n) :
    (interval f n).Covers (4 * q * 5 ^ f.scale) := by
  obtain ⟨m, -, hm⟩ := Format.exists_short_below h hn
  obtain ⟨hl, hu, heven⟩ := hq.bounds h hn
  have ht : (0 : ℚ) < 5 ^ f.scale := by positivity
  have hlower : ((interval f n).lower : ℚ) = (4 * n - f.twiceBelow n) * 5 ^ f.scale := by
    have hle : f.twiceBelow n ≤ 4 * n := by omega
    change (((4 * n - f.twiceBelow n) * 5 ^ f.scale : ℕ) : ℚ) = _
    push_cast [hle]
    ring
  have hupper : ((interval f n).upper : ℚ) = (4 * n + 2 * f.step n) * 5 ^ f.scale := by
    simp [interval]
  have hclosed : n / f.step n % 2 = 0 → (interval f n).closed = true := by simp [interval]
  rw [Interval.Covers, hlower, hupper]
  constructor
  · rcases lt_or_eq_of_le hl with hlt | heq
    · exact .inl (mul_lt_mul_of_pos_right hlt ht)
    · exact .inr ⟨hclosed (heven (.inl heq)), by rw [heq]⟩
  · rcases lt_or_eq_of_le hu with hlt | heq
    · exact .inl (mul_lt_mul_of_pos_right hlt ht)
    · exact .inr ⟨hclosed (heven (.inr heq)), by rw [heq]⟩

namespace Interval

variable {i : Interval} {top d j m l : Nat} {e : ℤ}

theorem mem_of_le (hc : i.Covers (4 * (m * 10 ^ e))) (h : (j : ℤ) ≤ e) :
    ∃ k, i.Mem (k * (4 * 10 ^ j)) ∧ 4 * ((m : ℚ) * 10 ^ e) = (k * (4 * 10 ^ j) : ℕ) := by
  obtain ⟨t, rfl⟩ := Int.le.dest h
  have heq : 4 * ((m : ℚ) * 10 ^ ((j : ℤ) + t)) = (m * 10 ^ t * (4 * 10 ^ j) : ℕ) := by
    rw [zpow_add₀ (by norm_num), zpow_natCast, zpow_natCast]
    push_cast
    ring
  exact ⟨m * 10 ^ t, covers_natCast.1 (heq ▸ hc), heq⟩

theorem lt_of_digits (hm : m < 10 ^ l) : (m : ℚ) * 10 ^ e < (10 : ℚ) ^ (l + e) := by
  rw [zpow_add₀ (by norm_num), zpow_natCast]
  exact mul_lt_mul_of_pos_right (by exact_mod_cast hm) (by positivity)

theorem mem_pow_of_lt (hv : i.Mem i.value) (hlow : 4 * 10 ^ top ≤ i.value)
    (hc : i.Covers (4 * (m * 10 ^ e))) (hlt : (m : ℚ) * 10 ^ e < 10 ^ top) :
    i.Mem (4 * 10 ^ top) := by
  have hle : 4 * ((m : ℚ) * 10 ^ e) ≤ (4 * 10 ^ top : ℕ) := by
    push_cast
    linarith
  exact covers_natCast.1 (hc.convex (covers_natCast.2 hv) hle (by exact_mod_cast hlow))

namespace Best

variable (hb : i.Best top d j) (hv : i.Mem i.value) (hlow : 4 * 10 ^ top ≤ i.value)
include hb hv hlow

theorem le_digits (hl : 0 < l) (hm : m < 10 ^ l) (hc : i.Covers (4 * (m * 10 ^ e))) :
    top + 1 ≤ j + l := by
  rcases Nat.lt_or_eq_of_le hb.le_top with hj | rfl
  · have hge : (10 : ℚ) ^ top ≤ m * 10 ^ e := by
      by_contra hlt
      have hpow := mem_pow_of_lt hv hlow hc (not_le.1 hlt)
      exact hb.coarsest top hj (Nat.le_refl _) 1 (by rwa [Nat.one_mul])
    have he : e ≤ j := by
      by_contra hlt
      obtain ⟨k, hk, -⟩ := mem_of_le (j := j + 1) hc (by push_cast; omega)
      exact hb.coarsest (j + 1) (by omega) hj k hk
    have hlt : (10 : ℚ) ^ (top : ℤ) < (10 : ℚ) ^ ((l : ℤ) + e) := by
      rw [zpow_natCast]
      exact lt_of_le_of_lt hge (lt_of_digits hm)
    have := (zpow_lt_zpow_iff_right₀ (by norm_num : (1 : ℚ) < 10)).1 hlt
    omega
  · omega

theorem nearest_of_digits (hm : m < 10 ^ l) (hl : j + l = top + 1)
    (hc : i.Covers (4 * (m * 10 ^ e))) :
    |((d * (4 * 10 ^ j) : ℕ) : ℚ) - i.value| ≤ |4 * ((m : ℚ) * 10 ^ e) - i.value| := by
  by_cases hj : (j : ℤ) ≤ e
  · obtain ⟨k, hk, heq⟩ := mem_of_le hc hj
    rw [heq]
    exact hb.nearest k hk
  · -- the decimal is below the first place of the value, and the power of ten there is nearer
    have hlt : (m : ℚ) * 10 ^ e < 10 ^ top := by
      refine (lt_of_digits hm).trans_le ?_
      rw [← zpow_natCast]
      exact zpow_le_zpow_right₀ (by norm_num) (by omega)
    have hpow : 10 ^ (top - j) * (4 * 10 ^ j) = 4 * 10 ^ top := by
      rw [Nat.mul_left_comm, ← Nat.pow_add, Nat.sub_add_cancel hb.le_top]
    have hpoint : i.Mem (10 ^ (top - j) * (4 * 10 ^ j)) := by
      rw [hpow]
      exact mem_pow_of_lt hv hlow hc hlt
    have hle : ((4 * 10 ^ top : ℕ) : ℚ) ≤ i.value := by exact_mod_cast hlow
    have hbelow : 4 * ((m : ℚ) * 10 ^ e) ≤ (4 * 10 ^ top : ℕ) := by
      push_cast
      linarith
    calc |((d * (4 * 10 ^ j) : ℕ) : ℚ) - i.value|
        ≤ |((4 * 10 ^ top : ℕ) : ℚ) - i.value| := hpow ▸ hb.nearest _ hpoint
      _ = i.value - (4 * 10 ^ top : ℕ) := by
        rw [abs_sub_comm, abs_of_nonneg (sub_nonneg.2 hle)]
      _ ≤ i.value - 4 * ((m : ℚ) * 10 ^ e) := sub_le_sub_left hbelow _
      _ = |4 * ((m : ℚ) * 10 ^ e) - i.value| := by
        rw [abs_sub_comm, abs_of_nonneg (sub_nonneg.2 (hbelow.trans hle))]

end Best
end Interval

/-! The shortest decimal -/

/-- A decimal that rounds to a number, that has no more digits than any other which does, and that
is as near to the number as any of those with as many digits. -/
structure IsShortest (d : Decimal) (x : Number f) : Prop where
  rounds : d.round f = x
  fewest : ∀ e : Decimal, e.round f = x → d.significant ≤ e.significant
  nearest : ∀ e : Decimal, e.round f = x → e.significant = d.significant →
    |d.toRat - x.toRat| ≤ |e.toRat - x.toRat|

def top (f : Format) (n : Nat) : Nat := (Nat.toDigits 10 (n * 5 ^ f.scale)).length - 1

theorem top_bounds (f : Format) {n : Nat} (hn : 0 < n) :
    10 ^ top f n ≤ n * 5 ^ f.scale ∧ n * 5 ^ f.scale < 10 ^ (top f n + 1) := by
  have hpos : 0 < (Nat.toDigits 10 (n * 5 ^ f.scale)).length := Nat.length_toDigits_pos
  have hlen : top f n + 1 = (Nat.toDigits 10 (n * 5 ^ f.scale)).length := by
    unfold top
    omega
  constructor
  · rcases Nat.eq_zero_or_pos (top f n) with h0 | h0
    · rw [h0]
      exact Nat.mul_pos hn (by positivity)
    · rw [← not_lt, ← Nat.length_toDigits_le_iff (by decide) h0]
      omega
  · rw [← Nat.length_toDigits_le_iff (by decide) (Nat.succ_pos _)]
    exact hlen.ge

theorem found_best (f : Format) {n : Nat} (hn : 0 < n) :
    (interval f n).Best (top f n) (found f n).1 (found f n).2 :=
  Interval.search_best (interval_value_mem hn)
    (by simp only [interval, Nat.mul_assoc, Nat.mul_mod_right]) _

theorem found_le (f : Format) {n : Nat} (hn : 0 < n) :
    (found f n).1 ≤ 10 ^ (top f n + 1 - (found f n).2) := by
  obtain ⟨-, hlt⟩ := top_bounds f hn
  have hb := found_best f hn
  have hdiv : (interval f n).value / (4 * 10 ^ (found f n).2) =
      n * 5 ^ f.scale / 10 ^ (found f n).2 := by
    rw [interval, Nat.mul_assoc, Nat.mul_div_mul_left _ _ (by decide)]
  have hquot : n * 5 ^ f.scale / 10 ^ (found f n).2 < 10 ^ (top f n + 1 - (found f n).2) := by
    rw [Nat.div_lt_iff_lt_mul (by positivity), ← Nat.pow_add,
      Nat.sub_add_cancel (hb.le_top.trans (Nat.le_succ _))]
    exact hlt
  have := hb.le_above
  omega

theorem ten_pow_eq (k : Nat) : (10 : ℚ) ^ k = 2 ^ k * 5 ^ k := by
  rw [← mul_pow]
  norm_num

variable {s : Bool} {n : Nat} {h : f.Fits n}

theorem covers_of_round (hp : 1 < f.precision) (hn : 0 < n) {e : Decimal}
    (he : e.round f = .finite s n h) : e.negative = s ∧
      (interval f n).Covers (4 * (e.trim.digits * 10 ^ (e.trim.exponent + f.scale))) := by
  rw [round_eq_exact] at he
  obtain ⟨hs, hq⟩ := nearest_of_exact hp he
  have heq : 4 * ((e.trim.digits : ℚ) * 10 ^ (e.trim.exponent + f.scale)) =
      4 * (e.magnitude * 2 ^ f.scale) * 5 ^ f.scale := by
    rw [← magnitude_trim e, magnitude, zpow_add₀ (by norm_num), zpow_natCast, ten_pow_eq]
    ring
  exact ⟨hs, heq ▸ covers_of_nearest h hn hq⟩

theorem abs_toRat_sub {e : Decimal} (hs : e.negative = s) :
    |e.toRat - (Number.finite s n h).toRat| = |4 * (e.magnitude * 10 ^ f.scale) -
      (interval f n).value| / (4 * 10 ^ f.scale) := by
  have hval : ((interval f n).value : ℚ) = 4 * n * 5 ^ f.scale := by simp [interval]
  have hsign : |e.toRat - (Number.finite s n h).toRat| = |e.magnitude - n / 2 ^ f.scale| := by
    rw [toRat, hs, Number.toRat]
    cases s with
    | false => simp [Number.signed]
    | true =>
      rw [← abs_neg]
      congr 1
      simp only [Number.signed, if_true]
      push_cast
      ring
  have hunits : 4 * (e.magnitude * 10 ^ f.scale) - (interval f n).value =
      (e.magnitude - n / 2 ^ f.scale) * (4 * 10 ^ f.scale) := by
    rw [hval, ten_pow_eq]
    field_simp
  have hpos : (0 : ℚ) < 4 * 10 ^ f.scale := by positivity
  rw [hsign, hunits, abs_mul, abs_of_pos hpos, mul_div_cancel_right₀ _ hpos.ne']

/-- The decimal that the search finds, however it is written. -/
theorem isShortest_of_found (hp : 1 < f.precision) (hn : 0 < n) {d : Decimal}
    (hs : d.negative = s)
    (hd : d.magnitude = magnitude ⟨s, (found f n).1, (found f n).2 - f.scale⟩) :
    d.IsShortest (.finite s n h) := by
  have hb := found_best f hn
  have hv := interval_value_mem (f := f) hn
  have hlow : 4 * 10 ^ top f n ≤ (interval f n).value := by
    rw [interval, Nat.mul_assoc]
    exact Nat.mul_le_mul_left 4 (top_bounds f hn).1
  have htop := hb.le_top
  have hle : d.significant ≤ top f n + 1 - (found f n).2 := by
    rw [significant_congr hd]
    exact significant_le_of_le (by omega) (found_le f hn)
  have hgrid : 4 * (d.magnitude * 10 ^ f.scale) =
      (((found f n).1 * (4 * 10 ^ (found f n).2) : ℕ) : ℚ) := by
    rw [hd, magnitude, zpow_sub₀ (by norm_num), zpow_natCast, zpow_natCast]
    push_cast
    field_simp
  have hrounds : d.round f = .finite s n h := by
    rw [round_eq_exact, ← exact_shortest s h hn, shortest_eq]
    exact exact_congr (by rw [trim_negative, hs]) (by rw [magnitude_trim, hd])
  refine ⟨hrounds, fun e he => ?_, fun e he hdigits => ?_⟩
  · obtain ⟨-, hc⟩ := covers_of_round hp hn he
    have := hb.le_digits hv hlow e.significant_pos e.digits_lt hc
    omega
  · obtain ⟨hes, hc⟩ := covers_of_round hp hn he
    have hge := hb.le_digits hv hlow e.significant_pos e.digits_lt hc
    have hnear := hb.nearest_of_digits hv hlow e.digits_lt (by omega) hc
    have hmag : (e.trim.digits : ℚ) * 10 ^ (e.trim.exponent + f.scale) =
        e.magnitude * 10 ^ f.scale := by
      rw [← magnitude_trim e, magnitude, zpow_add₀ (by norm_num), zpow_natCast, mul_assoc]
    rw [hmag, ← hgrid] at hnear
    rw [abs_toRat_sub hs, abs_toRat_sub hes]
    exact div_le_div_of_nonneg_right hnear (by positivity)

theorem exists_isShortest (hp : 1 < f.precision) {style : Style} (hstyle : style.span = none)
    (hn : 0 < n) : ∃ d, ofText? (style.write (.finite s n h)) = some d ∧
      d.IsShortest (.finite s n h) := by
  have hpos : style.isPositional f n = true := by simp [Style.isPositional, hstyle]
  have hneg : (shortest f s n).negative = s := trim_negative _
  have hwrite : style.write (.finite s n h) =
      signed (shortest f s n).negative (style.layout true (shortest f s n)) := by
    simp [Style.write, Number.shortest?, hpos, hn.ne', hneg]
  obtain ⟨d, hd, hs, hmag⟩ := layout_readsAs style (shortest f s n)
  rw [← hwrite] at hd
  rw [shortest_eq, magnitude_trim] at hmag
  exact ⟨d, hd, isShortest_of_found hp hn (hs.trans hneg) hmag⟩

end Decimal

/-- The text of a finite number that is not zero is a shortest decimal: no decimal with fewer
significant digits rounds to the number, and none with as many that does is nearer to it. -/
theorem numberText_isShortest (x : Single) (hx : x.isFinite = true) (h0 : x.isZero = false) :
    ∃ d : Decimal, Decimal.ofText? (numberText x) = some d ∧ d.IsShortest x := by
  have hp : 1 < Format.single.precision := by decide
  cases x with
  | nan => cases hx
  | infinite s => cases hx
  | finite s n h =>
    have hn : n ≠ 0 := by
      rintro rfl
      cases h0
    exact Decimal.exists_isShortest hp rfl (Nat.pos_of_ne_zero hn)

theorem numberText_isShortest_power :
    numberText (.ofInt 8589934592) = "8589935000".toList ∧
      ∃ d : Decimal, Decimal.ofText? "8589935000".toList = some d ∧
        d.IsShortest (.ofInt 8589934592 : Single) := by
  have htext : numberText (.ofInt 8589934592) = "8589935000".toList := by decide +kernel
  have hfinite : (.ofInt 8589934592 : Single).isFinite = true := by decide +kernel
  have hzero : (.ofInt 8589934592 : Single).isZero = false := by decide +kernel
  exact ⟨htext, htext ▸ numberText_isShortest _ hfinite hzero⟩

end SolidScript
