import SolidScript.Proofs.Binary.Order
import SolidScript.Proofs.Binary.Whole
import SolidScript.Shape.Array

/-!
# Equal parts of a full turn

The angle of a copy around a full turn is rounded three times: as a part of the turn and as a
multiple of it in double precision, and then to single precision. In a turn of no more than `2 ^ 18`
parts that is the number nearest to the exact angle, for no such angle lies so near to a midpoint
that the first two roundings could take it across. In a turn of any number of parts the angles do
not decrease and do not pass the full turn.
-/

set_option autoImplicit false

attribute [local instance (10000)] instPowNat

namespace SolidScript
open Binary Format

/-- A multiple of a part of a full turn, in double precision, as a single-precision angle. -/
def partOfTurn (parts i : Double) : Single := ((.ofInt 360 / parts : Double) * i).convert

namespace FullTurn

/-! Units of the numbers -/

def whole (n : Nat) : Nat := double.round (n * 2 ^ double.scale) 1

def part (u : Nat) : Nat := double.round (360 * 2 ^ double.scale * 2 ^ double.scale) u

def multiple (u v : Nat) : Nat := double.round (part u * v) (2 ^ double.scale)

def angle (u v : Nat) : Nat := single.round (multiple u v * 2 ^ single.scale) (2 ^ double.scale)

theorem one_lt_double : 1 < double.precision := by decide

theorem one_lt_single : 1 < single.precision := by decide

theorem fits_degrees : double.Fits (360 * 2 ^ double.scale) := wide_double.fits (by decide)

variable {u v w n i j : Nat}

theorem whole_mono (h : i ≤ j) : whole i ≤ whole j :=
  round_mono one_lt_double (by decide) (by decide)
    (Nat.mul_le_mul_right _ (Nat.mul_le_mul_right _ h))

theorem whole_eq (h : n ≤ 2 ^ 53) : whole n = n * 2 ^ double.scale :=
  double.round_of_fits (wide_double.fits h)

theorem two_pow_le_whole (h : 0 < n) : 2 ^ double.scale ≤ whole n := by
  have hone : whole 1 = 2 ^ double.scale := by rw [whole_eq (by decide), Nat.one_mul]
  rw [← hone]
  exact whole_mono h

theorem multiple_mono (u : Nat) (h : v ≤ w) : multiple u v ≤ multiple u w :=
  round_mono one_lt_double (Nat.two_pow_pos _) (Nat.two_pow_pos _)
    (Nat.mul_le_mul_right _ (Nat.mul_le_mul_left _ h))

theorem angle_mono (u : Nat) (h : v ≤ w) : angle u v ≤ angle u w :=
  round_mono one_lt_single (Nat.two_pow_pos _) (Nat.two_pow_pos _)
    (Nat.mul_le_mul_right _ (Nat.mul_le_mul_right _ (multiple_mono u h)))

/-! No angle passes the full turn -/

theorem part_le (h : 2 ^ double.scale ≤ u) : part u ≤ 360 * 2 ^ double.scale := by
  have hu : 0 < u := by have := Nat.two_pow_pos double.scale; omega
  exact round_le_of_fits one_lt_double fits_degrees hu (Nat.mul_le_mul_left _ h)

def above : Nat := (360 * 2 ^ 44 + 1) * 2 ^ 1030

theorem fits_above : double.Fits above := by decide +kernel

theorem round_above :
    single.round (above * 2 ^ single.scale) (2 ^ double.scale) = 360 * 2 ^ single.scale := by
  decide +kernel

theorem multiple_le (h : 2 ^ double.scale ≤ u) (hu : double.Fits u) (hv : v ≤ u) :
    multiple u v ≤ above := by
  have hpos := Nat.two_pow_pos double.scale
  have hsmall : 2 ^ (double.precision - 1) * u ≤ 360 * 2 ^ double.scale * 2 ^ double.scale :=
    (Nat.mul_le_mul_left _ hu.2.le).trans (by decide +kernel)
  have hpart := double.round_mul_le (by omega : 0 < u) hsmall
  apply round_le_of_fits one_lt_double fits_above hpos
  -- the part may be too large, but in proportion by no more than half of what a digit counts
  apply Nat.le_of_mul_le_mul_right _ (Nat.two_pow_pos double.precision)
  calc part u * v * 2 ^ double.precision ≤ part u * u * 2 ^ double.precision :=
        Nat.mul_le_mul_right _ (Nat.mul_le_mul_left _ hv)
    _ ≤ 360 * 2 ^ double.scale * 2 ^ double.scale * (2 ^ double.precision + 1) := hpart
    _ ≤ above * 2 ^ double.scale * 2 ^ double.precision := by decide +kernel

theorem angle_le (h : 2 ^ double.scale ≤ u) (hu : double.Fits u) (hv : v ≤ u) :
    angle u v ≤ 360 * 2 ^ single.scale := by
  rw [← round_above]
  exact round_mono one_lt_single (Nat.two_pow_pos _) (Nat.two_pow_pos _)
    (Nat.mul_le_mul_right _ (Nat.mul_le_mul_right _ (multiple_le h hu hv)))

theorem fits_angle (h : 2 ^ double.scale ≤ u) (hu : double.Fits u) (hv : v ≤ u) :
    single.Fits (angle u v) :=
  single.fits_round (lt_of_le_of_lt (angle_le h hu hv) (by decide +kernel))

theorem ofInt_degrees :
    (Number.ofInt 360 : Double) = .finite false (360 * 2 ^ double.scale) fits_degrees := by
  rw [← Number.ofRatio_units false fits_degrees]
  exact Number.ofInt_natCast 360

theorem partOfTurn_finite (hu : double.Fits u) (hv : double.Fits v) (h : 2 ^ double.scale ≤ u)
    (hvu : v ≤ u) : partOfTurn (.finite false u hu) (.finite false v hv) =
      .finite false (angle u v) (fits_angle h hu hvu) := by
  have hpos := Nat.two_pow_pos double.scale
  have hpart : part u < 2 ^ double.limit := (part_le h).trans_lt (by decide +kernel)
  have hmultiple : multiple u v < 2 ^ double.limit :=
    (multiple_le h hu hvu).trans_lt (by decide +kernel)
  rw [partOfTurn, ofInt_degrees, Number.div_finite fits_degrees hu (by omega) hpart]
  rw [Number.mul_finite (double.fits_round hpart) hv hmultiple, Number.convert]
  exact Number.ofRatio_of_lt false (fits_angle h hu hvu).2

/-! Small numbers of parts -/

theorem part_whole (hn : 0 < n) :
    part (n * 2 ^ double.scale) = double.round (360 * 2 ^ double.scale) n := by
  apply round_congr (Nat.mul_pos hn (Nat.two_pow_pos _)) hn
  ring

theorem multiple_whole (u i : Nat) :
    multiple u (i * 2 ^ double.scale) = double.round (part u * i) 1 := by
  apply round_congr (Nat.two_pow_pos _) (by decide)
  ring

theorem error_multiple {x q y i : ℚ} (hi : 0 < i) (hq : |x - q| * 2 ^ 53 ≤ x)
    (hy : |q * i - y| * 2 ^ 53 ≤ q * i) : |x * i - y| * 2 ^ 51 ≤ x * i := by
  have hx : 0 ≤ x := by linarith [abs_nonneg (x - q)]
  have hle : q ≤ 2 * x := by
    have := neg_abs_le (x - q)
    linarith
  have htriangle : |x * i - y| ≤ |x - q| * i + |q * i - y| := by
    have h := abs_add_le ((x - q) * i) (q * i - y)
    rwa [abs_mul, abs_of_pos hi, show (x - q) * i + (q * i - y) = x * i - y by ring] at h
  have hq' := mul_le_mul_of_nonneg_right hq hi.le
  have hle' := mul_le_mul_of_nonneg_right hle hi.le
  have hx' := mul_nonneg hx hi.le
  linarith

theorem multiple_error (hn : 0 < n) (hn' : n ≤ 2 ^ 18) (hi : 0 < i) :
    |((360 * 2 ^ double.scale : ℕ) : ℚ) / n * i -
        multiple (n * 2 ^ double.scale) (i * 2 ^ double.scale)| * 2 ^ 51 ≤
      ((360 * 2 ^ double.scale : ℕ) : ℚ) / n * i := by
  have hdigits : 2 ^ (double.precision - 1) * n ≤ 360 * 2 ^ double.scale :=
    (Nat.mul_le_mul_left _ hn').trans (by decide +kernel)
  have hlow : 2 ^ (double.precision - 1) ≤ double.round (360 * 2 ^ double.scale) n :=
    le_round_of_fits one_lt_double (by decide +kernel) hn hdigits
  have hmultiple := double.round_error_mul_le (a := double.round (360 * 2 ^ double.scale) n * i)
    (b := 1) (by decide) (by rw [Nat.mul_one]; exact hlow.trans (Nat.le_mul_of_pos_right _ hi))
  rw [Nat.cast_mul, Nat.cast_one, div_one] at hmultiple
  rw [multiple_whole, part_whole hn]
  exact error_multiple (by exact_mod_cast hi) (double.round_error_mul_le hn hdigits) hmultiple

theorem two_pow_dvd {c : ℤ} {k : Nat} (hc : ¬4 ∣ c) (h : 2 ^ (k + 1) ∣ c * n) :
    2 ^ k ∣ (n : ℤ) := by
  have of_odd {d : ℤ} {j : Nat} (hd : ¬2 ∣ d) (h : 2 ^ j ∣ d * n) : 2 ^ j ∣ (n : ℤ) :=
    ((Prime.coprime_iff_not_dvd Int.prime_two).2 hd).pow_left.dvd_of_dvd_mul_left h
  by_cases hodd : ¬2 ∣ c
  · exact (pow_dvd_pow 2 (by omega)).trans (of_odd hodd h)
  · obtain ⟨d, rfl⟩ := not_not.1 hodd
    rw [pow_succ', mul_assoc] at h
    exact of_odd (by omega) ((mul_dvd_mul_iff_left (by decide)).1 h)

/-- The exact angle keeps away from each midpoint. -/
theorem margin {q : ℚ} {c m : ℤ} {s : Nat} (hc : ¬4 ∣ c) (hn : 0 < n) (hn' : n ≤ 2 ^ 18)
    (hq : 4 * q * n = s * (2 ^ 20 * m : ℤ)) : (s : ℚ) / n ≤ |4 * q - s * c| := by
  have hne : 2 ^ 20 * m - c * n ≠ 0 := by
    -- else `n` would be a multiple of `2 ^ 19`
    intro h0
    have hdvd : (2 : ℤ) ^ (19 + 1) ∣ c * n := ⟨m, by omega⟩
    have hle := Int.le_of_dvd (by omega) (two_pow_dvd hc hdvd)
    omega
  have hone : (1 : ℚ) ≤ |((2 ^ 20 * m - c * n : ℤ) : ℚ)| := by exact_mod_cast Int.one_le_abs hne
  have hn0 : (0 : ℚ) < n := by exact_mod_cast hn
  have hmul : (4 * q - s * c) * n = s * ((2 ^ 20 * m - c * n : ℤ) : ℚ) := by
    rw [sub_mul, hq]
    push_cast
    ring
  rw [div_le_iff₀ hn0, ← abs_of_pos hn0, ← abs_mul, hmul, abs_mul, Nat.abs_cast]
  exact le_mul_of_one_le_right (Nat.cast_nonneg s) hone

def exact (n i : Nat) : ℚ := ((360 * i * 2 ^ single.scale : ℕ) : ℚ) / n

theorem exact_error (hn : 0 < n) (hn' : n ≤ 2 ^ 18) (hi : 0 < i) :
    |exact n i - ((multiple (n * 2 ^ double.scale) (i * 2 ^ double.scale) * 2 ^ single.scale : ℕ) :
      ℚ) / (2 ^ double.scale : ℕ)| * 2 ^ 51 ≤ exact n i := by
  have herror := multiple_error hn hn' hi
  have hpos := Nat.two_pow_pos double.scale
  have hpos' := Nat.two_pow_pos single.scale
  rw [exact]
  generalize multiple (n * 2 ^ double.scale) (i * 2 ^ double.scale) = y at *
  generalize 2 ^ double.scale = s at *
  generalize 2 ^ single.scale = t at *
  have hs : (0 : ℚ) < s := by exact_mod_cast hpos
  have ht : (0 : ℚ) < t := by exact_mod_cast hpos'
  have hn0 : (n : ℚ) ≠ 0 := by exact_mod_cast hn.ne'
  have hratio : (0 : ℚ) < t / s := div_pos ht hs
  have hexact : ((360 * i * t : ℕ) : ℚ) / n = ((360 * s : ℕ) : ℚ) / n * i * (t / s) := by
    push_cast
    field_simp
  have hy : ((y * t : ℕ) : ℚ) / s = y * (t / s) := by
    push_cast
    ring
  rw [hy, hexact, ← sub_mul, abs_mul, abs_of_pos hratio, mul_right_comm]
  exact mul_le_mul_of_nonneg_right herror hratio.le

theorem round_exact_bounds (hn : 0 < n) (hn' : n ≤ 2 ^ 18) (hi : 0 < i) (hin : i ≤ n) :
    2 ^ 139 ≤ single.round (360 * i * 2 ^ single.scale) n ∧
      single.round (360 * i * 2 ^ single.scale) n ≤ 360 * 2 ^ single.scale := by
  constructor
  · apply le_round_of_fits one_lt_single (by decide +kernel) hn
    calc 2 ^ 139 * n ≤ 2 ^ 139 * 2 ^ 18 := Nat.mul_le_mul_left _ hn'
      _ ≤ 360 * 1 * 2 ^ single.scale := by decide +kernel
      _ ≤ 360 * i * 2 ^ single.scale := Nat.mul_le_mul_right _ (Nat.mul_le_mul_left _ hi)
  · apply round_le_of_fits one_lt_single (by decide +kernel) hn
    rw [Nat.mul_right_comm]
    exact Nat.mul_le_mul_left _ hin

theorem step_angle {m : Nat} (hlow : 2 ^ 139 ≤ m) (hhigh : m ≤ 360 * 2 ^ single.scale) :
    ∃ k, k ≤ 134 ∧ single.step m = 2 ^ k ∧ m.log2 + 1 = k + 24 := by
  have h0 : m ≠ 0 := by
    rintro rfl
    exact absurd hlow (by decide)
  have hlog : 139 ≤ m.log2 := (Nat.le_log2 h0).2 hlow
  have hlog' : m.log2 < 158 := (Nat.log2_lt h0).2 (hhigh.trans_lt (by decide +kernel))
  have hp : single.precision = 24 := rfl
  exact ⟨single.excess m, by unfold excess; omega, rfl, by unfold excess; omega⟩

theorem exact_mul (hn : 0 < n) {k : Nat} (hk : k ≤ 134) :
    4 * exact n i * n = (2 ^ k : ℕ) * (2 ^ 20 * (45 * i * 2 ^ (134 - k) : ℕ) : ℤ) := by
  have hn0 : (n : ℚ) ≠ 0 := by exact_mod_cast hn.ne'
  have hpow : 2 ^ k * 2 ^ (134 - k) = 2 ^ 134 := by rw [← Nat.pow_add, Nat.add_sub_cancel' hk]
  have hunits : 4 * 360 * 2 ^ single.scale = 2 ^ 20 * 45 * 2 ^ 134 := by decide +kernel
  have hnat : 4 * (360 * i * 2 ^ single.scale) =
      2 ^ k * (2 ^ 20 * (45 * i * 2 ^ (134 - k))) := by
    calc 4 * (360 * i * 2 ^ single.scale) = 4 * 360 * 2 ^ single.scale * i := by ring
      _ = 2 ^ 20 * 45 * (2 ^ k * 2 ^ (134 - k)) * i := by rw [hunits, hpow]
      _ = 2 ^ k * (2 ^ 20 * (45 * i * 2 ^ (134 - k))) := by ring
  rw [exact, mul_assoc, div_mul_cancel₀ _ hn0]
  exact_mod_cast hnat

theorem angle_zero (u : Nat) : angle u 0 = 0 := by
  rw [angle, multiple, Nat.mul_zero, round_zero _ (Nat.two_pow_pos _), Nat.zero_mul,
    round_zero _ (Nat.two_pow_pos _)]

theorem error_lt_step (hn : 0 < n) (hn' : n ≤ 2 ^ 18) {k : Nat} {e : ℚ}
    (he : e * 2 ^ 51 ≤ exact n i) (hk : exact n i < 2 ^ (k + 24)) :
    4 * e < (2 ^ k : ℕ) / n := by
  have hn0 : (0 : ℚ) < n := by exact_mod_cast hn
  have hn1 : (n : ℚ) ≤ 2 ^ 18 := by exact_mod_cast hn'
  have hpow : (0 : ℚ) < 2 ^ k := by positivity
  rw [pow_add] at hk
  rw [lt_div_iff₀ hn0]
  push_cast
  have hsmall : e ≤ 2 ^ k / 2 ^ 27 := by
    rw [le_div_iff₀ (by positivity)]
    linarith
  calc 4 * e * n ≤ 4 * (2 ^ k / 2 ^ 27) * n := by gcongr
    _ ≤ 4 * (2 ^ k / 2 ^ 27) * 2 ^ 18 := by gcongr
    _ < 2 ^ k := by linarith

/-- In a turn of not too many parts three roundings are one. -/
theorem angle_eq (hn : 0 < n) (hn' : n ≤ 2 ^ 18) (hin : i ≤ n) :
    angle (n * 2 ^ double.scale) (i * 2 ^ double.scale) =
      single.round (360 * i * 2 ^ single.scale) n := by
  rcases Nat.eq_zero_or_pos i with rfl | hi
  · rw [Nat.zero_mul, angle_zero, Nat.mul_zero, Nat.zero_mul, round_zero _ hn]
  obtain ⟨hlow, hhigh⟩ := round_exact_bounds hn hn' hi hin
  have hnearest : single.Nearest (exact n i) _ :=
    nearest_round one_lt_single (360 * i * 2 ^ single.scale) hn
  have hfits := single.fits_round (hhigh.trans_lt (by decide +kernel))
  generalize single.round (360 * i * 2 ^ single.scale) n = m at *
  have hm : 0 < m := by have := Nat.two_pow_pos 139; omega
  obtain ⟨k, hk, hstep, hlog⟩ := step_angle hlow hhigh
  obtain ⟨l, u, hl, hu, hlower, hupper⟩ := exists_midpoints hfits
  have hbelow := hnearest.lt_two_pow hfits hm
  rw [hlog] at hbelow
  have herror := error_lt_step hn hn' (exact_error hn hn' hi) hbelow
  have hexact := exact_mul (i := i) hn hk
  rw [← hstep] at herror hexact
  -- at each midpoint the margin, a whole number over `n`, is more than the error
  apply hnearest.round_eq hfits hm (Nat.two_pow_pos _)
  · rw [hlower]
    exact herror.trans_le (margin hl hn hn' hexact)
  · rw [hupper]
    exact herror.trans_le (margin hu hn hn' hexact)

/-! Angles in order -/

theorem exact_add_le (hn : 0 < n) (hn' : n ≤ 2 ^ 18) (hij : i < j) :
    exact n i + 2 ^ 135 ≤ exact n j := by
  have hn0 : (0 : ℚ) < n := by exact_mod_cast hn
  obtain ⟨d, rfl⟩ := Nat.exists_eq_add_of_lt hij
  have hunits : 2 ^ 135 * n ≤ 360 * (d + 1) * 2 ^ single.scale := by
    calc 2 ^ 135 * n ≤ 2 ^ 135 * 2 ^ 18 := Nat.mul_le_mul_left _ hn'
      _ ≤ 360 * 1 * 2 ^ single.scale := by decide +kernel
      _ ≤ 360 * (d + 1) * 2 ^ single.scale :=
          Nat.mul_le_mul_right _ (Nat.mul_le_mul_left _ (by omega))
  have hsum : 360 * i * 2 ^ single.scale + 2 ^ 135 * n ≤
      360 * (i + d + 1) * 2 ^ single.scale := by
    rw [Nat.add_assoc i, Nat.mul_add, Nat.add_mul]
    exact Nat.add_le_add_left hunits _
  rw [exact, exact, div_add' _ _ _ hn0.ne', div_le_div_iff_of_pos_right hn0]
  exact_mod_cast hsum

theorem exact_sub_round (hn : 0 < n) (hin : i ≤ n) :
    |exact n i - single.round (360 * i * 2 ^ single.scale) n| ≤ 2 ^ 134 / 2 := by
  apply single.round_error_le hn
  calc 360 * i * 2 ^ single.scale ≤ 360 * n * 2 ^ single.scale :=
        Nat.mul_le_mul_right _ (Nat.mul_le_mul_left _ hin)
    _ = 360 * 2 ^ single.scale * n := Nat.mul_right_comm ..
    _ < 2 ^ (single.precision + 134) * n := Nat.mul_lt_mul_of_pos_right (by decide +kernel) hn

theorem round_lt_round (hn : 0 < n) (hn' : n ≤ 2 ^ 18) (hij : i < j) (hj : j ≤ n) :
    single.round (360 * i * 2 ^ single.scale) n < single.round (360 * j * 2 ^ single.scale) n := by
  have happart := exact_add_le hn hn' hij
  have hi := abs_le.1 (exact_sub_round hn (by omega : i ≤ n))
  have hj := abs_le.1 (exact_sub_round hn hj)
  have hlt : (single.round (360 * i * 2 ^ single.scale) n : ℚ) <
      single.round (360 * j * 2 ^ single.scale) n := by linarith
  exact_mod_cast hlt

theorem angle_whole (hn : 0 < n) (hn' : n ≤ 2 ^ 18) (hin : i ≤ n) :
    angle (whole n) (whole i) = single.round (360 * i * 2 ^ single.scale) n := by
  have hle : (2 : Nat) ^ 18 ≤ 2 ^ 53 := by decide
  rw [whole_eq (by omega), whole_eq (by omega), angle_eq hn hn' hin]

theorem round_full (hn : 0 < n) :
    single.round (360 * n * 2 ^ single.scale) n = 360 * 2 ^ single.scale := by
  have hfits : single.Fits (360 * 2 ^ single.scale) := wide_single.fits (by decide)
  rw [← single.round_of_fits hfits]
  apply round_congr hn (by decide)
  ring

/-! Angles as numbers -/

theorem ofInt_degrees_single : (Number.ofInt 360 : Single) =
    .finite false (360 * 2 ^ single.scale) (wide_single.fits (by decide)) := by
  rw [← Number.ofRatio_units]
  exact Number.ofInt_natCast 360

theorem ofInt_whole (h : whole n < 2 ^ double.limit) :
    (Number.ofInt n : Double) = .finite false (whole n) (double.fits_round h) := by
  rw [Number.ofInt_natCast]
  exact Number.ofRatio_of_lt false h

theorem whole_lt (h : (Number.ofInt n : Double).isFinite = true) : whole n < 2 ^ double.limit := by
  rw [Number.ofInt_natCast, Number.ofRatio] at h
  split at h
  · assumption
  · cases h

theorem isFinite_ofInt (h : n ≤ 2 ^ 63) : (Number.ofInt n : Double).isFinite = true := by
  have hle : whole n ≤ 2 ^ 63 * 2 ^ double.scale := by
    apply round_le_of_fits one_lt_double (by decide +kernel) (by decide)
    rw [Nat.mul_one]
    exact Nat.mul_le_mul_right _ h
  rw [ofInt_whole (hle.trans_lt (by decide +kernel))]
  rfl

theorem partOfTurn_whole {m : Nat} (hu : double.Fits u) (hm : whole m ≤ u) (h0 : 0 < m)
    (hi : i ≤ m) : ∃ hfits, partOfTurn (.finite false u hu) (.ofInt i) =
      .finite false (angle u (whole i)) hfits := by
  have hv := (whole_mono hi).trans hm
  rw [ofInt_whole (hv.trans_lt hu.2)]
  exact ⟨_, partOfTurn_finite hu _ ((two_pow_le_whole h0).trans hm) hv⟩

theorem angles_ordered {m : Nat} (hu : double.Fits u) (hm : whole m ≤ u) (h0 : 0 < m)
    (hij : i ≤ j) (hj : j ≤ m) :
    (partOfTurn (.finite false u hu) (.ofInt i)).le (partOfTurn (.finite false u hu) (.ofInt j)) ∧
      (partOfTurn (.finite false u hu) (.ofInt j)).le (.ofInt 360) := by
  obtain ⟨_, hangle⟩ := partOfTurn_whole hu hm h0 (hij.trans hj)
  obtain ⟨_, hangle'⟩ := partOfTurn_whole hu hm h0 hj
  rw [hangle, hangle', ofInt_degrees_single, Number.le_finite, Number.le_finite]
  exact ⟨angle_mono u (whole_mono hij),
    angle_le ((two_pow_le_whole h0).trans hm) hu ((whole_mono hj).trans hm)⟩

end FullTurn

/-- Angles of `n` parts of a full turn, each the number nearest to the exact one. -/
structure EvenlySpaced (n : Int) (angle : Int → Single) : Prop where
  nearest : ∀ i, 0 ≤ i → i < n → ∃ k h, angle i = .finite false k h ∧
    single.Nearest (360 * i / n * 2 ^ single.scale) k
  first : angle 0 = .zero false
  increasing : ∀ i j, 0 ≤ i → i < j → j < n → (angle i).lt (angle j)
  below : ∀ i, 0 ≤ i → i < n → (angle i).lt (.ofInt 360)

open FullTurn in
theorem evenlySpaced {n : Int} (h0 : 1 ≤ n) (hn : n ≤ 2 ^ 18) :
    EvenlySpaced n fun i => partOfTurn (.ofInt n) (.ofInt i) := by
  lift n to Nat using by omega
  have hpos : 0 < n := by omega
  have hn : n ≤ 2 ^ 18 := by exact_mod_cast hn
  have hlt : whole n < 2 ^ double.limit := by
    rw [whole_eq (hn.trans (by decide))]
    exact (Nat.mul_le_mul_right _ hn).trans_lt (by decide +kernel)
  have hangle : ∀ i ≤ n, ∃ hfits, partOfTurn (.ofInt n) (.ofInt i) =
      .finite false (single.round (360 * i * 2 ^ single.scale) n) hfits := by
    intro i hi
    rw [ofInt_whole hlt, ← angle_whole hpos hn hi]
    exact partOfTurn_whole _ (Nat.le_refl _) hpos hi
  constructor
  · intro i hi hin
    lift i to Nat using hi
    obtain ⟨hfits, h⟩ := hangle i (by omega)
    refine ⟨_, hfits, h, ?_⟩
    have hexact : (360 * (i : ℤ) : ℚ) / (n : ℤ) * 2 ^ single.scale = exact n i := by
      rw [exact]
      push_cast
      ring
    rw [hexact]
    exact nearest_round one_lt_single _ hpos
  · obtain ⟨_, h⟩ := hangle 0 (by omega)
    simp only [Nat.mul_zero, Nat.zero_mul, round_zero _ hpos] at h
    exact h
  · intro i j hi hij hj
    lift i to Nat using hi
    lift j to Nat using by omega
    obtain ⟨_, h⟩ := hangle i (by omega)
    obtain ⟨_, h'⟩ := hangle j (by omega)
    rw [h, h', Number.lt_finite]
    exact round_lt_round hpos hn (by omega) (by omega)
  · intro i hi hin
    lift i to Nat using hi
    obtain ⟨_, h⟩ := hangle i (by omega)
    rw [h, ofInt_degrees_single, Number.lt_finite, ← round_full hpos]
    exact round_lt_round hpos hn (by omega) (Nat.le_refl n)

end SolidScript
