import SolidScript.Proofs.Binary.Real
import SolidScript.Proofs.Binary.Scaling

/-!
# Rounding on the extended line

With the infinities as its ends, the extended line has a value for every number but NaN. A number
is a rounding of a value if it comes from a quotient that is written out in any way. Roundings keep
the order of the values, and a value has only one rounding of a given sign, so that what is rounded
twice can be reasoned about without looking at how.
-/

set_option autoImplicit false

attribute [local instance (10000)] instPowNat
attribute [local instance] SolidScript.Binary.atLeastTwo

namespace SolidScript.Binary

/-! The end of the range -/

namespace Format

variable {f : Format} {a b : Nat}

def threshold (f : Format) : Nat := 2 ^ f.limit - 2 ^ (f.limit - f.precision - 1)

/-- The least value that has no finite rounding. -/
noncomputable def bound (f : Format) : ℝ := f.threshold / 2 ^ f.scale

theorem Wide.bound_eq (hf : f.Wide) :
    f.bound = 2 ^ (f.limit - f.scale) - 2 ^ (f.limit - f.precision - 1 - f.scale) := by
  have hlimit : f.precision + f.scale < f.limit := hf
  have hle : 2 ^ (f.limit - f.precision - 1) ≤ 2 ^ f.limit :=
    Nat.pow_le_pow_right (by decide) (by omega)
  rw [bound, threshold, Nat.cast_sub hle, pow_sub₀ _ two_ne_zero (by omega : f.scale ≤ f.limit),
    pow_sub₀ _ two_ne_zero (by omega : f.scale ≤ f.limit - f.precision - 1), ← sub_mul,
    ← div_eq_mul_inv]
  push_cast
  rfl

theorem Wide.exists_threshold (hf : f.Wide) : ∃ k, 2 ^ f.limit = 2 ^ (f.precision + 1) * 2 ^ k ∧
    f.threshold + 2 ^ k = 2 ^ f.limit ∧ f.step (2 ^ f.limit) = 4 * 2 ^ k := by
  have hlimit : f.precision + f.scale < f.limit := hf
  have hle : 2 ^ (f.limit - f.precision - 1) ≤ 2 ^ f.limit :=
    Nat.pow_le_pow_right (by decide) (by omega)
  refine ⟨f.limit - f.precision - 1, ?_, ?_, ?_⟩
  · rw [← Nat.pow_add]
    congr 1
    omega
  · rw [threshold]
    omega
  · rw [step_eq Nat.log2_two_pow, ← Nat.pow_add 2 2]
    congr 1
    omega

theorem round_threshold (hf : f.Wide) : f.round f.threshold 1 = 2 ^ f.limit := by
  obtain ⟨k, hpow, hsum, hstep⟩ := hf.exists_threshold
  have hk := Nat.two_pow_pos k
  apply round_eq_of_power (by decide)
  · omega
  · omega
  · rw [Nat.log2_two_pow]
  · omega

theorem round_lt_iff (hf : f.Wide) (hp : 1 < f.precision) (hb : 0 < b) :
    f.round a b < 2 ^ f.limit ↔ a < f.threshold * b := by
  obtain ⟨k, hpow, hsum, -⟩ := hf.exists_threshold
  constructor
  · intro hlt
    by_contra hle
    have hmono : f.round f.threshold 1 ≤ f.round a b := round_mono hp (by decide) hb (by omega)
    rw [round_threshold hf] at hmono
    omega
  · intro hlt
    by_contra hle
    have hlargest : f.Short ((2 ^ f.precision - 1) * 2 ^ (k + 1)) :=
      f.mod_step_of_digits (Nat.sub_le _ _)
    have hunits : (2 ^ f.precision - 1) * 2 ^ (k + 1) + 2 ^ (k + 1) = 2 ^ f.limit := by
      rw [← Nat.succ_mul, Nat.succ_eq_add_one, Nat.sub_one_add_one (Nat.two_pow_pos _).ne', hpow,
        Nat.pow_succ, Nat.pow_succ]
      ring
    generalize (2 ^ f.precision - 1) * 2 ^ (k + 1) = m at hlargest hunits
    have hbelow : m < f.round a b := by
      have := Nat.two_pow_pos (k + 1)
      omega
    have hmiddle := midpoint_le (by exact_mod_cast hbelow) ((nearest_round hp a hb).le m hlargest)
    have hquotient : (a : ℚ) / b < f.threshold := by
      rw [div_lt_iff₀ (by exact_mod_cast hb)]
      exact_mod_cast hlt
    have htwice : 2 * f.threshold ≤ m + f.round a b := by
      rw [Nat.pow_succ] at hunits
      omega
    have htwice' : 2 * (f.threshold : ℚ) ≤ m + f.round a b := by exact_mod_cast htwice
    linarith

end Format

/-! Signs of nearest numbers -/

section
open Number

variable {f : Format} {q : ℚ} {m n : Nat}

theorem abs_sub_le_abs_sub_signed (h0 : 0 ≤ q) (t : Bool) (m : Nat) :
    |q - m| ≤ |q - signed t m| := by
  cases t with
  | false => exact le_rfl
  | true =>
    have hm : (0 : ℚ) ≤ m := Nat.cast_nonneg m
    simp only [signed, if_true]
    push_cast
    rw [sub_neg_eq_add, abs_of_nonneg (add_nonneg h0 hm), abs_le]
    constructor <;> linarith

theorem Format.Nearest.le_signed (hq : f.Nearest q n) (h0 : 0 ≤ q) (hm : f.Short m) (t : Bool) :
    |q - n| ≤ |q - signed t m| := (hq.le m hm).trans (abs_sub_le_abs_sub_signed h0 t m)

theorem Format.Nearest.even_signed (hq : f.Nearest q n) (h0 : 0 ≤ q) (hm : f.Short m) {t : Bool}
    (hne : signed t m ≠ n) (heq : |q - n| = |q - signed t m|) : n / f.step n % 2 = 0 := by
  have hopposite := abs_sub_le_abs_sub_signed h0 t m
  by_cases hmn : m = n
  · -- zero would be nearer than a number that is as near as its opposite
    subst hmn
    cases t with
    | false => exact absurd rfl hne
    | true =>
      have hzero := hq.le 0 f.fits_zero.1
      simp only [signed, if_true] at heq
      push_cast at heq hzero
      have hm : (0 : ℚ) ≤ m := Nat.cast_nonneg m
      rw [sub_neg_eq_add, abs_of_nonneg (add_nonneg h0 hm)] at heq
      rw [sub_zero, abs_of_nonneg h0, heq] at hzero
      have hm0 : (m : ℚ) = 0 := le_antisymm (by linarith) hm
      obtain rfl : m = 0 := by exact_mod_cast hm0
      exact absurd rfl hne
  · exact hq.even m hm hmn (le_antisymm (hq.le m hm) (hopposite.trans heq.ge))

end

namespace Number

variable {f g : Format} {x y : Number f} {s t : Bool} {a b c d n : Nat} {u v : EReal}

/-! Signs -/

@[simp] theorem isNaN_ofRatio : (ofRatio s a b : Number f).isNaN = false := by
  unfold ofRatio
  split <;> rfl

@[simp] theorem negative_ofRatio : (ofRatio s a b : Number f).negative = s := by
  unfold ofRatio
  split <;> rfl

theorem neg_ofRatio : (-ofRatio s a b : Number f) = ofRatio (!s) a b := by
  unfold ofRatio
  split <;> rfl

theorem convert_neg (x : Number f) : ((-x).convert : Number g) = -x.convert := by
  cases x with
  | finite s n hn => exact neg_ofRatio.symm
  | _ => rfl

theorem negative_convert (x : Number f) : (x.convert : Number g).negative = x.negative := by
  cases x with
  | finite s n hn => exact negative_ofRatio
  | _ => rfl

theorem isFinite_neg (x : Number f) : (-x).isFinite = x.isFinite := by cases x <;> rfl

theorem negative_ofInt (i : Int) : (ofInt i : Number f).negative = decide (i < 0) :=
  negative_ofRatio

theorem ofInt_neg {i : Int} (h : i ≠ 0) : (ofInt (-i) : Number f) = -ofInt i := by
  have hsign : decide (-i < 0) = !decide (i < 0) := by
    rw [← decide_not, decide_eq_decide]
    omega
  rw [ofInt, ofInt, neg_ofRatio, Int.natAbs_neg, hsign]

/-! Order -/

theorem infinite_le (h : x.isNaN = false) : (infinite true).le x = true := by
  cases x with
  | nan => cases h
  | infinite s => cases s <;> rfl
  | finite => rfl

theorem le_infinite (h : x.isNaN = false) : x.le (infinite false) = true := by
  cases x with
  | nan => cases h
  | infinite s => cases s <;> rfl
  | finite => rfl

theorem signed_round_le (hp : 1 < f.precision) (hb : 0 < b) (hd : 0 < d)
    (h : signed s a * d ≤ signed t c * b) :
    signed s (f.round a b) ≤ signed t (f.round c d) := by
  cases s <;> cases t <;>
    simp only [signed, if_true, Bool.false_eq_true, if_false, Int.neg_mul] at h ⊢
  · exact_mod_cast Format.round_mono hp hb hd (by exact_mod_cast h)
  · -- a value that is neither above nor below zero
    have ha : a * d = 0 := by
      have : (0 : ℤ) ≤ c * b := by positivity
      have : ((a * d : ℕ) : ℤ) ≤ 0 := by push_cast; omega
      omega
    have hc : c * b = 0 := by
      have : (0 : ℤ) ≤ a * d := by positivity
      have : ((c * b : ℕ) : ℤ) ≤ 0 := by push_cast; omega
      omega
    obtain rfl := (Nat.mul_eq_zero.1 ha).resolve_right hd.ne'
    obtain rfl := (Nat.mul_eq_zero.1 hc).resolve_right hb.ne'
    rw [f.round_zero hb, f.round_zero hd]
    rfl
  · omega
  · rw [Int.neg_le_neg_iff] at h ⊢
    exact_mod_cast Format.round_mono hp hd hb (by exact_mod_cast h)

theorem ofRatio_le (hp : 1 < f.precision) (hb : 0 < b) (hd : 0 < d)
    (h : signed s a * d ≤ signed t c * b) :
    (ofRatio s a b : Number f).le (ofRatio t c d) = true := by
  have hround := signed_round_le hp hb hd h
  unfold ofRatio
  split_ifs with hfirst hsecond hsecond
  · exact le_signed.2 hround
  · cases t with
    | false => exact le_infinite rfl
    | true => cases s <;> simp [signed] at hround <;> omega
  · cases s with
    | true => exact infinite_le rfl
    | false => cases t <;> simp [signed] at hround <;> omega
  · cases s with
    | true => exact infinite_le rfl
    | false =>
      cases t with
      | false => rfl
      | true =>
        have := Nat.two_pow_pos f.limit
        simp [signed] at hround
        omega

theorem eq_of_le_of_le (hxy : x.le y = true) (hyx : y.le x = true)
    (hsign : x.negative = y.negative) : x = y := by
  cases x with
  | nan => cases hxy
  | infinite s => cases y with
    | nan => cases hxy
    | infinite t => exact congrArg infinite hsign
    | finite t n hn => cases s <;> simp [Number.le, Number.lt, compare?] at hxy hyx
  | finite s m hm => cases y with
    | nan => cases hxy
    | infinite t => cases t <;> simp [Number.le, Number.lt, compare?] at hxy hyx
    | finite t n hn =>
      obtain rfl : s = t := hsign
      have hunits := le_antisymm (le_signed.1 hxy) (le_signed.1 hyx)
      obtain rfl : m = n := by rw [← natAbs_signed s m, hunits, natAbs_signed]
      rfl

/-! Values -/

/-- The value of a number, of which an infinity has the greatest or the least. -/
noncomputable def value? : Number f → Option EReal
  | .nan => none
  | .infinite s => some (if s then ⊥ else ⊤)
  | .finite s n _ => some ((signed s n / 2 ^ f.scale : ℝ) : EReal)

theorem value?_of_toReal? {r : ℝ} (h : x.toReal? = some r) : x.value? = some (r : EReal) := by
  obtain ⟨s, n, hn, rfl, rfl⟩ := toReal?_eq_some h
  rfl

theorem isFinite_of_value? {r : ℝ} (h : x.value? = some (r : EReal)) : x.isFinite = true := by
  cases x with
  | finite => rfl
  | nan => cases h
  | infinite s => cases s <;> simp [value?] at h

theorem value?_convert (h : f.Embeds g) (x : Number f) :
    (x.convert : Number g).value? = x.value? := by
  cases x with
  | finite s n hn =>
    have hscale : (2 : ℝ) ^ g.scale = 2 ^ f.scale * 2 ^ (g.scale - f.scale) := by
      rw [← pow_add, Nat.add_sub_cancel' h.scale]
    rw [convert_finite h, value?, value?, signed_mul, hscale]
    push_cast
    rw [mul_div_mul_right _ _ (by positivity)]
  | _ => rfl

/-! Roundings -/

/-- Whether a number comes out of rounding a value once, however that is written as a quotient. -/
inductive IsRounding : EReal → Number f → Prop where
  | ratio (s : Bool) (a : Nat) {b : Nat} (hb : 0 < b) :
    IsRounding ((signed s a / b / 2 ^ f.scale : ℝ) : EReal) (ofRatio s a b)
  | infinite (s : Bool) : IsRounding (if s then ⊥ else ⊤) (infinite s)

theorem isRounding_of_value? (h : x.value? = some u) : x.IsRounding u := by
  cases x with
  | nan => cases h
  | infinite s =>
    obtain rfl := Option.some.inj h
    exact .infinite s
  | finite s n hn =>
    obtain rfl := Option.some.inj h
    have hratio := IsRounding.ratio (f := f) s n Nat.one_pos
    rwa [ofRatio_units s hn, Nat.cast_one, div_one] at hratio

theorem isRounding_convert (h : x.value? = some u) : (x.convert : Number g).IsRounding u := by
  cases x with
  | nan => cases h
  | infinite s =>
    obtain rfl := Option.some.inj h
    exact .infinite s
  | finite s n hn =>
    obtain rfl := Option.some.inj h
    have hratio := IsRounding.ratio (f := g) s (n * 2 ^ g.scale) (Nat.two_pow_pos f.scale)
    have hvalue : (signed s (n * 2 ^ g.scale) / (2 ^ f.scale : ℕ) / 2 ^ g.scale : ℝ) =
        signed s n / 2 ^ f.scale := by
      rw [signed_mul]
      push_cast
      field_simp
    rwa [hvalue] at hratio

theorem isRounding_ofInt (i : Int) : (ofInt i : Number f).IsRounding ((i : ℝ) : EReal) := by
  have hratio := IsRounding.ratio (f := f) (i < 0) (i.natAbs * 2 ^ f.scale) Nat.one_pos
  have hvalue : (signed (i < 0) (i.natAbs * 2 ^ f.scale) / (1 : ℕ) / 2 ^ f.scale : ℝ) = i := by
    rw [signed_mul, signed_natAbs]
    push_cast
    field_simp
  rwa [hvalue] at hratio

namespace IsRounding

theorem isNaN (h : x.IsRounding u) : x.isNaN = false := by
  cases h with
  | ratio s a hb => exact isNaN_ofRatio
  | infinite s => rfl

theorem le (hp : 1 < f.precision) (hx : x.IsRounding u) (hy : y.IsRounding v) (h : u ≤ v) :
    x.le y = true := by
  cases hx with
  | ratio s a hb => cases hy with
    | ratio t c hd =>
      apply ofRatio_le hp hb hd
      rw [EReal.coe_le_coe_iff, div_le_div_iff_of_pos_right (by positivity),
        div_le_div_iff₀ (by exact_mod_cast hb) (by exact_mod_cast hd)] at h
      exact_mod_cast h
    | infinite t => cases t with
      | false => exact le_infinite isNaN_ofRatio
      | true => exact absurd (le_bot_iff.1 h) (EReal.coe_ne_bot _)
  | infinite s => cases s with
    | true => exact infinite_le hy.isNaN
    | false => cases hy with
      | ratio t c hd => exact absurd (top_le_iff.1 h) (EReal.coe_ne_top _)
      | infinite t => cases t with
        | false => rfl
        | true => exact absurd h (by simp)

end IsRounding

theorem exists_value?_of_le (h : x.le y = true) :
    ∃ u v, x.value? = some u ∧ y.value? = some v ∧ u ≤ v := by
  cases x with
  | nan => cases h
  | infinite s => cases y with
    | nan => cases h
    | infinite t =>
      refine ⟨_, _, rfl, rfl, ?_⟩
      cases s <;> cases t <;> first | cases h; done | simp
    | finite t n hn =>
      refine ⟨_, _, rfl, rfl, ?_⟩
      cases s with
      | false => cases h
      | true => exact bot_le
  | finite s m hm => cases y with
    | nan => cases h
    | infinite t =>
      refine ⟨_, _, rfl, rfl, ?_⟩
      cases t with
      | false => exact le_top
      | true => cases h
    | finite t n hn =>
      refine ⟨_, _, rfl, rfl, ?_⟩
      rw [EReal.coe_le_coe_iff, div_le_div_iff_of_pos_right (by positivity), Int.cast_le]
      exact le_signed.1 h

theorem convert_le (hp : 1 < g.precision) (h : x.le y = true) :
    (x.convert : Number g).le y.convert = true := by
  obtain ⟨u, v, hu, hv, huv⟩ := exists_value?_of_le h
  exact (isRounding_convert hu).le hp (isRounding_convert hv) huv

/-! Nearest numbers -/

/-- What a value is rounded to. It is finite within the bound of the format. There no number is
nearer, and the last bit of its word is zero if another one is as near. -/
structure IsNearest (u : EReal) (x : Number f) : Prop where
  isNaN : x.isNaN = false
  isFinite : x.isFinite = true ↔ ((-f.bound : ℝ) : EReal) < u ∧ u < (f.bound : EReal)
  positive : 0 < u → x.negative = false
  negative : u < 0 → x.negative = true
  le : ∀ (y : Number f) (r a b : ℝ), u = r → x.toReal? = some a → y.toReal? = some b →
    |r - a| ≤ |r - b|
  even : ∀ (y : Number f) (r a b : ℝ), u = r → x.toReal? = some a → y.toReal? = some b →
    a ≠ b → |r - a| = |r - b| → x.toBits % 2 = 0

theorem even_toBits (hf : f.Wide) (hp : 1 < f.precision) (s : Bool) (hn : f.Fits n) :
    (finite s n hn).toBits % 2 = n / f.step n % 2 := by
  obtain ⟨k, hk⟩ : ∃ k, f.limit = k + 1 := ⟨f.limit - 1, by unfold Format.Wide at hf; omega⟩
  have hinfinity := Format.even_of_two_pow hp k
  rw [← hk] at hinfinity
  obtain ⟨j, hj⟩ : ∃ j, 2 ^ (f.precision - 1) = 2 * j :=
    ⟨2 ^ (f.precision - 2), by rw [← Nat.pow_succ']; congr 1; omega⟩
  have hmul (e : Nat) : e * (2 * j) = 2 * (e * j) := Nat.mul_left_comm ..
  simp only [toBits, toBits.sign, infinityBits, magnitudeBits, hj, hmul]
  split <;> omega

theorem toReal?_ofRatio {r : ℝ} (h : (ofRatio s a b : Number f).toReal? = some r) :
    r = signed s (f.round a b) / 2 ^ f.scale := by
  have hlt := isFinite_ofRatio.1 (isFinite_of_toReal? h)
  rw [ofRatio_of_lt s hlt] at h
  exact (Option.some.inj h).symm

theorem signed_false (n : Nat) : signed false n = n := rfl

theorem abs_signed (s : Bool) (n : Nat) : |((signed s n : ℤ) : ℝ)| = n := by
  cases s <;> simp [signed]

theorem abs_ratio_sub (s t : Bool) (a b n : Nat) {k : ℝ} (hk : 0 < k) :
    |(signed s a / b / k - signed t n / k : ℝ)| = |(a / b - signed (s != t) n : ℝ)| / k := by
  rw [← sub_div, abs_div, abs_of_pos hk]
  congr 1
  have hopposite (q : ℝ) : |-q - n| = |q + n| := by
    rw [← abs_neg]
    ring_nf
  have hsame (q : ℝ) : |-q + n| = |q - n| := by
    rw [← abs_neg]
    ring_nf
  cases s <;> cases t <;> simp [signed, neg_div, hopposite, hsame]

theorem eq_false_of_ratio_pos {k : ℝ} (hk : 0 < k) (h : (0 : ℝ) < signed s a / b / k) :
    s = false := by
  cases s with
  | false => rfl
  | true =>
    have hle : (signed true a / b / k : ℝ) ≤ 0 := by
      simp only [signed, if_true]
      push_cast
      rw [neg_div, neg_div, neg_nonpos]
      positivity
    exact absurd h (not_lt.2 hle)

theorem eq_true_of_ratio_neg {k : ℝ} (hk : 0 < k) (h : (signed s a / b / k : ℝ) < 0) :
    s = true := by
  cases s with
  | true => rfl
  | false =>
    have hle : (0 : ℝ) ≤ signed false a / b / k := by
      rw [signed_false]
      positivity
    exact absurd h (not_lt.2 hle)

theorem isFinite_ofRatio_iff_abs_lt (hf : f.Wide) (hp : 1 < f.precision) (hb : 0 < b) :
    (ofRatio s a b : Number f).isFinite = true ↔
      |(signed s a / b / 2 ^ f.scale : ℝ)| < f.bound := by
  have hunit : (0 : ℝ) < 2 ^ f.scale := by positivity
  rw [isFinite_ofRatio, Format.round_lt_iff hf hp hb, Format.bound, abs_div, abs_div, abs_signed,
    Nat.abs_cast, abs_of_pos hunit, div_lt_div_iff_of_pos_right hunit,
    div_lt_iff₀ (by exact_mod_cast hb)]
  exact_mod_cast Iff.rfl

theorem abs_ratio_sub_round (s : Bool) (a b : Nat) :
    |(signed s a / b / 2 ^ f.scale - signed s (f.round a b) / 2 ^ f.scale : ℝ)| =
      |(a / b - f.round a b : ℝ)| / 2 ^ f.scale := by
  rw [abs_ratio_sub s s a b _ (by positivity), bne_self_eq_false, signed_false, Int.cast_natCast]

theorem abs_sub_round_le (hp : 1 < f.precision) (s : Bool) (a : Nat) (hb : 0 < b) {β : ℝ}
    (hβ : y.toReal? = some β) :
    |(signed s a / b / 2 ^ f.scale - signed s (f.round a b) / 2 ^ f.scale : ℝ)| ≤
      |(signed s a / b / 2 ^ f.scale - β : ℝ)| := by
  have hunit : (0 : ℝ) < 2 ^ f.scale := by positivity
  obtain ⟨t, m, hm, rfl, rfl⟩ := toReal?_eq_some hβ
  have hle := (Format.nearest_round hp a hb).le_signed (by positivity) hm.1 (s != t)
  rw [← Rat.cast_le (K := ℝ)] at hle
  push_cast at hle
  rwa [abs_ratio_sub_round, abs_ratio_sub s t a b m hunit, div_le_div_iff_of_pos_right hunit]

theorem even_of_abs_sub_round_eq (hp : 1 < f.precision) (s : Bool) (a : Nat) (hb : 0 < b) {β : ℝ}
    (hβ : y.toReal? = some β) (hne : (signed s (f.round a b) / 2 ^ f.scale : ℝ) ≠ β)
    (heq : |(signed s a / b / 2 ^ f.scale - signed s (f.round a b) / 2 ^ f.scale : ℝ)| =
      |(signed s a / b / 2 ^ f.scale - β : ℝ)|) :
    f.round a b / f.step (f.round a b) % 2 = 0 := by
  have hunit : (0 : ℝ) < 2 ^ f.scale := by positivity
  obtain ⟨t, m, hm, rfl, rfl⟩ := toReal?_eq_some hβ
  rw [abs_ratio_sub_round, abs_ratio_sub s t a b m hunit, div_left_inj' hunit.ne'] at heq
  have hunits : signed (s != t) m ≠ f.round a b := by
    intro h
    apply hne
    have hsigned : signed s (f.round a b) = signed t m := by
      cases s <;> cases t <;> simp [signed] at h ⊢ <;> omega
    rw [hsigned]
  apply (Format.nearest_round hp a hb).even_signed (by positivity) hm.1 hunits
  apply Rat.cast_injective (α := ℝ)
  push_cast
  exact heq

/-- The rounding of a quotient is the nearest number to it. -/
theorem isNearest_ofRatio (hf : f.Wide) (hp : 1 < f.precision) (s : Bool) (a : Nat) (hb : 0 < b) :
    (ofRatio s a b : Number f).IsNearest ((signed s a / b / 2 ^ f.scale : ℝ) : EReal) := by
  have hunit : (0 : ℝ) < 2 ^ f.scale := by positivity
  constructor
  · exact isNaN_ofRatio
  · rw [isFinite_ofRatio_iff_abs_lt hf hp hb, EReal.coe_lt_coe_iff, EReal.coe_lt_coe_iff, abs_lt]
  · intro h
    rw [negative_ofRatio, eq_false_of_ratio_pos hunit (EReal.coe_pos.1 h)]
  · intro h
    rw [negative_ofRatio, eq_true_of_ratio_neg hunit (EReal.coe_neg'.1 h)]
  · intro y r α β hr hα hβ
    obtain rfl := EReal.coe_injective hr
    obtain rfl := toReal?_ofRatio hα
    exact abs_sub_round_le hp s a hb hβ
  · intro y r α β hr hα hβ hne heq
    obtain rfl := EReal.coe_injective hr
    have hlt := isFinite_ofRatio.1 (isFinite_of_toReal? hα)
    obtain rfl := toReal?_ofRatio hα
    rw [ofRatio_of_lt s hlt, even_toBits hf hp]
    exact even_of_abs_sub_round_eq hp s a hb hβ hne heq

theorem IsRounding.isNearest (hf : f.Wide) (hp : 1 < f.precision) (h : x.IsRounding u) :
    x.IsNearest u := by
  cases h with
  | ratio s a hb => exact isNearest_ofRatio hf hp s a hb
  | infinite s =>
    constructor
    · rfl
    · cases s <;> simp [Number.isFinite]
    · cases s <;> simp [Number.negative]
    · cases s <;> simp [Number.negative]
    · intro y r a b hr ha
      cases ha
    · intro y r a b hr ha
      cases ha

/-- A value has one rounding, but for the sign of a zero. -/
theorem IsRounding.unique (hf : f.Wide) (hp : 1 < f.precision) (hx : x.IsRounding u)
    (hy : y.IsRounding u) (hzero : u = 0 → x.negative = y.negative) : x = y := by
  apply eq_of_le_of_le (hx.le hp hy le_rfl) (hy.le hp hx le_rfl)
  rcases lt_trichotomy u 0 with hu | hu | hu
  · rw [(hx.isNearest hf hp).negative hu, (hy.isNearest hf hp).negative hu]
  · exact hzero hu
  · rw [(hx.isNearest hf hp).positive hu, (hy.isNearest hf hp).positive hu]

end Number
end SolidScript.Binary
