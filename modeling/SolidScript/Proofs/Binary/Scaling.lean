import SolidScript.Proofs.Binary.Order
import SolidScript.Proofs.Binary.Whole

/-!
# Scaling by powers of two

Twice a quotient with as many digits as the precision rounds to twice what the quotient rounds to.
So there a number is half another before and after both are rounded to a format. A number goes to a
format of more digits and a wider range without rounding, and back again.
-/

set_option autoImplicit false

attribute [local instance (10000)] instPowNat

namespace SolidScript.Binary

namespace Format

variable {f : Format} {a b m n : Nat}

theorem step_two_mul (hb : 0 < b) (h : 2 ^ (f.precision - 1) * b ≤ a) :
    f.step (2 * a / b) = 2 * f.step (a / b) := by
  have hq : 2 ^ (f.precision - 1) ≤ a / b := (Nat.le_div_iff_mul_le hb).2 h
  have h0 : a / b ≠ 0 := by have := Nat.two_pow_pos (f.precision - 1); omega
  have hlog := (Nat.le_log2 h0).2 hq
  have hlow : 2 ^ ((a / b).log2 + 1) ≤ 2 * a / b := by
    have hle := Nat.mul_le_of_le_div _ _ _ (Nat.log2_self_le h0)
    rw [Nat.le_div_iff_mul_le hb, Nat.pow_succ', Nat.mul_assoc]
    exact Nat.mul_le_mul_left 2 hle
  have hhigh : 2 * a / b < 2 ^ ((a / b).log2 + 1 + 1) := by
    have hlt := (Nat.div_lt_iff_lt_mul hb).1 (Nat.lt_log2_self (n := a / b))
    rw [Nat.div_lt_iff_lt_mul hb, Nat.pow_succ', Nat.mul_assoc]
    omega
  have hp := f.precision_pos
  rw [step_eq (log2_eq hlow hhigh), step_eq rfl, ← Nat.pow_succ']
  congr 1
  omega

theorem round_two_mul (hb : 0 < b) (h : 2 ^ (f.precision - 1) * b ≤ a) :
    f.round (2 * a) b = 2 * f.round a b := by
  have hhalf : half (2 * a) (b * (2 * f.step (a / b))) = half a (b * f.step (a / b)) := by
    rw [Nat.mul_comm 2 a, Nat.mul_comm 2, ← Nat.mul_assoc]
    exact half_mul_right a _ (by decide)
  simp only [round, step_two_mul hb h, hhalf]
  ring

theorem two_mul_round_half (h : f.Fits n) (hn : 2 ^ f.precision ≤ n) : 2 * f.round n 2 = n := by
  have hdigits : 2 ^ (f.precision - 1) * 2 ≤ n := by
    rwa [← Nat.pow_succ, Nat.succ_eq_add_one, Nat.sub_one_add_one f.precision_pos.ne']
  rw [← round_two_mul (by decide) hdigits]
  exact (round_congr (by decide) (by decide) (by ring)).trans (f.round_of_fits h)

end Format

namespace Number

variable {f g : Format} {x y : Number f} {m n : Nat}

/-- A box that is moved by an offset has its middle at the origin if twice the offset is minus the
extent. -/
inductive Centres : Number f → Number f → Prop where
  | units {s t : Bool} {m n : Nat} (hm : f.Fits m) (hn : f.Fits n)
    (h : 2 * signed s m = -signed t n) : Centres (finite s m hm) (finite t n hn)

theorem centres_of_units (s : Bool) (hm : f.Fits m) (hn : f.Fits n) (h : 2 * m = n) :
    (finite (!s) m hm).Centres (finite s n hn) := by
  subst h
  constructor
  cases s <;> simp [signed]

theorem Centres.exists (h : x.Centres y) (h0 : y.isZero = false) : ∃ s m hm hn,
    x = .finite (!s) m hm ∧ y = .finite s (2 * m) hn := by
  obtain @⟨s, t, m, n, hm, hn, hunits⟩ := h
  have hn0 : n ≠ 0 := by simpa [isZero] using h0
  have habs := congrArg Int.natAbs hunits
  rw [Int.natAbs_mul, Int.natAbs_neg, natAbs_signed, natAbs_signed] at habs
  obtain rfl : 2 * m = n := habs
  obtain rfl : s = !t := by
    cases s <;> cases t <;> simp [signed] at hunits ⊢ <;> omega
  exact ⟨t, m, hm, hn, rfl, rfl⟩

theorem isFinite_ofRatio {s : Bool} {a b : Nat} :
    (ofRatio s a b : Number f).isFinite = true ↔ f.round a b < 2 ^ f.limit := by
  unfold ofRatio
  split <;> simp_all [isFinite]

/-- Rounding an offset and an extent each on its own keeps the one half of the other, as long as
the extent has a digit to spare in the format that it is rounded to. -/
theorem Centres.convert (h : x.Centres y)
    (hlow : ∀ s n hn, y = .finite s n hn → 2 ^ g.precision * 2 ^ f.scale ≤ n * 2 ^ g.scale)
    (hy : (y.convert : Number g).isFinite = true) :
    (x.convert : Number g).Centres (y.convert : Number g) := by
  have h0 : y.isZero = false := by
    cases y with
    | finite s n hn =>
      have hpos : 0 < n * 2 ^ g.scale :=
        (Nat.mul_pos (Nat.two_pow_pos _) (Nat.two_pow_pos _)).trans_le (hlow s n hn rfl)
      exact beq_false_of_ne (Nat.pos_of_mul_pos_right hpos).ne'
    | _ => rfl
  obtain ⟨s, m, hm, hn, rfl, rfl⟩ := h.exists h0
  have hpow : 2 ^ g.precision = 2 * 2 ^ (g.precision - 1) := by
    rw [← Nat.pow_succ', Nat.succ_eq_add_one, Nat.sub_one_add_one g.precision_pos.ne']
  have hdigits : 2 ^ (g.precision - 1) * 2 ^ f.scale ≤ m * 2 ^ g.scale := by
    have := hlow s _ hn rfl
    rw [hpow, Nat.mul_assoc, Nat.mul_assoc] at this
    omega
  have hround : g.round (2 * m * 2 ^ g.scale) (2 ^ f.scale) =
      2 * g.round (m * 2 ^ g.scale) (2 ^ f.scale) := by
    rw [Nat.mul_assoc]
    exact Format.round_two_mul (Nat.two_pow_pos _) hdigits
  have hlimit := isFinite_ofRatio.1 hy
  have hlimit' : g.round (m * 2 ^ g.scale) (2 ^ f.scale) < 2 ^ g.limit := by omega
  rw [Number.convert, Number.convert, ofRatio_of_lt _ hlimit, ofRatio_of_lt _ hlimit']
  exact centres_of_units s _ _ hround.symm

theorem centres_half (s : Bool) (hn : f.Fits n) (h : 2 ^ f.precision ≤ n) :
    (ofRatio (!s) n 2 : Number f).Centres (finite s n hn) := by
  have htwice := Format.two_mul_round_half hn h
  have hlt : f.round n 2 < 2 ^ f.limit := by
    have := hn.2
    omega
  rw [ofRatio_of_lt _ hlt]
  exact centres_of_units s _ hn htwice

/-! Products -/

theorem finite_mul_finite (s t : Bool) (hm : f.Fits m) (hn : f.Fits n) :
    (.finite s m hm * .finite t n hn : Number f) = ofRatio (s != t) (m * n) (2 ^ f.scale) := rfl

theorem isFinite_of_mul_left (h : (x * y).isFinite = true) :
    x.isFinite = true := by
  cases x with
  | finite => rfl
  | nan => cases h
  | infinite s =>
    cases y with
    | nan => cases h
    | infinite t | finite t n hn =>
      change (Number.mul _ _).isFinite = true at h
      simp only [Number.mul] at h
      split at h <;> cases h

theorem isFinite_of_mul_right (h : (x * y).isFinite = true) : y.isFinite = true :=
  isFinite_of_mul_left (mul_comm x y ▸ h)

theorem mul_neg_add_mul (h : (x * y).isFinite = true) : x * -y + y * x = zero false := by
  have hx := isFinite_of_mul_left h
  have hy := isFinite_of_mul_right h
  cases x with
  | finite s m hm => cases y with
    | finite t n hn =>
      rw [mul_comm (.finite t n hn)]
      have hlt : f.round (m * n) (2 ^ f.scale) < 2 ^ f.limit := isFinite_ofRatio.1 h
      rw [neg_finite, finite_mul_finite, finite_mul_finite, ofRatio_of_lt _ hlt,
        ofRatio_of_lt _ hlt, Bool.bne_not]
      change Number.add _ _ = _
      rw [Number.add, if_neg (by cases s != t <;> decide), if_pos rfl]
    | _ => cases hy
  | _ => cases hx

/-! Half and twice a number -/

theorem ofInt_of_le (hf : f.Wide) {k : Nat} (hk : k ≤ 2 ^ f.precision) :
    (ofInt k : Number f) = .finite false (k * 2 ^ f.scale) (hf.fits hk) := by
  rw [ofInt_natCast, ofRatio_units]

theorem ofInt_two (hf : f.Wide) : ∃ h, (ofInt 2 : Number f) = .finite false (2 * 2 ^ f.scale) h :=
  ⟨_, ofInt_of_le hf (Nat.pow_le_pow_right (by decide : 0 < 2) f.precision_pos)⟩

theorem div_two (hf : f.Wide) (s : Bool) (hn : f.Fits n) :
    (.finite s n hn / .ofInt 2 : Number f) = ofRatio s n 2 := by
  obtain ⟨h2, htwo⟩ := ofInt_two hf
  have hpos := Nat.two_pow_pos f.scale
  change Number.div _ _ = _
  rw [htwo, Number.div, if_neg (by omega), Bool.bne_false]
  exact ofRatio_congr s (by omega) (by decide) (by ring)

theorem two_mul (hf : f.Wide) (s : Bool) (hn : f.Fits n) :
    (.ofInt 2 * .finite s n hn : Number f) = ofRatio s (2 * n) 1 := by
  obtain ⟨h2, htwo⟩ := ofInt_two hf
  rw [htwo, finite_mul_finite, Bool.false_bne]
  exact ofRatio_congr s (Nat.two_pow_pos _) (by decide) (by ring)

theorem neg_div_two_centres (hf : f.Wide) (s : Bool) (hn : f.Fits n) (h : 2 ^ f.precision ≤ n) :
    (-.finite s n hn / .ofInt 2 : Number f).Centres (.finite s n hn) := by
  rw [neg_finite, div_two hf]
  exact centres_half s hn h

theorem neg_centres_two_mul (hf : f.Wide) (s : Bool) (hn : f.Fits n) (h : 2 ^ (f.precision - 1) ≤ n)
    (hfinite : (.ofInt 2 * .finite s n hn : Number f).isFinite = true) :
    (-.finite s n hn : Number f).Centres (.ofInt 2 * .finite s n hn) := by
  rw [two_mul hf, isFinite_ofRatio] at hfinite
  have hround : f.round (2 * n) 1 = 2 * n := by
    rw [Format.round_two_mul (by decide) (by omega), f.round_of_fits hn]
  rw [two_mul hf, ofRatio_of_lt _ hfinite]
  exact centres_of_units s hn _ hround.symm

end Number

/-! To a wider format and back -/

/-- Whether every number of a format is one of another. -/
structure Format.Embeds (f g : Format) : Prop where
  precision : f.precision ≤ g.precision
  scale : f.scale ≤ g.scale
  limit : f.limit + (g.scale - f.scale) ≤ g.limit

theorem Format.single_embeds : single.Embeds double := ⟨by decide, by decide, by decide⟩

variable {f g : Format}

theorem Format.Embeds.two_pow_scale (h : f.Embeds g) :
    2 ^ g.scale = 2 ^ (g.scale - f.scale) * 2 ^ f.scale := by
  rw [← Nat.pow_add, Nat.sub_add_cancel h.scale]

theorem Format.Embeds.fits (h : f.Embeds g) {n : Nat} (hn : f.Fits n) :
    g.Fits (n * 2 ^ (g.scale - f.scale)) := by
  obtain ⟨q, hq⟩ := step_dvd hn
  have hdigits : q < 2 ^ f.precision := by
    have hlt : f.step n * q < 2 ^ f.excess n * 2 ^ f.precision := by
      rw [← hq, ← Nat.pow_add, Nat.add_comm]
      exact f.lt_two_pow_excess n
    exact Nat.lt_of_mul_lt_mul_left hlt
  have hunits : n * 2 ^ (g.scale - f.scale) = q * 2 ^ (f.excess n + (g.scale - f.scale)) := by
    rw [Nat.pow_add, ← Nat.mul_assoc, Nat.mul_comm q]
    exact congrArg (· * 2 ^ (g.scale - f.scale)) hq
  constructor
  · rw [hunits]
    exact g.mod_step_of_digits
      (hdigits.le.trans (Nat.pow_le_pow_right (by decide) h.precision))
  · calc n * 2 ^ (g.scale - f.scale) < 2 ^ f.limit * 2 ^ (g.scale - f.scale) :=
          Nat.mul_lt_mul_of_pos_right hn.2 (Nat.two_pow_pos _)
      _ ≤ 2 ^ g.limit := by
          rw [← Nat.pow_add]
          exact Nat.pow_le_pow_right (by decide) h.limit

namespace Number

theorem isFinite_of_convert {x : Number f} (h : (x.convert : Number g).isFinite = true) :
    x.isFinite = true := by
  cases x with
  | finite => rfl
  | _ => cases h

theorem convert_finite (h : f.Embeds g) (s : Bool) {n : Nat} (hn : f.Fits n) :
    ((finite s n hn).convert : Number g) = .finite s (n * 2 ^ (g.scale - f.scale)) (h.fits hn) := by
  rw [Number.convert, ← ofRatio_units]
  apply ofRatio_congr s (Nat.two_pow_pos _) (by decide)
  rw [h.two_pow_scale, Nat.mul_one, Nat.mul_assoc]

theorem convert_convert (h : f.Embeds g) (x : Number f) :
    (x.convert : Number g).convert = x := by
  cases x with
  | finite s n hn =>
    rw [convert_finite h, Number.convert, ← ofRatio_units s hn]
    apply ofRatio_congr s (Nat.two_pow_pos _) (by decide)
    rw [h.two_pow_scale, Nat.mul_one, Nat.mul_assoc]
  | _ => rfl

end Number

end SolidScript.Binary

/-! Scalars as doubles -/

namespace SolidScript.Scalar
open Binary

variable {s : Scalar} {i : Int} {x : Double}

theorem toDouble_whole_eq_ok : (whole i).toDouble = .ok x ↔
    x = .ofInt i ∧ (Number.ofInt i : Double).isFinite = true := by
  rw [toDouble, wholeToDouble]
  generalize Number.ofInt i = y
  by_cases h : y.isFinite = true
  · simp only [h, if_true, Except.ok.injEq, and_true, eq_comm]
  · simp only [h, Bool.false_eq_true, if_false, reduceCtorEq, false_iff]
    exact And.right

theorem toDouble_truth (b : Bool) : (truth b).toDouble = (whole b.toInt).toDouble := by
  have hfinite : (Number.ofInt b.toInt : Double).isFinite = true := by cases b <;> decide +kernel
  rw [toDouble_whole_eq_ok.2 ⟨rfl, hfinite⟩, toDouble]

theorem narrow_of_toDouble (h : s.toDouble = .ok x) : s.narrow = .ok x.convert := by
  cases s with
  | truth b =>
    obtain rfl := Except.ok.inj h
    cases b <;> decide +kernel
  | whole i =>
    rw [narrow, show wholeToDouble i = .ok x from h]
    rfl
  | double y =>
    obtain rfl := Except.ok.inj h
    rfl
  | single y =>
    obtain rfl := Except.ok.inj h
    rw [narrow, Number.convert_convert Format.single_embeds]
  | text t =>
    rw [narrow, show readDouble t = .ok x from h]
    rfl
  | absent | foreign => cases h

end SolidScript.Scalar
