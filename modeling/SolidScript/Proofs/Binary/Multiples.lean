import SolidScript.Proofs.Binary.Scaling
import SolidScript.Proofs.Yields

/-!
# Multiples of a number

The multiples of a number by whole numbers with fewer digits than the precision stay apart when they
are rounded: where a step is more than a unit, the number itself is more than a step.
-/

set_option autoImplicit false

attribute [local instance (10000)] instPowNat

namespace SolidScript
namespace Binary

namespace Format

variable {f : Format} {m n k i j : Nat}

theorem step_mono (f : Format) (h : m ≤ n) : f.step m ≤ f.step n := by
  have := log2_mono h
  exact Nat.pow_le_pow_right (by decide) (by unfold excess; omega)

theorem round_of_step_eq_one (h : f.step n = 1) : f.round n 1 = n := by
  simp [round, h]

theorem step_mul_lt (hk : 0 < k) (hj : j < 2 ^ (f.precision - 1)) :
    f.step (k * j) = 1 ∨ f.step (k * j) < k := by
  have hp := f.precision_pos
  by_cases he : f.excess (k * j) = 0
  · exact .inl (by rw [step, he])
  · right
    have h0 : k * j ≠ 0 := by
      intro h0
      rw [h0, excess, Nat.log2_zero] at he
      omega
    have hlow : 2 ^ f.excess (k * j) * 2 ^ (f.precision - 1) ≤ k * j := by
      have hlog : f.excess (k * j) + (f.precision - 1) = (k * j).log2 := by
        unfold excess at he ⊢
        omega
      rw [← Nat.pow_add, hlog]
      exact Nat.log2_self_le h0
    have hhigh : k * j < k * 2 ^ (f.precision - 1) := Nat.mul_lt_mul_of_pos_left hj hk
    exact Nat.lt_of_mul_lt_mul_right (hlow.trans_lt hhigh)

theorem round_mul_lt_round_mul (hk : 0 < k) (hij : i < j) (hj : j < 2 ^ (f.precision - 1)) :
    f.round (k * i) 1 < f.round (k * j) 1 := by
  have hlt : k * i + k ≤ k * j := by
    rw [← Nat.mul_succ]
    exact Nat.mul_le_mul_left k hij
  have hmono := f.step_mono (by omega : k * i ≤ k * j)
  rcases step_mul_lt hk hj with hone | hstep
  · have hone' : f.step (k * i) = 1 := by
      have := f.step_pos (k * i)
      omega
    rw [round_of_step_eq_one hone, round_of_step_eq_one hone']
    omega
  · -- neither is moved by more than half of a step
    have hi := abs_le.1 (f.round_error (k * i) Nat.one_pos)
    have hj := abs_le.1 (f.round_error (k * j) Nat.one_pos)
    rw [Nat.div_one, Nat.cast_one, div_one] at hi hj
    have hmono' : (f.step (k * i) : ℚ) ≤ f.step (k * j) := by exact_mod_cast hmono
    have hstep' : (f.step (k * j) : ℚ) < k := by exact_mod_cast hstep
    have hlt' : ((k * i : ℕ) : ℚ) + k ≤ (k * j : ℕ) := by exact_mod_cast hlt
    have hround : (f.round (k * i) 1 : ℚ) < f.round (k * j) 1 := by linarith [hi.1, hj.2]
    exact_mod_cast hround

end Format

namespace Number

variable {f : Format} {x : Number f} {m n i j : Nat}

theorem mul_ofInt (hf : f.Wide) (s : Bool) (hm : f.Fits m) (hi : i ≤ 2 ^ f.precision) :
    (.finite s m hm * .ofInt i : Number f) = ofRatio s (m * i) 1 := by
  rw [ofInt_of_le hf hi, finite_mul_finite, Bool.bne_false]
  exact ofRatio_congr s (Nat.two_pow_pos _) (by decide) (by ring)

theorem magnitude_finite (s : Bool) (hm : f.Fits m) :
    (finite s m hm).magnitude = .finite false m hm := by
  cases s <;> rfl

theorem lt_irrefl (x : Number f) : x.lt x = false := by
  cases x <;> simp [Number.lt, compare?]

/-- Of two small multiples of a number that is not zero the later one has the larger magnitude, as
long as the last one is finite. -/
theorem magnitude_mul_lt (hf : f.Wide) (h0 : x.isZero = false) (hx : x.isFinite = true)
    (hp : 1 < f.precision) (hij : i < j) (hjn : j ≤ n) (hn : n < 2 ^ (f.precision - 1))
    (hfinite : (x * .ofInt n).isFinite = true) :
    (x * .ofInt i).magnitude.lt (x * .ofInt j).magnitude = true := by
  cases x with
  | finite s m hm =>
    have hm0 : 0 < m := Nat.pos_of_ne_zero (by simpa [isZero] using h0)
    have hdigits : 2 ^ (f.precision - 1) ≤ 2 ^ f.precision :=
      Nat.pow_le_pow_right (by decide) (Nat.sub_le _ _)
    rw [mul_ofInt hf s hm (by omega), isFinite_ofRatio] at hfinite
    have hbound : ∀ l ≤ n, f.round (m * l) 1 < 2 ^ f.limit := fun l hl =>
      lt_of_le_of_lt (Format.round_mono hp (by decide) (by decide)
        (Nat.mul_le_mul_right _ (Nat.mul_le_mul_left _ hl))) hfinite
    rw [mul_ofInt hf s hm (by omega), mul_ofInt hf s hm (by omega),
      ofRatio_of_lt s (hbound i (by omega)), ofRatio_of_lt s (hbound j hjn), magnitude_finite,
      magnitude_finite, lt_finite]
    exact Format.round_mul_lt_round_mul hm0 hij (by omega)
  | _ => cases hx

end Number
end Binary

open Binary Number

theorem Scalar.narrow_whole {i : Nat} (hi : i ≤ 2 ^ 24) :
    (Scalar.whole i).narrow = .ok (.ofInt i) := by
  have hi' : i ≤ 2 ^ Format.double.precision :=
    hi.trans (Nat.pow_le_pow_right (by decide) (by decide))
  have hread : wholeToDouble i =
      .ok (.finite false (i * 2 ^ Format.double.scale) (Format.wide_double.fits hi')) := by
    rw [wholeToDouble, ofInt_of_le Format.wide_double hi']
    rfl
  rw [Scalar.narrow, hread, ok_bind, Number.convert,
    ofInt_of_le (f := .single) Format.wide_single hi, ← ofRatio_units]
  exact congrArg Except.ok (ofRatio_congr false (Nat.two_pow_pos _) (by decide) (by ring))

end SolidScript
