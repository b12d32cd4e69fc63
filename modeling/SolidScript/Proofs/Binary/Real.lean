import SolidScript.Proofs.Binary.Whole

/-!
# Values of numbers

The real number that a finite number stands for, and operations that it makes exact.
-/

set_option autoImplicit false

namespace SolidScript.Binary

theorem atLeastTwo : Nat.AtLeastTwo 2 := inferInstance

-- The numeral two needs no proof of its own, in whichever file it stands.
attribute [local instance] atLeastTwo

namespace Number

variable {f : Format} {x y : Number f} {a : ℝ}

noncomputable def toReal? : Number f → Option ℝ
  | .finite s n _ => some (Number.signed s n / 2 ^ f.scale)
  | _ => none

theorem IsWhole.toReal? {i : ℤ} (h : x.IsWhole i) : x.toReal? = some (i : ℝ) := by
  obtain ⟨s, n, hn, rfl⟩ := h.exists
  rw [isWhole_finite] at h
  rw [Number.toReal?, h]
  push_cast
  field_simp

theorem toReal?_eq_some (h : x.toReal? = some a) :
    ∃ s n hn, x = .finite s n hn ∧ a = signed s n / 2 ^ f.scale := by
  cases x with
  | finite s n hn => exact ⟨s, n, hn, rfl, (Option.some.inj h).symm⟩
  | _ => cases h

theorem isFinite_of_toReal? (h : x.toReal? = some a) : x.isFinite = true := by
  obtain ⟨s, n, hn, rfl, -⟩ := toReal?_eq_some h
  rfl

theorem toReal?_zero (s : Bool) : (zero s : Number f).toReal? = some 0 := by
  rw [zero, toReal?, signed_zero]
  simp

theorem isWhole_of_toReal? {i : ℤ} (h : x.toReal? = some (i : ℝ)) : x.IsWhole i := by
  obtain ⟨s, n, hn, rfl, hi⟩ := toReal?_eq_some h
  rw [isWhole_finite]
  field_simp at hi
  exact_mod_cast hi.symm

theorem toReal?_neg (h : x.toReal? = some a) : (-x).toReal? = some (-a) := by
  obtain ⟨s, n, hn, rfl, rfl⟩ := toReal?_eq_some h
  change (Number.finite (!s) n hn).toReal? = _
  cases s <;> simp [toReal?, signed, neg_div]

/-- A product with one, minus one or zero is not rounded, though a zero may have either sign. -/
theorem toReal?_mul_whole (hx : x.toReal? = some a) {j : ℤ} (hy : y.IsWhole j)
    (hj : j.natAbs ≤ 1) : (x * y).toReal? = some (a * j) := by
  obtain ⟨s, m, hm, rfl, rfl⟩ := toReal?_eq_some hx
  obtain ⟨t, n, hn, rfl⟩ := hy.exists
  obtain ⟨hproduct, hsigned⟩ := mul_whole s hm hy
  have hfits : f.Fits (m * j.natAbs) := by
    obtain h0 | h1 : j.natAbs = 0 ∨ j.natAbs = 1 := by omega
    · rw [h0, Nat.mul_zero]
      exact f.fits_zero
    · rwa [h1, Nat.mul_one]
  rw [hproduct, ofRatio_units _ hfits, toReal?, hsigned]
  push_cast
  rw [div_mul_eq_mul_div]

theorem toReal?_zero_mul (s : Bool) (h : x.toReal? = some a) :
    (zero s * x : Number f).toReal? = some 0 := by
  rw [mul_comm, toReal?_mul_whole h (isWhole_zero s) (by decide)]
  simp

theorem toReal?_add_zero (hx : x.toReal? = some a) (hy : y.toReal? = some 0) :
    (x + y).toReal? = some a := by
  obtain ⟨s, m, hm, rfl, -⟩ := toReal?_eq_some hx
  obtain ⟨t, n, hn, rfl, hzero⟩ := toReal?_eq_some hy
  have hscale : (0 : ℝ) < 2 ^ f.scale := by positivity
  obtain rfl : n = 0 := by
    have hunits : ((signed t n : ℤ) : ℝ) = 0 :=
      (div_eq_zero_iff.1 hzero.symm).resolve_right hscale.ne'
    rw [← natAbs_signed t n, Int.cast_eq_zero.1 hunits]
    rfl
  change (Number.add _ _).toReal? = _
  rw [Number.add]
  split_ifs with hst hm0 hlt
  · rw [Nat.add_zero, ofRatio_units s hm, hx]
  · subst hm0
    rw [toReal?, signed_zero] at hx
    rw [toReal?_zero, ← hx]
    simp
  · rw [Nat.sub_zero, ofRatio_units s hm, hx]
  · omega

theorem toReal?_add_of_zero {b : ℝ} (hx : x.toReal? = some a) (hy : y.toReal? = some b)
    (h : a = 0 ∨ b = 0) : (x + y).toReal? = some (a + b) := by
  obtain rfl | rfl := h
  · rw [add_comm, toReal?_add_zero hy hx, zero_add]
  · rw [toReal?_add_zero hx hy, add_zero]

end Number
end SolidScript.Binary

namespace SolidScript
open Binary

/-- Whether the value of a number is what an operation makes of the values of two others. -/
def Exactly (op : ℝ → ℝ → ℝ) (x y z : Single) : Prop :=
  ∃ a b, x.toReal? = some a ∧ y.toReal? = some b ∧ z.toReal? = some (op a b)

theorem Exactly.value {op : ℝ → ℝ → ℝ} {x y z : Single} {a b : ℝ} (h : Exactly op x y z)
    (hx : x.toReal? = some a) (hy : y.toReal? = some b) : z.toReal? = some (op a b) := by
  obtain ⟨a', b', ha, hb, hz⟩ := h
  rw [hx] at ha
  rw [hy] at hb
  rw [hz, Option.some.inj ha, Option.some.inj hb]

theorem exactly_of_isWhole {op : ℝ → ℝ → ℝ} {x y z : Single} {i j k : ℤ} (hx : x.IsWhole i)
    (hy : y.IsWhole j) (hz : z.IsWhole k) (hop : op i j = k) : Exactly op x y z :=
  ⟨i, j, hx.toReal?, hy.toReal?, by rw [hop, hz.toReal?]⟩

end SolidScript
