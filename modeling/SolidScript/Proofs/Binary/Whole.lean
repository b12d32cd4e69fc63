import SolidScript.Proofs.Binary.Rounding
import SolidScript.Scalar

/-!
# Whole numbers

A format holds every whole number with no more digits than its precision. Such numbers are read,
converted, added and multiplied without rounding.
-/

set_option autoImplicit false

attribute [local instance (10000)] instPowNat

namespace SolidScript
namespace Binary
namespace Format

variable {f : Format}

def Wide (f : Format) : Prop := f.precision + f.scale < f.limit

theorem wide_single : single.Wide := by unfold Wide; decide

theorem wide_double : double.Wide := by unfold Wide; decide

theorem Wide.fits (hf : f.Wide) {k : Nat} (hk : k ≤ 2 ^ f.precision) :
    f.Fits (k * 2 ^ f.scale) := by
  refine ⟨f.mod_step_of_digits hk, ?_⟩
  calc k * 2 ^ f.scale ≤ 2 ^ f.precision * 2 ^ f.scale := Nat.mul_le_mul_right _ hk
    _ = 2 ^ (f.precision + f.scale) := (Nat.pow_add ..).symm
    _ < 2 ^ f.limit := Nat.pow_lt_pow_right (by decide) hf

theorem two_pow_scale_dvd_round {a : Nat} (ha : 2 ^ f.scale ∣ a) : 2 ^ f.scale ∣ f.round a 1 := by
  rw [Format.round, Nat.div_one, Nat.one_mul]
  rcases Nat.le_total f.scale (f.excess a) with hle | hle
  · exact Nat.dvd_mul_left_of_dvd (Nat.pow_dvd_pow 2 hle) _
  · have hstep : a % f.step a = 0 :=
      Nat.mod_eq_zero_of_dvd (Nat.dvd_trans (Nat.pow_dvd_pow 2 hle) ha)
    have hhalf : half a (f.step a) = a / f.step a := by
      simp [half, hstep, f.step_pos a]
    rw [hhalf, Nat.div_mul_cancel (Nat.dvd_of_mod_eq_zero hstep)]
    exact ha

end Format

namespace Number

variable {f g : Format} {x y : Number f} {i j : Int}

/-- Whether the value of a number is a whole number. -/
def IsWhole (x : Number f) (i : Int) : Prop := x.compareInt? i = some .eq

instance : Decidable (x.IsWhole i) := inferInstanceAs (Decidable (x.compareInt? i = some .eq))

theorem isWhole_finite {s : Bool} {n : Nat} {h : f.Fits n} :
    (finite s n h).IsWhole i ↔ signed s n = i * 2 ^ f.scale := by
  simp [IsWhole, compareInt?]

theorem IsWhole.exists (h : x.IsWhole i) : ∃ s n, ∃ hn : f.Fits n, x = .finite s n hn := by
  cases x with
  | nan => cases h
  | infinite s => cases s <;> cases h
  | finite s n hn => exact ⟨s, n, hn, rfl⟩

theorem natAbs_signed (s : Bool) (n : Nat) : (signed s n).natAbs = n := by
  cases s <;> simp [signed]

theorem signed_natAbs (i : Int) : signed (i < 0) i.natAbs = i := by
  by_cases h : i < 0 <;> simp only [signed, h, decide_true, decide_false, if_true,
    Bool.false_eq_true, if_false] <;> omega

@[simp] theorem signed_zero (s : Bool) : signed s 0 = 0 := by
  cases s <;> rfl

theorem signed_add (s : Bool) (m n : Nat) : signed s (m + n) = signed s m + signed s n := by
  cases s <;> simp only [signed, if_true, Bool.false_eq_true, if_false] <;> omega

theorem signed_sub {m n : Nat} (h : n ≤ m) (s : Bool) :
    signed s (m - n) = signed s m + signed (!s) n := by
  cases s <;> simp [signed] <;> omega

theorem signed_mul (s : Bool) (m n : Nat) : signed s (m * n) = signed s m * n := by
  cases s <;> simp [signed]

theorem signed_mul_signed (s t : Bool) (m n : Nat) :
    signed (s != t) (m * n) = signed s m * signed t n := by
  cases s <;> cases t <;> simp [signed]

@[simp] theorem signed_not (s : Bool) (n : Nat) : signed (!s) n = -signed s n := by
  cases s <;> simp [signed]

theorem signed_pos {s : Bool} {n : Nat} (h : 0 < signed s n) : s = false := by
  cases s
  · rfl
  · simp only [signed, if_true] at h
    omega

theorem units_of_signed {s : Bool} {n : Nat} (h : signed s n = i * 2 ^ f.scale) :
    n = i.natAbs * 2 ^ f.scale := by
  rw [← natAbs_signed s n, h, Int.natAbs_mul, Int.natAbs_pow]
  rfl

theorem exists_isWhole {s : Bool} {n : Nat} {h : f.Fits n} :
    (∃ i, (finite s n h).IsWhole i) ↔ 2 ^ f.scale ∣ n := by
  constructor
  · rintro ⟨i, hi⟩
    exact ⟨i.natAbs, by rw [units_of_signed (isWhole_finite.1 hi), Nat.mul_comm]⟩
  · rintro ⟨k, rfl⟩
    refine ⟨signed s k, isWhole_finite.2 ?_⟩
    rw [Nat.mul_comm, signed_mul]
    push_cast
    rfl

theorem isWhole_ofRatio (hf : f.Wide) (hi : i.natAbs ≤ 2 ^ f.precision) {s : Bool} {n : Nat}
    (h : signed s n = i * 2 ^ f.scale) : (ofRatio s n 1 : Number f).IsWhole i := by
  have hn : f.Fits n := by
    rw [units_of_signed h]
    exact hf.fits hi
  rw [ofRatio_units s hn, isWhole_finite]
  exact h

theorem isWhole_zero (s : Bool) : (zero s : Number f).IsWhole 0 := by
  rw [zero, isWhole_finite, signed_zero, Int.zero_mul]

theorem isWhole_ofInt (hf : f.Wide) (hi : i.natAbs ≤ 2 ^ f.precision) :
    (ofInt i : Number f).IsWhole i := by
  apply isWhole_ofRatio hf hi
  rw [signed_mul, signed_natAbs]
  push_cast
  rfl

theorem IsWhole.convert (h : x.IsWhole i) (hg : g.Wide) (hi : i.natAbs ≤ 2 ^ g.precision) :
    (x.convert : Number g).IsWhole i := by
  obtain ⟨s, n, hn, rfl⟩ := h.exists
  rw [isWhole_finite] at h
  have hpos : 0 < 2 ^ f.scale := Nat.two_pow_pos _
  have hunits := units_of_signed h
  have hsign : signed s i.natAbs = i := by
    rw [hunits, signed_mul] at h
    push_cast at h
    exact Int.eq_of_mul_eq_mul_right (by positivity) h
  have hratio : (ofRatio s (n * 2 ^ g.scale) (2 ^ f.scale) : Number g) =
      ofRatio s (i.natAbs * 2 ^ g.scale) 1 := by
    apply ofRatio_congr s hpos (by decide)
    rw [hunits]
    ring
  rw [Number.convert, hratio]
  apply isWhole_ofRatio hg hi
  rw [signed_mul, hsign]
  push_cast
  rfl

theorem IsWhole.add (hx : x.IsWhole i) (hy : y.IsWhole j) (hf : f.Wide)
    (h : (i + j).natAbs ≤ 2 ^ f.precision) : (x + y).IsWhole (i + j) := by
  obtain ⟨s, m, hm, rfl⟩ := hx.exists
  obtain ⟨t, n, hn, rfl⟩ := hy.exists
  rw [isWhole_finite] at hx hy
  have hsum : signed s m + signed t n = (i + j) * 2 ^ f.scale := by rw [hx, hy, Int.add_mul]
  change (Number.add _ _).IsWhole _
  rw [Number.add]
  by_cases hst : s = t
  · subst hst
    rw [if_pos rfl]
    exact isWhole_ofRatio hf h ((signed_add s m n).trans hsum)
  · obtain rfl : t = !s := by simpa [eq_comm] using Bool.eq_not_of_ne (Ne.symm hst)
    rw [if_neg hst]
    split_ifs with hmn hlt
    · subst hmn
      rw [← signed_sub le_rfl s, Nat.sub_self, signed_zero] at hsum
      have hij : i + j = 0 := (Int.mul_eq_zero.1 hsum.symm).resolve_right (by positivity)
      rw [hij]
      exact isWhole_zero false
    · exact isWhole_ofRatio hf h ((signed_sub hlt.le s).trans hsum)
    · apply isWhole_ofRatio hf h
      rw [signed_sub (by omega), Bool.not_not, Int.add_comm]
      exact hsum

theorem IsWhole.neg (hx : x.IsWhole i) : (-x).IsWhole (-i) := by
  obtain ⟨s, n, hn, rfl⟩ := hx.exists
  change (finite (!s) n hn).IsWhole (-i)
  rw [isWhole_finite] at hx ⊢
  rw [signed_not, hx, Int.neg_mul]

theorem IsWhole.sub (hx : x.IsWhole i) (hy : y.IsWhole j) (hf : f.Wide)
    (h : (i - j).natAbs ≤ 2 ^ f.precision) : (x - y).IsWhole (i - j) := by
  rw [Int.sub_eq_add_neg] at h ⊢
  exact hx.add hy.neg hf h

theorem mul_whole (s : Bool) {t : Bool} {m n : Nat} (hm : f.Fits m) {hn : f.Fits n}
    (h : (finite t n hn).IsWhole j) :
    (.finite s m hm * .finite t n hn : Number f) = ofRatio (s != t) (m * j.natAbs) 1 ∧
      signed (s != t) (m * j.natAbs) = signed s m * j := by
  rw [isWhole_finite] at h
  have hunits := units_of_signed h
  constructor
  · apply ofRatio_congr _ (Nat.two_pow_pos _) (by decide)
    rw [Nat.mul_one, Nat.mul_assoc, ← hunits]
  · have hsigned : signed (s != t) (m * j.natAbs) * 2 ^ f.scale = signed s m * j * 2 ^ f.scale := by
      rw [Int.mul_assoc, ← h, ← signed_mul_signed, hunits, ← Nat.mul_assoc,
        signed_mul _ (m * j.natAbs)]
      push_cast
      rfl
    exact Int.eq_of_mul_eq_mul_right (by positivity) hsigned

theorem IsWhole.mul (hx : x.IsWhole i) (hy : y.IsWhole j) (hf : f.Wide)
    (h : (i * j).natAbs ≤ 2 ^ f.precision) : (x * y).IsWhole (i * j) := by
  obtain ⟨s, m, hm, rfl⟩ := hx.exists
  obtain ⟨t, n, hn, rfl⟩ := hy.exists
  obtain ⟨hproduct, hsigned⟩ := mul_whole s hm hy
  rw [isWhole_finite] at hx
  rw [hproduct]
  apply isWhole_ofRatio hf h
  rw [hsigned, hx]
  ring

theorem IsWhole.eq_ofInt (h : x.IsWhole i) (h0 : 0 < i) : x = ofInt i := by
  obtain ⟨s, n, hn, rfl⟩ := h.exists
  rw [isWhole_finite] at h
  obtain rfl : s = false := by
    apply signed_pos (n := n)
    rw [h]
    exact Int.mul_pos h0 (Int.pow_pos (by decide))
  obtain rfl := units_of_signed h
  have hsign : decide (i < 0) = false := decide_eq_false (by omega)
  rw [ofInt, hsign, ofRatio_units false hn]

theorem le_units_of_truncate (h : x.truncate? = some i) (h0 : 0 < i) :
    ∃ n hn, x = .finite false n hn ∧ i.toNat * 2 ^ f.scale ≤ n := by
  cases x with
  | finite s n hn =>
    have hi : signed s (n / 2 ^ f.scale) = i := Option.some.inj h
    obtain rfl := signed_pos (hi ▸ h0)
    refine ⟨n, hn, rfl, ?_⟩
    rw [← hi]
    exact Nat.div_mul_le_self n _
  | _ => cases h

theorem IsWhole.isFinite (h : x.IsWhole i) : x.isFinite = true := by
  obtain ⟨s, n, hn, rfl⟩ := h.exists
  rfl

end Number
end Binary

open Binary

def Scalar.IsWhole (i : Int) : Scalar → Prop
  | truth b => b.toInt = i
  | whole j => j = i
  | double x => x.IsWhole i
  | single x => x.IsWhole i
  | absent | text _ | foreign _ => False

/-- A whole number of no more digits than single precision has is narrowed without rounding. -/
theorem Scalar.IsWhole.narrow {s : Scalar} {i : Int} (h : s.IsWhole i) (hi : i.natAbs ≤ 2 ^ 24) :
    ∃ x, s.narrow = .ok x ∧ x.IsWhole i := by
  have hd : i.natAbs ≤ 2 ^ Format.double.precision :=
    hi.trans (Nat.pow_le_pow_right (by decide) (by decide))
  cases s with
  | truth b =>
    obtain rfl := h
    exact ⟨_, rfl, Number.isWhole_ofInt Format.wide_single hi⟩
  | whole j =>
    obtain rfl := h
    have hwhole := Number.isWhole_ofInt Format.wide_double hd
    refine ⟨(Number.ofInt j : Double).convert, ?_, hwhole.convert Format.wide_single hi⟩
    rw [Scalar.narrow, wholeToDouble, if_pos hwhole.isFinite]
    rfl
  | double x => exact ⟨_, rfl, Number.IsWhole.convert h Format.wide_single hi⟩
  | single x => exact ⟨x, rfl, h⟩
  | absent | text | foreign => exact h.elim

end SolidScript
