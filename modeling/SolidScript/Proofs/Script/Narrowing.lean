import SolidScript.Proofs.Binary.Extended
import SolidScript.Proofs.Yields
import SolidScript.Script.Argument
import SolidScript.Script.Function

/-!
# Narrowing

Every number of a shape has been narrowed to single precision. A double is rounded once, a whole
number twice, by way of double precision. The second rounding can take a whole number of more than
53 digits to a number that is not the nearest one, but never across another.
-/

set_option autoImplicit false

attribute [local instance (10000)] instPowNat
attribute [local instance] SolidScript.Binary.atLeastTwo

namespace SolidScript
open Binary Number

theorem Binary.Number.isFinite_ofInt_double {i : Int} :
    (ofInt i : Double).isFinite = true ↔ i.natAbs < 2 ^ 1024 - 2 ^ 970 := by
  have hp : 1 < Format.double.precision := by decide
  have hthreshold : Format.double.threshold = (2 ^ 1024 - 2 ^ 970) * 2 ^ Format.double.scale := by
    decide +kernel
  rw [ofInt, isFinite_ofRatio, Format.round_lt_iff Format.wide_double hp Nat.one_pos, Nat.mul_one,
    hthreshold]
  exact Nat.mul_lt_mul_right (Nat.two_pow_pos _)

namespace Scalar

noncomputable def value? : Scalar → Option EReal
  | truth b => some ((b.toInt : ℝ) : EReal)
  | whole i => some ((i : ℝ) : EReal)
  | double x => x.value?
  | single x => x.value?
  | absent | text _ | foreign _ => none

def negative : Scalar → Bool
  | whole i => i < 0
  | double x => x.negative
  | single x => x.negative
  | truth _ | absent | text _ | foreign _ => false

/-- The double that a number is rounded to first. -/
def widened : Scalar → Double
  | truth b => .ofInt b.toInt
  | whole i => .ofInt i
  | double x => x
  | single x => x.convert
  | absent | text _ | foreign _ => .nan

variable {s t : Scalar} {u v : EReal} {x y : Single}

theorem value?_double (x : Double) : (double x).value? = x.value? := rfl

theorem negative_widened (s : Scalar) : s.widened.negative = s.negative := by
  cases s with
  | truth b => exact (negative_ofInt _).trans (by cases b <;> rfl)
  | whole i => exact negative_ofInt i
  | single x => exact negative_convert x
  | _ => rfl

theorem isRounding_widened (hu : s.value? = some u) : s.widened.IsRounding u := by
  cases s with
  | truth b =>
    obtain rfl := Option.some.inj hu
    exact isRounding_ofInt _
  | whole i =>
    obtain rfl := Option.some.inj hu
    exact isRounding_ofInt i
  | double x => exact isRounding_of_value? hu
  | single x => exact isRounding_convert hu
  | _ => cases hu

theorem value?_widened (hu : s.value? = some u) (hs : ∀ i, s = whole i → i.natAbs ≤ 2 ^ 53) :
    s.widened.value? = some u := by
  have hwhole : ∀ i : Int, i.natAbs ≤ 2 ^ 53 → (ofInt i : Double).value? = some ((i : ℝ) : EReal) :=
    fun i hi => value?_of_toReal? (isWhole_ofInt Format.wide_double hi).toReal?
  cases s with
  | truth b =>
    obtain rfl := Option.some.inj hu
    exact hwhole b.toInt (by cases b <;> decide)
  | whole i =>
    obtain rfl := Option.some.inj hu
    exact hwhole i (hs i rfl)
  | double x => exact hu
  | single x => exact (value?_convert Format.single_embeds x).trans hu
  | _ => cases hu

theorem narrow_widened (hu : s.value? = some u)
    (hs : ∀ i, s = whole i → (ofInt i : Double).isFinite = true) :
    s.narrow = .ok s.widened.convert := by
  apply narrow_of_toDouble
  cases s with
  | truth b => rfl
  | whole i => exact toDouble_whole_eq_ok.2 ⟨rfl, hs i rfl⟩
  | double x => rfl
  | single x => rfl
  | _ => cases hu

theorem exists_isNearest (hu : s.value? = some u) (hs : ∀ i, s = whole i → i.natAbs ≤ 2 ^ 53) :
    ∃ x, s.narrow = .ok x ∧ x.negative = s.negative ∧ x.IsNearest u := by
  have hwide := value?_widened hu hs
  have hfinite : ∀ i, s = whole i → (ofInt i : Double).isFinite = true := by
    rintro i rfl
    exact (isWhole_ofInt Format.wide_double (hs i rfl)).isFinite
  refine ⟨_, narrow_widened hu hfinite, ?_, ?_⟩
  · rw [negative_convert, negative_widened]
  · exact (isRounding_convert hwide).isNearest Format.wide_single (by decide)

theorem narrow_tooLarge {i : Int} (hi : (ofInt i : Double).isFinite = false) :
    (whole i).narrow = .error .numberTooLarge := by
  rw [narrow, wholeToDouble, if_neg (by rw [hi]; decide)]
  rfl

theorem eq_of_narrow (hu : s.value? = some u) (hx : s.narrow = .ok x) :
    x = s.widened.convert := by
  have hs : ∀ i, s = whole i → (ofInt i : Double).isFinite = true := by
    rintro i rfl
    by_contra hi
    rw [narrow_tooLarge (by simpa using hi)] at hx
    cases hx
  rw [narrow_widened hu hs] at hx
  exact (Except.ok.inj hx).symm

theorem narrow_le (hs : s.value? = some u) (ht : t.value? = some v) (h : u ≤ v)
    (hx : s.narrow = .ok x) (hy : t.narrow = .ok y) : x.le y = true := by
  obtain rfl := eq_of_narrow hs hx
  obtain rfl := eq_of_narrow ht hy
  apply convert_le (by decide)
  exact (isRounding_widened hs).le (by decide) (isRounding_widened ht) h

theorem narrow_of_value? (hs : s.value? = some u) (hx : x.value? = some u)
    (hzero : u = 0 → x.negative = s.negative) : s.narrow = .ok x := by
  have hwide : s.widened = x.convert := by
    apply (isRounding_widened hs).unique Format.wide_double (by decide) (isRounding_convert hx)
    intro hu
    rw [negative_widened, negative_convert, hzero hu]
  have hback := convert_convert Format.single_embeds x
  have hfinite : ∀ r : ℝ, u = r → s.widened.isFinite = true := by
    rintro r rfl
    apply isFinite_of_convert (g := .single)
    rw [hwide, hback]
    exact isFinite_of_value? hx
  rw [narrow_widened hs, hwide, hback]
  rintro i rfl
  exact hfinite i (Option.some.inj hs).symm

theorem narrow_neg_whole {i : Int} (h : i ≠ 0) :
    (whole (-i)).narrow = (-·) <$> (whole i).narrow := by
  rw [narrow, narrow, wholeToDouble, wholeToDouble, ofInt_neg h, isFinite_neg]
  split
  · exact congrArg Except.ok (convert_neg _)
  · rfl

theorem narrow_neg_double (x : Double) : (double (-x)).narrow = (-·) <$> (double x).narrow :=
  congrArg Except.ok (convert_neg x)

end Scalar

/-- What a narrowing of numbers to single precision is to be. -/
structure Faithful (narrow : Scalar → Except Fault Single) : Prop where
  /-- A double goes to the nearest number, and so does a whole number that double precision is sure
  to hold. -/
  nearest : ∀ s u, s.value? = some u → (∀ i, s = .whole i → i.natAbs ≤ 2 ^ 53) →
    ∃ x, narrow s = .ok x ∧ x.negative = s.negative ∧ x.IsNearest u
  nan : narrow (.double .nan) = .ok .nan ∧ narrow (.single .nan) = .ok .nan
  whole : ∀ i : Int, i.natAbs < 2 ^ 1024 - 2 ^ 970 → ∃ x, narrow (.whole i) = .ok x
  tooLarge : ∀ i : Int, 2 ^ 1024 - 2 ^ 970 ≤ i.natAbs →
    narrow (.whole i) = .error .numberTooLarge
  monotone : ∀ s t u v x y, s.value? = some u → t.value? = some v → u ≤ v →
    narrow s = .ok x → narrow t = .ok y → x.le y = true
  oddWhole : ∀ i : Int, i ≠ 0 → narrow (.whole (-i)) = (-·) <$> narrow (.whole i)
  oddDouble : ∀ x : Double, narrow (.double (-x)) = (-·) <$> narrow (.double x)
  /-- A value that single precision holds is kept, and so is the sign of a zero. -/
  kept : ∀ s u (x : Single), s.value? = some u → x.value? = some u →
    (u = 0 → x.negative = s.negative) → narrow s = .ok x

theorem bound_single : Format.single.bound = 2 ^ 128 - 2 ^ 103 := Format.wide_single.bound_eq

namespace Script

/-- Narrowing finds the nearest number, keeps the order and the sign, and leaves alone what single
precision holds, although whole numbers are rounded twice. -/
theorem narrowing_faithful (c : Context) (o : Option Origin) :
    (∀ s, callFunction c "real" [.item (.mk o (.scalar s))] =
      (fun x => .new (.single x)) <$> s.narrow) ∧
    Faithful Scalar.narrow ∧ Format.single.bound = 2 ^ 128 - 2 ^ 103 := by
  refine ⟨fun s => ?_, ?_, bound_single⟩
  · change Command.made (do return .single (← s.narrow)) = _
    cases s.narrow <;> rfl
  · constructor
    · intro s u hu hs
      exact Scalar.exists_isNearest hu hs
    · exact ⟨rfl, rfl⟩
    · intro i hi
      have hfinite : ∀ j, Scalar.whole i = .whole j → (ofInt j : Double).isFinite = true := by
        rintro j ⟨⟩
        exact isFinite_ofInt_double.2 hi
      exact ⟨_, Scalar.narrow_widened rfl hfinite⟩
    · intro i hi
      apply Scalar.narrow_tooLarge
      rw [← Bool.not_eq_true, isFinite_ofInt_double]
      omega
    · intro s t u v x y hs ht h hx hy
      exact Scalar.narrow_le hs ht h hx hy
    · intro i hi
      exact Scalar.narrow_neg_whole hi
    · exact Scalar.narrow_neg_double
    · intro s u x hs hx hzero
      exact Scalar.narrow_of_value? hs hx hzero

/-- A tie between two numbers, a whole number that the first rounding makes one, the double above
it, and a power of two that both precisions hold. -/
theorem narrowing_faithful_ties :
    let real (s : Scalar) := callFunction (.of #[]) "real" [.item (.new (.scalar s))]
    let single (x : Single) : Except Fault Item := .ok (.new (.single x))
    real (.whole 16777217) = single (.ofInt 16777216) ∧
    (ofInt 16777216 : Single).IsNearest (((16777217 : ℤ) : ℝ) : EReal) ∧
    real (.whole (-16777217)) = single (-.ofInt 16777216) ∧
    real (.whole (2 ^ 54 + 2 ^ 30 + 1)) = single (.ofInt (2 ^ 54)) ∧
    real (.double (.ofInt (2 ^ 54 + 2 ^ 31))) = single (.ofInt (2 ^ 54 + 2 ^ 31)) ∧
    (ofInt (2 ^ 54) : Single).le (.ofInt (2 ^ 54 + 2 ^ 31)) = true ∧
    real (.whole (2 ^ 100)) = single (.ofInt (2 ^ 100)) ∧
    real (.whole (2 ^ 1024)) = .error .numberTooLarge := by
  intro real single
  obtain ⟨hreal, h, -⟩ := narrowing_faithful (.of #[]) none
  have hgives : ∀ {s x}, s.narrow = .ok x → real s = single x := by
    intro s x hs
    apply (hreal s).trans
    rw [hs]
    rfl
  have htie : (Scalar.whole 16777217).narrow = .ok (.ofInt 16777216) := by decide +kernel
  have htwice : (Scalar.whole (2 ^ 54 + 2 ^ 30 + 1)).narrow = .ok (.ofInt (2 ^ 54)) := by
    decide +kernel
  have habove : (Scalar.double (.ofInt (2 ^ 54 + 2 ^ 31))).narrow =
      .ok (.ofInt (2 ^ 54 + 2 ^ 31)) := by
    decide +kernel
  have hodd : (Scalar.whole (-16777217)).narrow = .ok (-.ofInt 16777216) := by
    rw [h.oddWhole 16777217 (by decide), htie]
    rfl
  have hdouble : (Scalar.double (.ofInt (2 ^ 54 + 2 ^ 31))).value? =
      some (((2 ^ 54 + 2 ^ 31 : ℤ) : ℝ) : EReal) :=
    (Scalar.value?_double _).trans (value?_of_toReal? (IsWhole.toReal? (by decide +kernel)))
  have hsingle : (ofInt (2 ^ 100) : Single).value? = some (((2 ^ 100 : ℤ) : ℝ) : EReal) :=
    value?_of_toReal? (IsWhole.toReal? (by decide +kernel))
  refine ⟨hgives htie, ?_, hgives hodd, hgives htwice, hgives habove, ?_, hgives ?_, ?_⟩
  · obtain ⟨x, hx, -, hnearest⟩ := h.nearest (.whole 16777217) _ rfl (by rintro _ ⟨⟩; decide)
    rw [htie] at hx
    rwa [← Except.ok.inj hx] at hnearest
  · apply h.monotone _ _ _ _ _ _ rfl hdouble _ htwice habove
    rw [EReal.coe_le_coe_iff, Int.cast_le]
    decide
  · apply h.kept _ _ _ rfl hsingle
    intro _
    decide +kernel
  · apply (hreal (.whole (2 ^ 1024))).trans
    rw [h.tooLarge (2 ^ 1024) (by decide +kernel)]
    rfl

end Script
end SolidScript
