import SolidScript.Proofs.Binary.Real
import SolidScript.Proofs.Binary.Scaling
import SolidScript.Proofs.Shape.EqualTurns
import SolidScript.Proofs.Shape.Moved
import SolidScript.Script.Argument
import SolidScript.Script.Function
import SolidScript.Script.Method

/-!
# Solids with their middle at the origin

The offset of each box is minus half its extent, exactly, although the two are computed in one
precision and rounded to another each on its own. For that an edge must not be so small that half
of it loses a digit.
-/

set_option autoImplicit false

attribute [local instance (10000)] instPowNat
attribute [local instance] SolidScript.Binary.atLeastTwo

namespace SolidScript
open Binary Format

/-! Lengths -/

namespace Binary.Number

/-- Whether the magnitude of a length in single precision is at least `2 ^ -120`. -/
def IsLong (x : Double) : Prop :=
  ∃ a, (x.convert : Single).toReal? = some a ∧ (2 : ℝ) ^ (-120 : ℤ) ≤ |a|

variable {x y : Double} {s : Bool} {n : Nat}

theorem le_units_of_toReal? {x : Single} {a : ℝ} (h : x.toReal? = some a)
    (ha : (2 : ℝ) ^ (-120 : ℤ) ≤ |a|) :
    ∃ t, ∃ (m : Nat) (hm : _), x = .finite t m hm ∧ 2 ^ 29 ≤ m := by
  cases x with
  | finite t m hm =>
    obtain rfl := Option.some.inj h
    have hunits : |((signed t m : ℤ) : ℝ)| = m := by
      rw [← Int.cast_abs, Int.abs_eq_natAbs, natAbs_signed]
      norm_cast
    refine ⟨t, m, hm, rfl, ?_⟩
    change _ ≤ |_ / (2 : ℝ) ^ 149| at ha
    rw [abs_div, hunits, abs_of_pos (by positivity : (0 : ℝ) < 2 ^ 149),
      le_div_iff₀ (by positivity)] at ha
    have hpow : (2 : ℝ) ^ (-120 : ℤ) * 2 ^ 149 = ((2 ^ 29 : ℕ) : ℝ) := by norm_num
    rw [hpow] at ha
    exact_mod_cast ha
  | _ => cases h

theorem eq_of_ofRatio {f : Format} {a b m : Nat} {t : Bool} {hm : f.Fits m}
    (h : (ofRatio s a b : Number f) = .finite t m hm) : s = t ∧ f.round a b = m := by
  unfold ofRatio at h
  split at h
  · cases h
    exact ⟨rfl, rfl⟩
  · cases h

theorem IsLong.exists (h : x.IsLong) :
    ∃ s, ∃ (n : Nat) (hn : _), x = .finite s n hn ∧ 2 ^ 949 ≤ n := by
  obtain ⟨a, hreal, ha⟩ := h
  obtain ⟨t, m, hm, hx, hlow⟩ := le_units_of_toReal? hreal ha
  cases x with
  | finite s n hn =>
    refine ⟨s, n, hn, rfl, ?_⟩
    by_contra hlt
    have hround : single.round (n * 2 ^ single.scale) (2 ^ double.scale) ≤ 2 ^ 24 := by
      apply round_le_of_fits FullTurn.one_lt_single (by decide +kernel) (Nat.two_pow_pos _)
      calc n * 2 ^ single.scale ≤ 2 ^ 949 * 2 ^ single.scale := Nat.mul_le_mul_right _ (by omega)
        _ = 2 ^ 24 * 2 ^ double.scale := by decide +kernel
    rw [(eq_of_ofRatio hx).2] at hround
    omega
  | _ => cases hx

theorem digits_to_spare (h : 2 ^ 949 ≤ n) :
    2 ^ double.precision ≤ n ∧ 2 ^ single.precision * 2 ^ double.scale ≤ n * 2 ^ single.scale := by
  constructor
  · calc 2 ^ double.precision ≤ 2 ^ 949 := Nat.pow_le_pow_right (by decide) (by decide)
      _ ≤ n := h
  · calc 2 ^ single.precision * 2 ^ double.scale = 2 ^ 949 * 2 ^ single.scale := by decide +kernel
      _ ≤ n * 2 ^ single.scale := Nat.mul_le_mul_right _ h

theorem half_centres (h : x.IsLong) :
    ((-x / .ofInt 2 : Double).convert : Single).Centres x.convert := by
  obtain ⟨a, hreal, -⟩ := id h
  obtain ⟨s, n, hn, rfl, hlow⟩ := h.exists
  have hcentres := neg_div_two_centres wide_double s hn (digits_to_spare hlow).1
  apply hcentres.convert _ (isFinite_of_toReal? hreal)
  rintro _ _ _ ⟨⟩
  exact (digits_to_spare hlow).2

theorem half_centres_single (h : x.IsLong) :
    (-x.convert * (.ofInt 1 / .ofInt 2) : Single).Centres x.convert := by
  obtain ⟨a, hreal, ha⟩ := h
  obtain ⟨t, m, hm, hx, hlow⟩ := le_units_of_toReal? hreal ha
  have hhalf : (.ofInt 1 / .ofInt 2 : Single) = .finite false (2 ^ 148) (by decide +kernel) := by
    decide +kernel
  have hproduct : (-.finite t m hm * .finite false (2 ^ 148) (by decide +kernel) : Single) =
      ofRatio (!t) m 2 := by
    rw [neg_finite, finite_mul_finite, Bool.bne_false]
    apply ofRatio_congr _ (Nat.two_pow_pos _) (by decide)
    have hscale : 2 ^ single.scale = 2 ^ 148 * 2 := by decide +kernel
    rw [hscale, Nat.mul_assoc]
  rw [hx, hhalf, hproduct]
  apply centres_half
  exact (Nat.pow_le_pow_right (by decide) (by decide : 24 ≤ 29)).trans hlow

end Binary.Number

open Binary.Number

theorem le_root {k n : Nat} (h : k * k ≤ n) : k ≤ root n := by
  by_contra hlt
  have hle : (root n + 1) * (root n + 1) ≤ k * k := Nat.mul_le_mul (by omega) (by omega)
  have := (root_spec n).2
  omega

theorem sqrtTwo_units (h : sqrtTwo.isFinite = true) :
    ∃ (q : Nat) (hq : _), sqrtTwo = .finite false q hq ∧ 2 ^ double.scale ≤ q := by
  obtain ⟨h2, htwo⟩ := ofInt_two wide_double
  have hpos := Nat.two_pow_pos double.scale
  obtain ⟨a, hsqrt, ha⟩ : ∃ a, sqrtTwo = ofRatio false a 2 ∧ 2 ^ double.scale * 2 ≤ a := by
    rw [sqrtTwo, htwo, Number.sqrt, if_neg (by omega), if_neg (by decide)]
    refine ⟨_, rfl, ?_⟩
    have hroot : 2 ^ double.scale ≤ root (2 * 2 ^ double.scale * 2 ^ double.scale) :=
      le_root (Nat.mul_le_mul_right _ (by omega))
    split <;> omega
  rw [hsqrt, isFinite_ofRatio] at h
  refine ⟨_, double.fits_round h, hsqrt.trans (ofRatio_of_lt _ h), ?_⟩
  exact le_round_of_fits FullTurn.one_lt_double (by decide +kernel) (by decide) ha

theorem exists_finite {x : Double} (h : x.isFinite = true) : ∃ s n hn, x = .finite s n hn := by
  cases x with
  | finite s n hn => exact ⟨s, n, hn, rfl⟩
  | _ => cases h

theorem diagonal_centres {x : Double} (h : x.IsLong)
    (hfinite : ((.ofInt 2 * (sqrtTwo * x) : Double).convert : Single).isFinite = true) :
    ((-(sqrtTwo * x) : Double).convert : Single).Centres
      (.ofInt 2 * (sqrtTwo * x) : Double).convert := by
  have hdouble := isFinite_of_convert hfinite
  have hproduct := isFinite_of_mul_right hdouble
  obtain ⟨q, hq, hroot, hone⟩ := sqrtTwo_units (isFinite_of_mul_left hproduct)
  obtain ⟨s, n, hn, rfl, hlow⟩ := h.exists
  obtain ⟨t, m, hm, hr⟩ := exists_finite hproduct
  have hnm : n ≤ m := by
    rw [hroot, finite_mul_finite] at hr
    rw [← (eq_of_ofRatio hr).2]
    apply le_round_of_fits FullTurn.one_lt_double hn (Nat.two_pow_pos _)
    rw [Nat.mul_comm]
    exact Nat.mul_le_mul_right _ hone
  rw [hr] at hfinite hdouble ⊢
  obtain ⟨hdigits, hspare⟩ := digits_to_spare (hlow.trans hnm)
  have hlast : 2 ^ (double.precision - 1) ≤ m :=
    (Nat.pow_le_pow_right (by decide) (Nat.sub_le _ _)).trans hdigits
  have hcentres := neg_centres_two_mul wide_double t hm hlast hdouble
  apply hcentres.convert _ hfinite
  intro u k hk hunits
  rw [two_mul wide_double] at hunits
  have htwice : k = 2 * m := by
    rw [← (eq_of_ofRatio hunits).2, round_two_mul (by decide) (by omega), double.round_of_fits hm]
  rw [htwice, Nat.mul_assoc]
  omega

/-! Boxes -/

namespace Shape

def movedCube (offset side : Single) : Shape := (cube side).moved [offset, offset, offset]

def placedBox (extents offset angles : Coordinates) : Shape :=
  operator .rotate [.vector angles] ((cuboid extents).moved offset)

theorem centredCube_eq {edge : Scalar} {x : Double} (h : edge.toDouble = .ok x) :
    centredCube edge = .ok (movedCube (-x / .ofInt 2).convert x.convert) := by
  have hcube : Factory.cube edge = .ok (cube x.convert) := by
    rw [Factory.cube, Scalar.narrow_of_toDouble h]
    rfl
  rw [centredCube, h, ok_bind, hcube, ok_bind]
  exact translate_triple rfl rfl rfl rfl (by simp)

theorem turnedBox_eq (x y z u v w : Double) {i j k : Int} {a b c : Single}
    (ha : (Scalar.whole i).narrow = .ok a) (hb : (Scalar.whole j).narrow = .ok b)
    (hc : (Scalar.whole k).narrow = .ok c) :
    turnedBox [x, y, z] [u, v, w] [i, j, k] = .ok (placedBox [x.convert, y.convert, z.convert]
      [u.convert, v.convert, w.convert] [a, b, c]) := by
  have hbox : Factory.cuboid (.of [.double x, .double y, .double z]) =
      .ok (cuboid [x.convert, y.convert, z.convert]) := by
    rw [Factory.cuboid, Nested.toVector_triple rfl rfl rfl]
    rfl
  simp only [turnedBox, List.map_cons, List.map_nil]
  rw [hbox, ok_bind, translate_triple rfl rfl rfl rfl (by simp), ok_bind]
  exact rotate_triple rfl ha hb hc (by simp [moved])

theorem invert_eq {s : Shape} {edge : Scalar} {x : Double} (hs : s.dim ≠ some .plane)
    (h : edge.toDouble = .ok x) : s.invert edge = .ok (.combination .difference
      [movedCube (-x / .ofInt 2).convert x.convert, s]) := by
  rw [invert, centredCube_eq h, ok_bind, difference]
  exact combine_solids rfl (by simpa [movedCube, dim] using hs)

theorem roundedCube_eq {edge : Scalar} {x : Double} (h : edge.toDouble = .ok x) :
    roundedCube edge = .ok (.combination .intersection
      [movedCube (-x.convert * (.ofInt 1 / .ofInt 2)) x.convert,
        .sphere (x.convert * (.ofInt 1 / .sqrt (.ofInt 3)))]) := by
  have hmove (o d : Single) :
      (cube d).translate (.vector [o, o, o]) = .ok (movedCube o d) := rfl
  simp only [roundedCube, Scalar.narrow_of_toDouble h, ok_bind, hmove]
  change combine .intersection [movedCube _ _, .sphere _] = _
  exact combine_solids rfl (by simp [movedCube, dim])

theorem truncatedOctahedron_eq {edge : Scalar} {x : Double} (h : edge.toDouble = .ok x) :
    let e : Single := x.convert
    let o : Single := (-x / .ofInt 2).convert
    let d : Single := (.ofInt 2 * (sqrtTwo * x) : Double).convert
    let k : Single := (-(sqrtTwo * x)).convert
    truncatedOctahedron edge = .ok (.combination .hull [
      placedBox [e, e, d] [o, o, k] [.ofInt 0, .ofInt 0, .ofInt 45],
      placedBox [e, d, e] [o, k, o] [.ofInt 0, .ofInt 45, .ofInt 0],
      placedBox [d, e, e] [k, o, o] [.ofInt 45, .ofInt 0, .ofInt 0]]) := by
  intro e o d k
  have h0 : (Scalar.whole 0).narrow = .ok (.ofInt 0) := by decide +kernel
  have h45 : (Scalar.whole 45).narrow = .ok (.ofInt 45) := by decide +kernel
  simp only [truncatedOctahedron, h, ok_bind, turnedBox_eq _ _ _ _ _ _ h0 h0 h45,
    turnedBox_eq _ _ _ _ _ _ h0 h45 h0, turnedBox_eq _ _ _ _ _ _ h45 h0 h0]
  exact combine_solids rfl (by simp [placedBox, dim, Operation.family])

end Shape

namespace Script
open Shape

variable {c : Context} {x : Double}

theorem invert_shape (s : Shape) (edge : Value) :
    invert c (.shape s) edge = (do return .shape (← s.invert (edge.toScalar c))) := by
  rw [invert, Shape.invert]
  cases centredCube (edge.toScalar c) <;> rfl

/-- The inverse of a shape, the rounded cube and the truncated octahedron are made of boxes with
their middle at the origin. Of the octahedron the extent along the long axis may be beyond the
range of numbers. -/
theorem centred_exactly (c : Context) (edge : Item)
    (hx : (edge.value.toScalar c).toDouble = .ok x) (hlong : x.IsLong) :
    (∃ o, o.Centres x.convert ∧ ∀ p s, s.dim ≠ some .plane →
      let result := .ok (.new (.shape (.combination .difference [movedCube o x.convert, s])))
      callFunction c "invert" [.item (.mk p (.shape s)), .item edge] = result ∧
        callMethod c (.mk p (.shape s)) "invert" [.item edge] = result) ∧
    (∃ o, o.Centres x.convert ∧ callFunction c "rounded_cube" [.item edge] =
      .ok (.new (.shape (.combination .intersection
        [movedCube o x.convert, .sphere (x.convert * (.ofInt 1 / .sqrt (.ofInt 3)))])))) ∧
    ∃ o d k : Single, o.Centres x.convert ∧ (d.isFinite = true → k.Centres d) ∧
      callFunction c "truncated_octahedron" [.item edge] =
        .ok (.new (.shape (.combination .hull [
          placedBox [x.convert, x.convert, d] [o, o, k] [.ofInt 0, .ofInt 0, .ofInt 45],
          placedBox [x.convert, d, x.convert] [o, k, o] [.ofInt 0, .ofInt 45, .ofInt 0],
          placedBox [d, x.convert, x.convert] [k, o, o] [.ofInt 45, .ofInt 0, .ofInt 0]]))) := by
  refine ⟨⟨_, Number.half_centres hlong, fun p s hs => ⟨?_, ?_⟩⟩,
    ⟨_, Number.half_centres_single hlong, ?_⟩,
    ⟨_, _, _, Number.half_centres hlong, diagonal_centres hlong, ?_⟩⟩
  · change Command.made (Script.invert c (.shape s) edge.value) = _
    rw [invert_shape, invert_eq hs hx]
    rfl
  · change Command.made (do return .shape (← s.invert (edge.value.toScalar c))) = _
    rw [invert_eq hs hx]
    rfl
  · change Command.made (do return .shape (← roundedCube (edge.value.toScalar c))) = _
    rw [roundedCube_eq hx]
    rfl
  · change Command.made (do return .shape (← truncatedOctahedron (edge.value.toScalar c))) = _
    rw [truncatedOctahedron_eq hx]
    rfl

theorem centred_exactly_three :
    let c := Context.of #[]
    let side : Single := (Number.ofInt 3 : Double).convert
    let ball : Shape := .sphere (.ofInt 1)
    ∃ o, o.Centres side ∧
      callFunction c "invert" [.item (.new (.shape ball)), .item (.new (.whole 3))] =
        .ok (.new (.shape (.combination .difference [movedCube o side, ball]))) := by
  intro c side ball
  have hx : (Scalar.whole 3).toDouble = .ok (.ofInt 3) := by decide +kernel
  have hlong : (Number.ofInt 3 : Double).IsLong := by
    have hwhole : (Number.ofInt 3 : Double).IsWhole 3 :=
      Number.isWhole_ofInt wide_double (by decide)
    refine ⟨_, (hwhole.convert wide_single (by decide)).toReal?, ?_⟩
    norm_num
  obtain ⟨⟨o, ho, hinvert⟩, -⟩ := centred_exactly c (.new (.whole 3)) hx hlong
  exact ⟨o, ho, (hinvert none _ (by simp [ball, dim])).1⟩

end Script
end SolidScript
