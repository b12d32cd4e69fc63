import SolidScript.Proofs.Binary.Real
import SolidScript.Proofs.Binary.Scaling
import SolidScript.Proofs.Script.Nesting

/-!
# Products of plane vectors

Two vectors of the plane are multiplied as complex numbers, and each of the six operations rounds.
Some of what is true of complex numbers survives that: the order of the factors does not matter, a
quarter turn is exact, and a vector times its mirror image lies on the first axis. The rest holds
wherever no operation rounds.
-/

set_option autoImplicit false

attribute [local instance (10000)] instPowNat

namespace SolidScript
open Binary Complex

structure Pair where
  re : Single
  im : Single

namespace Pair

def toCoordinates (p : Pair) : Coordinates := [p.re, p.im]

/-- The product as complex numbers, with every operation rounded. -/
def times (p q : Pair) : Pair :=
  ⟨p.re * q.re - p.im * q.im, p.re * q.im + p.im * q.re⟩

def conj (p : Pair) : Pair := ⟨p.re, -p.im⟩

noncomputable def value? (p : Pair) : Option ℂ := do return ⟨← p.re.toReal?, ← p.im.toReal?⟩

variable {p q r u : Pair} {z w : ℂ}

theorem exists_toCoordinates {xs : Coordinates} (h : xs.length = 2) :
    ∃ p : Pair, xs = p.toCoordinates := by
  obtain ⟨x, y, rfl⟩ := List.length_eq_two.1 h
  exact ⟨⟨x, y⟩, rfl⟩

theorem value?_eq_some :
    p.value? = some z ↔ p.re.toReal? = some z.re ∧ p.im.toReal? = some z.im := by
  rw [value?]
  cases p.re.toReal? with
  | none => simp
  | some a => cases p.im.toReal? with
    | none => simp
    | some b => simp [Complex.ext_iff]

/-! Products of all numbers -/

theorem times_comm (p q : Pair) : p.times q = q.times p := by
  simp only [times, Number.mul_comm q.re, Number.mul_comm q.im, Number.add_comm (p.im * q.re)]

theorem im_times_conj (h : (p.re * p.im).isFinite = true) :
    (p.times p.conj).im = .zero false :=
  Number.mul_neg_add_mul h

/-! Quarter turns -/

theorem exists_I_pow (k : Nat) : ∃ i j : ℤ, (I ^ k : ℂ) = ⟨i, j⟩ ∧
    (i = 0 ∧ j.natAbs = 1 ∨ j = 0 ∧ i.natAbs = 1) := by
  induction k with
  | zero => exact ⟨1, 0, by simp [Complex.ext_iff], .inr ⟨rfl, rfl⟩⟩
  | succ k ih =>
    obtain ⟨i, j, hpow, hij⟩ := ih
    refine ⟨-j, i, ?_, by omega⟩
    rw [pow_succ, hpow]
    simp [Complex.ext_iff]

theorem value?_times_turn (hp : p.value? = some z) {k : Nat} (hu : u.value? = some (I ^ k)) :
    (p.times u).value? = some (I ^ k * z) := by
  obtain ⟨i, j, hpow, hij⟩ := exists_I_pow k
  rw [hpow] at hu ⊢
  obtain ⟨hre, him⟩ := value?_eq_some.1 hp
  obtain ⟨hi, hj⟩ := value?_eq_some.1 hu
  have hi := Number.isWhole_of_toReal? hi
  have hj := Number.isWhole_of_toReal? hj
  have hi1 : i.natAbs ≤ 1 := by omega
  have hj1 : j.natAbs ≤ 1 := by omega
  have hzero : (i : ℝ) = 0 ∨ (j : ℝ) = 0 := by
    obtain ⟨rfl, -⟩ | ⟨rfl, -⟩ := hij <;> simp
  have hdifference := Number.toReal?_add_of_zero (Number.toReal?_mul_whole hre hi hi1)
    (Number.toReal?_neg (Number.toReal?_mul_whole him hj hj1)) (by
      obtain h | h := hzero <;> simp [h])
  have hsum := Number.toReal?_add_of_zero (Number.toReal?_mul_whole hre hj hj1)
    (Number.toReal?_mul_whole him hi hi1) (by
      obtain h | h := hzero <;> simp [h])
  rw [value?_eq_some]
  refine ⟨hdifference.trans ?_, hsum.trans ?_⟩
  · simp only [Complex.mul_re]
    congr 1
    ring
  · simp only [Complex.mul_im]
    congr 1
    ring

theorem value?_turns (hp : p.value? = some z) (hu : u.value? = some I) (n : Nat) :
    ((times · u)^[n] p).value? = some (I ^ n * z) := by
  induction n with
  | zero => simpa using hp
  | succ n ih =>
    rw [Function.iterate_succ_apply', value?_times_turn ih (k := 1) (by simpa using hu)]
    congr 1
    ring

/-! Products that are not rounded -/

/-- Whether no operation of a product rounds. -/
structure Exact (p q : Pair) : Prop where
  re_re : Exactly (· * ·) p.re q.re (p.re * q.re)
  im_im : Exactly (· * ·) p.im q.im (p.im * q.im)
  re_im : Exactly (· * ·) p.re q.im (p.re * q.im)
  im_re : Exactly (· * ·) p.im q.re (p.im * q.re)
  difference : Exactly (· - ·) (p.re * q.re) (p.im * q.im) (p.times q).re
  sum : Exactly (· + ·) (p.re * q.im) (p.im * q.re) (p.times q).im

theorem Exact.value?_times (h : Exact p q) (hp : p.value? = some z) (hq : q.value? = some w) :
    (p.times q).value? = some (z * w) := by
  rw [value?_eq_some] at hp hq ⊢
  exact ⟨h.difference.value (h.re_re.value hp.1 hq.1) (h.im_im.value hp.2 hq.2),
    h.sum.value (h.re_im.value hp.1 hq.2) (h.im_re.value hp.2 hq.1)⟩

theorem Exact.exists_values (h : Exact p q) :
    ∃ z w, p.value? = some z ∧ q.value? = some w ∧ (p.times q).value? = some (z * w) := by
  obtain ⟨a, b, ha, hb, -⟩ := h.re_re
  obtain ⟨a', b', ha', hb', -⟩ := h.im_im
  have hp : p.value? = some ⟨a, a'⟩ := value?_eq_some.2 ⟨ha, ha'⟩
  have hq : q.value? = some ⟨b, b'⟩ := value?_eq_some.2 ⟨hb, hb'⟩
  exact ⟨_, _, hp, hq, h.value?_times hp hq⟩

theorem Exact.assoc (hpq : Exact p q) (hpqr : Exact (p.times q) r) (hqr : Exact q r)
    (hp : Exact p (q.times r)) : ∃ z, ((p.times q).times r).value? = some z ∧
      (p.times (q.times r)).value? = some z := by
  obtain ⟨z, w, hz, hw, hzw⟩ := hpq.exists_values
  obtain ⟨-, v, -, hv, -⟩ := hqr.exists_values
  refine ⟨z * w * v, hpqr.value?_times hzw hv, ?_⟩
  rw [mul_assoc]
  exact hp.value?_times hz (hqr.value?_times hw hv)

def WholeWithin (n : Nat) (p : Pair) : Prop :=
  ∃ i j : ℤ, p.re.IsWhole i ∧ p.im.IsWhole j ∧ i.natAbs ≤ n ∧ j.natAbs ≤ n

theorem exact_of_wholeWithin {m n : Nat} (hp : p.WholeWithin m) (hq : q.WholeWithin n)
    (h : 2 * (m * n) ≤ 2 ^ 24) : Exact p q ∧ (p.times q).WholeWithin (2 * (m * n)) := by
  obtain ⟨i, j, hi, hj, him, hjm⟩ := hp
  obtain ⟨k, l, hk, hl, hkn, hln⟩ := hq
  have hwide := Format.wide_single
  have hbound : ∀ {a b : ℤ}, a.natAbs ≤ m → b.natAbs ≤ n → (a * b).natAbs ≤ m * n := by
    intro a b ha hb
    rw [Int.natAbs_mul]
    exact Nat.mul_le_mul ha hb
  have hmul : ∀ {x y : Single} {a b : ℤ}, x.IsWhole a → y.IsWhole b → a.natAbs ≤ m →
      b.natAbs ≤ n → (x * y).IsWhole (a * b) := fun hx hy ha hb =>
    hx.mul hy hwide ((hbound ha hb).trans (le_trans (by omega) h))
  have hrr := hmul hi hk him hkn
  have hii := hmul hj hl hjm hln
  have hri := hmul hi hl him hln
  have hir := hmul hj hk hjm hkn
  have hik := hbound him hkn
  have hjl := hbound hjm hln
  have hil := hbound him hln
  have hjk := hbound hjm hkn
  have hdifference := hrr.sub hii hwide (le_trans (by omega) h)
  have hsum := hri.add hir hwide (le_trans (by omega) h)
  refine ⟨⟨exactly_of_isWhole hi hk hrr ?_, exactly_of_isWhole hj hl hii ?_,
    exactly_of_isWhole hi hl hri ?_, exactly_of_isWhole hj hk hir ?_,
    exactly_of_isWhole hrr hii hdifference ?_, exactly_of_isWhole hri hir hsum ?_⟩,
    _, _, hdifference, hsum, by omega, by omega⟩ <;> push_cast <;> rfl

def ofInts (i j : ℤ) : Pair := ⟨.ofInt i, .ofInt j⟩

variable {i j : ℤ} {n : Nat}

theorem isWhole_ofInts (hi : i.natAbs ≤ 2 ^ 24) (hj : j.natAbs ≤ 2 ^ 24) :
    (ofInts i j).re.IsWhole i ∧ (ofInts i j).im.IsWhole j := by
  have hwide := Format.wide_single
  simp only [ofInts]
  exact ⟨Number.isWhole_ofInt hwide hi, Number.isWhole_ofInt hwide hj⟩

theorem wholeWithin_ofInts (hi : i.natAbs ≤ n) (hj : j.natAbs ≤ n) (hn : n ≤ 2 ^ 24) :
    (ofInts i j).WholeWithin n := by
  obtain ⟨hre, him⟩ := isWhole_ofInts (hi.trans hn) (hj.trans hn)
  exact ⟨i, j, hre, him, hi, hj⟩

theorem value?_ofInts (hi : i.natAbs ≤ 2 ^ 24) (hj : j.natAbs ≤ 2 ^ 24) :
    (ofInts i j).value? = some ⟨i, j⟩ := by
  obtain ⟨hre, him⟩ := isWhole_ofInts hi hj
  exact value?_eq_some.2 ⟨hre.toReal?, him.toReal?⟩

end Pair

namespace Script
open Pair

variable {c : Context}

def Reads (c : Context) (a : Item) (p : Pair) : Prop :=
  a.value.toVector c (some 2) = .ok p.toCoordinates

theorem exists_reads {a : Item} {xs : Coordinates}
    (h : a.value.toVector c (some 2) = .ok xs) : ∃ p, Reads c a p := by
  obtain ⟨n, -, hn⟩ := bind_eq_ok.1 h
  obtain ⟨p, rfl⟩ := exists_toCoordinates (Int.ofNat.inj (length_of_toVector hn))
  exact ⟨p, h⟩

theorem reads_new (c : Context) (p : Pair) : Reads c (.new (.vector p.toCoordinates)) p := by
  apply Value.toVector_vector
  rintro _ ⟨⟩
  rfl

def multiply (c : Context) (a b : Item) : Except Fault Item :=
  callFunction c "cmul" [.item a, .item b]

theorem multiply_eq {a b : Item} {p q : Pair} (ha : Reads c a p) (hb : Reads c b q) :
    multiply c a b = .ok (.new (.vector (p.times q).toCoordinates)) := by
  change Command.made (product c a.value b.value) = _
  rw [product, ha, ok_bind, hb, ok_bind]
  rfl

theorem iterate_multiply {a b : Item} {p q : Pair} (hb : Reads c b q) (n : Nat)
    (ha : Reads c a p) :
    ∃ i, iterate (multiply c · b) n a = .ok i ∧ Reads c i ((times · q)^[n] p) := by
  induction n generalizing a p with
  | zero => exact ⟨a, rfl, ha⟩
  | succ n ih =>
    obtain ⟨i, hi, hread⟩ := ih (reads_new c (p.times q))
    refine ⟨i, ?_, hread⟩
    rw [iterate, multiply_eq ha hb, ok_bind, hi]

/-- Vectors of the plane are multiplied in either order with the same components. The product with a
quarter turn has the value of the turned vector, whatever the signs of zeros; the product with the
mirror image has no second component as long as it is finite; and if nothing is rounded products
are associative and multiply lengths. -/
theorem multiply_composes_turns (c : Context) :
    (∀ a b xs ys, a.value.toVector c (some 2) = .ok xs → b.value.toVector c (some 2) = .ok ys →
      ∃ p q : Pair, xs = p.toCoordinates ∧ ys = q.toCoordinates ∧
        multiply c a b = .ok (.new (.vector (p.times q).toCoordinates)) ∧
        multiply c b a = .ok (.new (.vector (p.times q).toCoordinates))) ∧
    (∀ (p u : Pair) z k, p.value? = some z → u.value? = some (I ^ k) →
      (p.times u).value? = some (I ^ k * z)) ∧
    (∀ a b (p u : Pair) z, Reads c a p → Reads c b u → p.value? = some z → u.value? = some I →
      ∃ i, ∃ q : Pair, iterate (multiply c · b) 4 a = .ok i ∧ Reads c i q ∧ q.value? = some z) ∧
    (∀ p : Pair, (p.re * p.im).isFinite = true → (p.times p.conj).im = .zero false) ∧
    (∀ p q r : Pair, Exact p q → Exact (p.times q) r → Exact q r → Exact p (q.times r) →
      ∃ z, ((p.times q).times r).value? = some z ∧ (p.times (q.times r)).value? = some z) ∧
    (∀ p q : Pair, Exact p q → ∃ z w v, p.value? = some z ∧ q.value? = some w ∧
      (p.times q).value? = some v ∧ normSq v = normSq z * normSq w) := by
  refine ⟨fun a b xs ys ha hb => ?_, fun p u z k hp hu => value?_times_turn hp hu,
    fun a b p u z ha hb hp hu => ?_, fun p h => im_times_conj h,
    fun p q r hpq hpqr hqr hp => hpq.assoc hpqr hqr hp, fun p q h => ?_⟩
  · obtain ⟨p, hp⟩ := exists_reads ha
    obtain ⟨q, hq⟩ := exists_reads hb
    refine ⟨p, q, Except.ok.inj (ha.symm.trans hp), Except.ok.inj (hb.symm.trans hq),
      multiply_eq hp hq, ?_⟩
    rw [multiply_eq hq hp, times_comm]
  · obtain ⟨i, hi, hread⟩ := iterate_multiply hb 4 ha
    refine ⟨i, _, hi, hread, ?_⟩
    rw [value?_turns hp hu, I_pow_four, one_mul]
  · obtain ⟨z, w, hz, hw, hzw⟩ := h.exists_values
    exact ⟨z, w, z * w, hz, hw, hzw, normSq_mul z w⟩

theorem multiply_composes_turns_three_four :
    let c := Context.of #[]
    let p := ofInts 3 4
    let q := ofInts 2 (-1)
    let turn := ofInts 0 1
    let item := fun r : Pair => Item.new (.vector r.toCoordinates)
    multiply c (item p) (item q) = multiply c (item q) (item p) ∧
      (p.times turn).value? = some (I ^ 1 * ⟨(3 : ℤ), (4 : ℤ)⟩) ∧
      (∃ i, ∃ r : Pair, iterate (multiply c · (item turn)) 4 (item p) = .ok i ∧ Reads c i r ∧
        r.value? = some ⟨(3 : ℤ), (4 : ℤ)⟩) ∧
      (p.times p.conj).im = .zero false ∧
      (∃ z, ((p.times q).times turn).value? = some z ∧
        (p.times (q.times turn)).value? = some z) ∧
      ∃ z w v, p.value? = some z ∧ q.value? = some w ∧ (p.times q).value? = some v ∧
        normSq v = normSq z * normSq w := by
  intro c p q turn item
  have hp : p.value? = some ⟨(3 : ℤ), (4 : ℤ)⟩ := value?_ofInts (by decide) (by decide)
  have hturn : turn.value? = some I := by
    rw [value?_ofInts (by decide) (by decide)]
    simp [Complex.ext_iff]
  have hpw : p.WholeWithin 4 := wholeWithin_ofInts (by decide) (by decide) (by decide)
  have hqw : q.WholeWithin 2 := wholeWithin_ofInts (by decide) (by decide) (by decide)
  have htw : turn.WholeWithin 1 := wholeWithin_ofInts (by decide) (by decide) (by decide)
  obtain ⟨hpq, hpqw⟩ := exact_of_wholeWithin hpw hqw (by decide)
  obtain ⟨hqt, hqtw⟩ := exact_of_wholeWithin hqw htw (by decide)
  obtain ⟨hcomm, hquarter, hfour, hconj, hassoc, hlength⟩ := multiply_composes_turns c
  obtain ⟨p', q', -, -, hone, htwo⟩ := hcomm _ _ _ _ (reads_new c p) (reads_new c q)
  exact ⟨hone.trans htwo.symm, hquarter p turn _ 1 hp (hturn.trans (by rw [pow_one])),
    hfour _ _ p turn _ (reads_new c p) (reads_new c turn) hp hturn, hconj p (by decide +kernel),
    hassoc p q turn hpq (exact_of_wholeWithin hpqw htw (by decide)).1 hqt
      (exact_of_wholeWithin hpw hqtw (by decide)).1, hlength p q hpq⟩

end Script
end SolidScript
