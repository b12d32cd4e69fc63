import SolidScript.Proofs.Binary.Real
import SolidScript.Proofs.Shape.WellFormed

/-!
# What turns do to space

A turn by three angles is a rotation about the first axis, then the second, then the third. Turning
what is turned adds the angles, which is not one turn after the other: rotations about different
axes do not commute. For quarter turns it is said here when the two are the same.
-/

set_option autoImplicit false

namespace SolidScript
open Binary

/-! ## Rotations -/

section
variable {R S : Type} [CommRing R] [CommRing S]

def aboutX (c s : R) : Matrix (Fin 3) (Fin 3) R := !![1, 0, 0; 0, c, -s; 0, s, c]

def aboutY (c s : R) : Matrix (Fin 3) (Fin 3) R := !![c, 0, s; 0, 1, 0; -s, 0, c]

def aboutZ (c s : R) : Matrix (Fin 3) (Fin 3) R := !![c, -s, 0; s, c, 0; 0, 0, 1]

def aboutAxes (c s : Fin 3 → R) : Matrix (Fin 3) (Fin 3) R :=
  aboutZ (c 2) (s 2) * aboutY (c 1) (s 1) * aboutX (c 0) (s 0)

theorem map_aboutAxes (f : R →+* S) (c s : Fin 3 → R) :
    (aboutAxes c s).map f = aboutAxes (f ∘ c) (f ∘ s) := by
  have hx : ∀ c s : R, (aboutX c s).map f = aboutX (f c) (f s) := by
    intro c s
    ext i j
    fin_cases i <;> fin_cases j <;> simp [aboutX]
  have hy : ∀ c s : R, (aboutY c s).map f = aboutY (f c) (f s) := by
    intro c s
    ext i j
    fin_cases i <;> fin_cases j <;> simp [aboutY]
  have hz : ∀ c s : R, (aboutZ c s).map f = aboutZ (f c) (f s) := by
    intro c s
    ext i j
    fin_cases i <;> fin_cases j <;> simp [aboutZ]
  simp only [aboutAxes, Matrix.map_mul, hx, hy, hz, Function.comp_apply]

end

noncomputable section

def radians (degrees : ℝ) : ℝ := degrees * Real.pi / 180

def degrees (k : Fin 3 → ℤ) : Fin 3 → ℝ := fun i => 90 * k i

/-- The rotation about each axis by an angle in degrees, in the order of the axes. -/
def rotation (angles : Fin 3 → ℝ) : Matrix (Fin 3) (Fin 3) ℝ :=
  aboutAxes (fun i => Real.cos (radians (angles i))) fun i => Real.sin (radians (angles i))

end

theorem degrees_cons (x y z : ℤ) : degrees ![x, y, z] = ![90 * (x : ℝ), 90 * y, 90 * z] := by
  ext i
  fin_cases i <;> rfl

/-! ## Quarter turns -/

def cosine (k : ZMod 4) : ℤ :=
  match k.val with
  | 0 => 1
  | 2 => -1
  | _ => 0

def sine (k : ZMod 4) : ℤ :=
  match k.val with
  | 1 => 1
  | 3 => -1
  | _ => 0

theorem radians_quarters (k : ℤ) : radians (90 * k) = k * (Real.pi / 2) := by
  rw [radians]
  ring

theorem cos_sin_quarters (k : ℤ) : Real.cos (radians (90 * k)) = cosine k ∧
    Real.sin (radians (90 * k)) = sine k := by
  have hnext : ∀ j : ZMod 4, cosine (j + 1) = -sine j ∧ sine (j + 1) = cosine j := by decide
  have hlast : ∀ j : ZMod 4, cosine (j - 1) = sine j ∧ sine (j - 1) = -cosine j := by decide
  simp only [radians_quarters]
  induction k using Int.induction_on with
  | zero => simp [cosine, sine]
  | succ k ih =>
    push_cast at ih ⊢
    rw [add_mul, one_mul, Real.cos_add_pi_div_two, Real.sin_add_pi_div_two, ih.1, ih.2,
      (hnext k).1, (hnext k).2]
    exact ⟨(Int.cast_neg _).symm, rfl⟩
  | pred k ih =>
    push_cast at ih ⊢
    rw [sub_mul, one_mul, Real.cos_sub_pi_div_two, Real.sin_sub_pi_div_two, ih.1, ih.2,
      (hlast (-k)).1, (hlast (-k)).2]
    exact ⟨rfl, (Int.cast_neg _).symm⟩

def quarterX (k : ZMod 4) : Matrix (Fin 3) (Fin 3) ℤ := aboutX (cosine k) (sine k)

def quarterY (k : ZMod 4) : Matrix (Fin 3) (Fin 3) ℤ := aboutY (cosine k) (sine k)

def quarterZ (k : ZMod 4) : Matrix (Fin 3) (Fin 3) ℤ := aboutZ (cosine k) (sine k)

def quarters (k : Fin 3 → ZMod 4) : Matrix (Fin 3) (Fin 3) ℤ :=
  quarterZ (k 2) * quarterY (k 1) * quarterX (k 0)

theorem quarters_eq (k : Fin 3 → ZMod 4) : quarters k = aboutAxes (cosine ∘ k) (sine ∘ k) := rfl

theorem rotation_degrees (k : Fin 3 → ℤ) :
    rotation (degrees k) = (quarters fun i => k i).map (Int.castRingHom ℝ) := by
  rw [quarters_eq, map_aboutAxes, rotation]
  simp only [degrees, cos_sin_quarters]
  rfl

/-- Added angles are applied axis by axis, so that the turns of `p` about the third axis and of `q`
about the first change places with what was between them. This is when that makes no difference. -/
def Addable (p q : Fin 3 → ZMod 4) : Prop :=
  p 2 * (q 1 + p 2 * q 0) = 0 ∧ q 0 * (p 1 + p 2 * q 0) = 0 ∨
    p 2 = 2 ∧ q 0 = 2 ∧ 2 * p 1 = 2 ∧ 2 * q 1 = 2

instance (p q : Fin 3 → ZMod 4) : Decidable (Addable p q) := by
  unfold Addable; infer_instance

theorem quarterX_add : ∀ j k, quarterX (j + k) = quarterX j * quarterX k := by decide +kernel

theorem quarterZ_add : ∀ j k, quarterZ (j + k) = quarterZ j * quarterZ k := by decide +kernel

theorem isUnit_quarterX (k : ZMod 4) : IsUnit (quarterX k) := by
  have hzero : quarterX 0 = 1 := by decide +kernel
  refine .of_mul_eq_one (quarterX (-k)) ?_
  rw [← quarterX_add, add_neg_cancel, hzero]

theorem isUnit_quarterZ (k : ZMod 4) : IsUnit (quarterZ k) := by
  have hzero : quarterZ 0 = 1 := by decide +kernel
  refine .of_mul_eq_one (quarterZ (-k)) ?_
  rw [← quarterZ_add, add_neg_cancel, hzero]

theorem quarters_add (p q : Fin 3 → ZMod 4) :
    quarters (p + q) = quarters q * quarters p ↔ Addable p q := by
  -- what the turns begin and end with is the same on both sides
  have hleft : quarters (p + q) =
      quarterZ (q 2) * (quarterZ (p 2) * quarterY (p 1 + q 1) * quarterX (q 0)) *
        quarterX (p 0) := by
    simp only [quarters, Pi.add_apply, add_comm (p 2), add_comm (p 0), quarterZ_add, quarterX_add,
      mul_assoc]
  have hright : quarters q * quarters p =
      quarterZ (q 2) * (quarterY (q 1) * quarterX (q 0) * quarterZ (p 2) * quarterY (p 1)) *
        quarterX (p 0) := by
    simp only [quarters, mul_assoc]
  have hmiddle : ∀ pz py qy qx : ZMod 4,
      quarterZ pz * quarterY (py + qy) * quarterX qx =
        quarterY qy * quarterX qx * quarterZ pz * quarterY py ↔
      pz * (qy + pz * qx) = 0 ∧ qx * (py + pz * qx) = 0 ∨
        pz = 2 ∧ qx = 2 ∧ 2 * py = 2 ∧ 2 * qy = 2 := by decide +kernel
  rw [hleft, hright, (isUnit_quarterX _).mul_left_inj, (isUnit_quarterZ _).mul_right_inj]
  exact hmiddle _ _ _ _

/-- Turning by sums of quarter turns is turning twice if and only if they are addable. -/
theorem rotation_degrees_add (p q : Fin 3 → ℤ) :
    rotation (degrees (p + q)) = rotation (degrees q) * rotation (degrees p) ↔
      Addable (fun i => p i) (fun i => q i) := by
  have hinj : Function.Injective fun M : Matrix (Fin 3) (Fin 3) ℤ => M.map (Int.castRingHom ℝ) :=
    Matrix.map_injective Int.cast_injective
  have hcast : (fun i => ((p + q) i : ZMod 4)) =
      (fun i => (p i : ZMod 4)) + fun i => (q i : ZMod 4) := by
    ext i
    simp
  rw [← quarters_add, rotation_degrees, rotation_degrees, rotation_degrees, ← Matrix.map_mul, hcast]
  exact hinj.eq_iff

/-! ## What a shape is turned by -/

noncomputable section

/-- The linear map that the turns at the top of a shape make together, each by three angles. -/
def Shape.turning : Shape → Option (Matrix (Fin 3) (Fin 3) ℝ)
  | .operator .rotate [.vector [x, y, z]] child => do
    return rotation ![← x.toReal?, ← y.toReal?, ← z.toReal?] * (← child.turning)
  | .operator .rotate _ _ => none
  | _ => some 1

end

inductive QuarterTurns (k : Fin 3 → ℤ) : Coordinates → Prop where
  | angles {x y z : Single} (hx : x.IsWhole (90 * k 0)) (hy : y.IsWhole (90 * k 1))
    (hz : z.IsWhole (90 * k 2)) : QuarterTurns k [x, y, z]

structure Nested.IsQuarterTurns (n : Nested) (k : Fin 3 → ℤ) : Prop where
  vector : n.isVector = .ok true
  whole : List.Forall₂ Scalar.IsWhole [90 * k 0, 90 * k 1, 90 * k 2] n.leaves
  bounded : ∀ i, |90 * k i| ≤ 36000

namespace QuarterTurns

variable {k l : Fin 3 → ℤ} {xs ys : Coordinates} {s : Shape}

theorem turning (h : QuarterTurns k xs) (hs : s.turning = some 1) :
    (Shape.operator .rotate [.vector xs] s).turning = some (rotation (degrees k)) := by
  obtain ⟨hx, hy, hz⟩ := h
  have hangles :
      ![((90 * k 0 : ℤ) : ℝ), ((90 * k 1 : ℤ) : ℝ), ((90 * k 2 : ℤ) : ℝ)] = degrees k := by
    ext i
    fin_cases i <;> simp [degrees]
  rw [Shape.turning, hx.toReal?, hy.toReal?, hz.toReal?, hs, ← hangles]
  exact congrArg some (mul_one _)

theorem add (hx : QuarterTurns k xs) (hy : QuarterTurns l ys) (hk : ∀ i, |90 * k i| ≤ 36000)
    (hl : ∀ i, |90 * l i| ≤ 36000) : QuarterTurns (k + l) (xs.zipWith (· + ·) ys) := by
  obtain ⟨hx0, hx1, hx2⟩ := hx
  obtain ⟨hy0, hy1, hy2⟩ := hy
  have hsum : ∀ (i : Fin 3) {x y : Single}, x.IsWhole (90 * k i) → y.IsWhole (90 * l i) →
      (x + y).IsWhole (90 * (k + l) i) := by
    intro i x y hx hy
    rw [Pi.add_apply, mul_add]
    refine hx.add hy Format.wide_single ?_
    have := hk i
    have := hl i
    rw [abs_le] at *
    change _ ≤ 2 ^ 24
    omega
  exact .angles (hsum 0 hx0 hy0) (hsum 1 hx1 hy1) (hsum 2 hx2 hy2)

end QuarterTurns

theorem Nested.isEven_of_isVector {n : Nested} (h : n.isVector = .ok true) : n.isEven = true := by
  cases n with
  | scalar x => cases h
  | vector xs => simp [isEven, extents?, maxDepth]
  | list items =>
    rw [isVector] at h
    split at h
    · assumption
    · cases h

theorem Nested.isQuarterTurns_of (k : Fin 3 → ℤ) (h : ∀ i, |90 * k i| ≤ 36000) :
    (of [.whole (90 * k 0), .whole (90 * k 1), .whole (90 * k 2)]).IsQuarterTurns k where
  vector := rfl
  whole := .cons rfl (.cons rfl (.cons rfl .nil))
  bounded := h

namespace Nested.IsQuarterTurns

variable {n : Nested} {k : Fin 3 → ℤ}

theorem coordinates (h : n.IsQuarterTurns k) {s : Shape} (hd : s.dim = some .space) :
    ∃ xs, s.coordinates n = .ok xs ∧ QuarterTurns k xs := by
  have narrows (i : Fin 3) {x : Scalar} (hx : x.IsWhole (90 * k i)) :
      ∃ y, x.narrow = .ok y ∧ y.IsWhole (90 * k i) := by
    apply hx.narrow
    have := h.bounded i
    rw [abs_le] at this
    omega
  have hwhole := h.whole
  simp only [List.forall₂_cons_left_iff, List.forall₂_nil_left_iff] at hwhole
  obtain ⟨a, _, ha, ⟨b, _, hb, ⟨c, _, hc, rfl, rfl⟩, rfl⟩, hleaves⟩ := hwhole
  obtain ⟨x, hax, hx⟩ := narrows 0 ha
  obtain ⟨y, hby, hy⟩ := narrows 1 hb
  obtain ⟨z, hcz, hz⟩ := narrows 2 hc
  refine ⟨[x, y, z], ?_, .angles hx hy hz⟩
  have hnarrow : n.leaves.mapM Scalar.narrow = .ok [x, y, z] := by
    rw [hleaves, mapM_eq_ok]
    exact .cons hax (.cons hby (.cons hcz .nil))
  rw [Shape.coordinates, hd, toVector, if_pos (isEven_of_isVector h.vector), hnarrow]
  rfl

theorem scalarOrVector (h : n.IsQuarterTurns k) {s : Shape} (hd : s.dim = some .space) :
    ∃ xs, s.scalarOrVector n = .ok (.vector xs) ∧ QuarterTurns k xs := by
  obtain ⟨xs, hxs, hk⟩ := h.coordinates hd
  refine ⟨xs, ?_, hk⟩
  have hvector := h.vector
  unfold Shape.scalarOrVector
  split
  · cases hvector
  · rw [hxs]
    rfl

end Nested.IsQuarterTurns

namespace Shape

variable {s : Shape} {a b : Nested} {p q : Fin 3 → ℤ}

theorem turning_other (h : ∀ ps child, s ≠ .operator .rotate ps child) : s.turning = some 1 := by
  unfold turning
  split
  · exact absurd rfl (h _ _)
  · exact absurd rfl (h _ _)
  · rfl

theorem rotate_rotate_quarters (hd : s.dim = some .space)
    (hs : ∀ ps child, s ≠ .operator .rotate ps child) (ha : a.IsQuarterTurns p)
    (hb : b.IsQuarterTurns q) : ∃ xs t, s.rotate a = .ok t ∧
      t.rotate b = .ok (.operator .rotate [.vector xs] s) ∧ QuarterTurns (p + q) xs := by
  obtain ⟨xs, hxs, hp⟩ := ha.scalarOrVector hd
  obtain ⟨ys, hys, hq⟩ := hb.scalarOrVector (s := .operator .rotate [.vector xs] s) hd
  have hlength : xs.length = ys.length := by
    cases hp
    cases hq
    rfl
  refine ⟨_, .operator .rotate [.vector xs] s, ?_, ?_, hp.add hq ha.bounded hb.bounded⟩
  · rw [rotate_other hs, hxs]
    rfl
  · rw [rotate_rotate, hys]
    simp only [firstParameter, bind, Except.bind, Parameter.turn?_of_length hlength]
    rfl

/-- Two calls that turn a shape of space by quarter turns leave one turn, by the sum of the angles.
They turn the shape as they would one after the other if and only if the turns are addable. -/
theorem turning_rotate_rotate (hd : s.dim = some .space)
    (hs : ∀ ps child, s ≠ .operator .rotate ps child) (ha : a.IsQuarterTurns p)
    (hb : b.IsQuarterTurns q) : ∃ t u xs, s.rotate a = .ok t ∧ t.rotate b = .ok u ∧
      u = .operator .rotate [.vector xs] s ∧
      u.turning = some (rotation (degrees (p + q))) ∧
      (u.turning = some (rotation (degrees q) * rotation (degrees p)) ↔
        Addable (fun i => p i) (fun i => q i)) := by
  obtain ⟨xs, t, ht, hu, hxs⟩ := rotate_rotate_quarters hd hs ha hb
  have hturning := hxs.turning (turning_other hs)
  refine ⟨t, _, xs, ht, hu, rfl, hturning, ?_⟩
  rw [hturning, Option.some_inj]
  exact rotation_degrees_add p q

theorem turning_rotate_rotate_in_order : ∃ t u xs,
    (cube (.ofInt 1)).rotate (.of [.whole 90, .whole 0, .whole 0]) = .ok t ∧
      t.rotate (.of [.whole 0, .whole 0, .whole 90]) = .ok u ∧
      u = .operator .rotate [.vector xs] (cube (.ofInt 1)) ∧
      u.turning = some (rotation ![0, 0, 90] * rotation ![90, 0, 0]) := by
  have hx : (Nested.of [.whole 90, .whole 0, .whole 0]).IsQuarterTurns ![1, 0, 0] :=
    Nested.isQuarterTurns_of ![1, 0, 0] (by decide)
  have hz : (Nested.of [.whole 0, .whole 0, .whole 90]).IsQuarterTurns ![0, 0, 1] :=
    Nested.isQuarterTurns_of ![0, 0, 1] (by decide)
  obtain ⟨t, u, xs, ht, hu, hnode, -, hturning⟩ :=
    turning_rotate_rotate (s := cube (.ofInt 1)) rfl (by simp) hx hz
  refine ⟨t, u, xs, ht, hu, hnode, ?_⟩
  rw [hturning.2 (by decide), degrees_cons, degrees_cons]
  norm_num

/-- Turned about the second axis and then about the first, a cube is not turned as by the two turns
one after the other. -/
theorem turning_rotate_rotate_out_of_order : ∃ t u,
    (cube (.ofInt 1)).rotate (.of [.whole 0, .whole 90, .whole 0]) = .ok t ∧
      t.rotate (.of [.whole 90, .whole 0, .whole 0]) = .ok u ∧
      u.turning ≠ some (rotation ![90, 0, 0] * rotation ![0, 90, 0]) := by
  have hy : (Nested.of [.whole 0, .whole 90, .whole 0]).IsQuarterTurns ![0, 1, 0] :=
    Nested.isQuarterTurns_of ![0, 1, 0] (by decide)
  have hx : (Nested.of [.whole 90, .whole 0, .whole 0]).IsQuarterTurns ![1, 0, 0] :=
    Nested.isQuarterTurns_of ![1, 0, 0] (by decide)
  obtain ⟨xs, t, ht, hu, hxs⟩ := rotate_rotate_quarters (s := cube (.ofInt 1)) rfl (by simp) hy hx
  refine ⟨t, _, ht, hu, ?_⟩
  have hadd : ¬Addable (fun i => ![0, 1, 0] i) (fun i => ![1, 0, 0] i) := by decide
  have hdegrees : degrees ![1, 0, 0] = ![90, 0, 0] ∧ degrees ![0, 1, 0] = ![0, 90, 0] := by
    rw [degrees_cons, degrees_cons]
    norm_num
  rw [hxs.turning (turning_other (by simp)), ← hdegrees.1, ← hdegrees.2, ne_eq, Option.some_inj]
  exact mt (rotation_degrees_add _ _).1 hadd

end Shape
end SolidScript
