import Mathlib

/-!
# Boxes in space

Sets of points between two corners: when one is the bounding box of a set, when sets in different
boxes do not overlap, and when sets that meet a common one make one piece with it. The boxes stand
in the cells of a lattice.
-/

set_option autoImplicit false

namespace SolidScript

abbrev Point := Fin 3 → ℝ

/-- The least box that holds a set: the set reaches each of its faces. -/
structure IsBoundingBox (lower upper : Point) (A : Set Point) : Prop where
  subset : A ⊆ Set.Icc lower upper
  reaches_lower : ∀ d, ∃ p ∈ A, p d = lower d
  reaches_upper : ∀ d, ∃ p ∈ A, p d = upper d

variable {a b c d : Point} {A B : Set Point}

theorem IsBoundingBox.convexHull (h : IsBoundingBox a b A) :
    IsBoundingBox a b (convexHull ℝ A) where
  subset := convexHull_min h.subset (convex_Icc a b)
  reaches_lower d := (h.reaches_lower d).imp fun _ => .imp_left (subset_convexHull ℝ A ·)
  reaches_upper d := (h.reaches_upper d).imp fun _ => .imp_left (subset_convexHull ℝ A ·)

theorem mem_interior_Icc {p : Point} (h : p ∈ interior (Set.Icc a b)) (i : Fin 3) :
    a i < p i ∧ p i < b i := by
  rw [← Set.pi_univ_Icc, interior_pi_set Set.finite_univ] at h
  simpa using h i trivial

theorem disjoint_interior (hA : A ⊆ Set.Icc a b) (hB : B ⊆ Set.Icc c d) {i : Fin 3}
    (h : b i ≤ c i) : Disjoint (interior A) (interior B) := by
  rw [Set.disjoint_left]
  intro p hp hp'
  have hupper := (mem_interior_Icc (interior_mono hA hp) i).2
  have hlower := (mem_interior_Icc (interior_mono hB hp') i).1
  linarith

theorem isConnected_of_meets {ι : Type} {P : ι → Prop} {parts : ι → Set Point} {core : Set Point}
    (hcore : IsConnected core)
    (hparts : ∀ i, P i → IsPreconnected (parts i) ∧ (parts i ∩ core).Nonempty) :
    IsConnected ({p | ∃ i, P i ∧ p ∈ parts i} ∪ core) := by
  obtain ⟨x, hx⟩ := hcore.nonempty
  refine ⟨⟨x, .inr hx⟩, isPreconnected_of_forall x ?_⟩
  rintro p (⟨i, hi, hp⟩ | hp)
  · obtain ⟨hconnected, q, hq, hqcore⟩ := hparts i hi
    refine ⟨parts i ∪ core, ?_, .inr hx, .inl hp, hconnected.union q hq hqcore hcore.isPreconnected⟩
    exact Set.union_subset_union_left core fun r hr => ⟨i, hi, hr⟩
  · exact ⟨core, Set.subset_union_right, hx, hp, hcore.isPreconnected⟩

/-! The cells of a lattice -/

abbrev Cell := Fin 3 → ℕ

def lower (side margin : ℝ) (cell : Cell) : Point := fun d => cell d * side + margin

def upper (side margin : ℝ) (cell : Cell) : Point := fun d => (cell d + 1) * side - margin

def cellBox (side margin : ℝ) (cell : Cell) : Set Point :=
  Set.Icc (lower side margin cell) (upper side margin cell)

/-- The box at one distance from the faces across an axis and at another one from the others. -/
def bar (side near far : ℝ) (cell : Cell) (axis : Fin 3) : Set Point :=
  Set.Icc (fun d => lower side (if d = axis then near else far) cell d)
    (fun d => upper side (if d = axis then near else far) cell d)

variable {side near far : ℝ} {cell cell' counts : Cell} {axis : Fin 3}

theorem Icc_eq_bar (ha : ∀ d, a d = lower side (if d = axis then near else far) cell d)
    (hb : ∀ d, b d = upper side (if d = axis then near else far) cell d) :
    Set.Icc a b = bar side near far cell axis :=
  congrArg₂ Set.Icc (funext ha) (funext hb)

theorem cellBox_subset_bar (h : near ≤ far) :
    cellBox side far cell ⊆ bar side near far cell axis := by
  apply Set.Icc_subset_Icc <;> intro d <;> dsimp only [lower, upper] <;> split_ifs <;> linarith

theorem bar_subset_cellBox (h : near ≤ far) :
    bar side near far cell axis ⊆ cellBox side near cell := by
  apply Set.Icc_subset_Icc <;> intro d <;> dsimp only [lower, upper] <;> split_ifs <;> linarith

theorem lower_lt_upper (h : 2 * near < side) (d : Fin 3) :
    lower side near cell d < upper side near cell d := by
  dsimp only [lower, upper]
  linarith

theorem nonempty_cellBox (h : 2 * near ≤ side) : (cellBox side near cell).Nonempty := by
  rw [cellBox, Set.nonempty_Icc]
  intro d
  dsimp only [lower, upper]
  linarith

theorem bar_nonempty (h : near ≤ far) (hfar : 2 * far ≤ side) :
    (bar side near far cell axis).Nonempty :=
  (nonempty_cellBox hfar).mono (cellBox_subset_bar h)

theorem isBoundingBox_bars (h : near ≤ far) (hfar : 2 * far ≤ side) :
    IsBoundingBox (lower side near cell) (upper side near cell)
      {p | ∃ axis, p ∈ bar side near far cell axis} where
  subset := by
    rintro p ⟨axis, hp⟩
    exact bar_subset_cellBox h hp
  reaches_lower d :=
    ⟨_, ⟨d, Set.left_mem_Icc.2 (Set.nonempty_Icc.1 (bar_nonempty h hfar))⟩, by simp⟩
  reaches_upper d :=
    ⟨_, ⟨d, Set.right_mem_Icc.2 (Set.nonempty_Icc.1 (bar_nonempty h hfar))⟩, by simp⟩

theorem disjoint_interior_of_ne (hside : 0 ≤ side) (hmargin : 0 ≤ near) (hne : cell ≠ cell')
    (hA : A ⊆ cellBox side near cell) (hB : B ⊆ cellBox side near cell') :
    Disjoint (interior A) (interior B) := by
  -- along an axis where the cells differ, the first begins where the second one ends or after it
  have happart : ∀ {i j : ℕ}, i < j → (i + 1) * side - near ≤ j * side + near := by
    intro i j hij
    have hij' : (i + 1 : ℝ) ≤ j := by exact_mod_cast hij
    linarith [mul_le_mul_of_nonneg_right hij' hside]
  obtain ⟨d, hd⟩ := Function.ne_iff.1 hne
  rcases lt_or_gt_of_ne hd with hlt | hgt
  · exact disjoint_interior hA hB (i := d) (happart hlt)
  · exact (disjoint_interior hB hA (i := d) (happart hgt)).symm

def blockUpper (side margin : ℝ) (counts : Cell) : Point := fun d => counts d * side - margin

def blockBox (side margin : ℝ) (counts : Cell) : Set Point :=
  Set.Icc (fun _ => margin) (blockUpper side margin counts)

theorem cellBox_subset_blockBox (hside : 0 ≤ side) (h : ∀ d, cell d < counts d) :
    cellBox side near cell ⊆ blockBox side near counts := by
  apply Set.Icc_subset_Icc
  · intro d
    have := mul_nonneg (Nat.cast_nonneg (α := ℝ) (cell d)) hside
    dsimp only [lower]
    linarith
  · intro d
    have hd : (cell d + 1 : ℝ) ≤ counts d := by exact_mod_cast h d
    have := mul_le_mul_of_nonneg_right hd hside
    dsimp only [upper, blockUpper]
    linarith

theorem blockBox_subset (h : near ≤ far) :
    blockBox side far counts ⊆ blockBox side near counts := by
  apply Set.Icc_subset_Icc <;> intro d <;> dsimp only [blockUpper] <;> linarith

theorem isBoundingBox_block {parts : Cell → Set Point} (hside : 0 ≤ side)
    (hcounts : ∀ d, 0 < counts d)
    (hparts : ∀ cell, (∀ d, cell d < counts d) →
      IsBoundingBox (lower side near cell) (upper side near cell) (parts cell)) :
    IsBoundingBox (fun _ => near) (blockUpper side near counts)
      {p | ∃ cell, (∀ d, cell d < counts d) ∧ p ∈ parts cell} where
  subset := by
    rintro p ⟨cell, hcell, hp⟩
    exact cellBox_subset_blockBox hside hcell ((hparts cell hcell).subset hp)
  reaches_lower d := by
    obtain ⟨p, hp, hpd⟩ := (hparts (fun _ => 0) hcounts).reaches_lower d
    exact ⟨p, ⟨_, hcounts, hp⟩, by simpa [lower] using hpd⟩
  reaches_upper d := by
    have hlast : ∀ d, (counts d - 1) < counts d := fun d => Nat.sub_one_lt (hcounts d).ne'
    obtain ⟨p, hp, hpd⟩ := (hparts (fun d => counts d - 1) hlast).reaches_upper d
    refine ⟨p, ⟨_, hlast, hp⟩, ?_⟩
    rw [hpd, upper, blockUpper]
    have : ((counts d - 1 : ℕ) : ℝ) + 1 = counts d := by
      exact_mod_cast Nat.sub_add_cancel (hcounts d)
    rw [this]

end SolidScript
