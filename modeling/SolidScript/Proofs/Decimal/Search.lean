import SolidScript.Proofs.Binary.Neighbours
import SolidScript.Proofs.Decimal.Interval

/-!
# What the search for a short decimal finds

The search ends with the coarsest grid that has a point in the interval, and with the point of that
grid in the interval that is nearest to the number. The interval holds everything that rounds to the
number, also what lies between two decimal units.
-/

set_option autoImplicit false

attribute [local instance (10000)] instPowNat

namespace SolidScript.Decimal
open Binary Format

namespace Interval

variable {i : Interval} {grid d j : Nat}

def Covers (i : Interval) (x : ℚ) : Prop :=
  ((i.lower : ℚ) < x ∨ i.closed = true ∧ (i.lower : ℚ) = x) ∧
    (x < i.upper ∨ i.closed = true ∧ x = i.upper)

theorem covers_natCast {x : Nat} : i.Covers x ↔ i.Mem x := by
  simp only [Covers, Mem]
  norm_cast

theorem Covers.convex {x y z : ℚ} (hx : i.Covers x) (hz : i.Covers z) (hxy : x ≤ y)
    (hyz : y ≤ z) : i.Covers y := by
  constructor
  · rcases hx.1 with h | ⟨hc, h⟩
    · exact .inl (by linarith)
    · rcases eq_or_lt_of_le hxy with rfl | hlt
      · exact .inr ⟨hc, h⟩
      · exact .inl (by linarith)
  · rcases hz.2 with h | ⟨hc, h⟩
    · exact .inl (by linarith)
    · rcases eq_or_lt_of_le hyz with rfl | hlt
      · exact .inr ⟨hc, h⟩
      · exact .inl (by linarith)

theorem Mem.neighbour (hv : i.Mem i.value) (hg : 0 < grid) {k : Nat} (hk : i.Mem (k * grid)) :
    (i.Mem (i.value / grid * grid) ∧ k * grid ≤ i.value / grid * grid) ∨
      (i.Mem ((i.value / grid + 1) * grid) ∧ (i.value / grid + 1) * grid ≤ k * grid) := by
  rcases Nat.lt_or_ge (i.value / grid) k with h | h
  · have hle : (i.value / grid + 1) * grid ≤ k * grid := Nat.mul_le_mul_right _ h
    have hge := Nat.lt_mul_of_div_lt (Nat.lt_succ_self (i.value / grid)) hg
    exact .inr ⟨hv.convex hk hge.le hle, hle⟩
  · have hle : k * grid ≤ i.value / grid * grid := Nat.mul_le_mul_right _ h
    exact .inl ⟨hk.convex hv hle (Nat.div_mul_le_self _ _), hle⟩

theorem not_mem_of_candidate?_none (hv : i.Mem i.value) (hg : 0 < grid)
    (h : i.candidate? grid = none) (k : Nat) : ¬i.Mem (k * grid) := by
  intro hk
  simp only [candidate?] at h
  rcases Mem.neighbour hv hg hk with ⟨hm, -⟩ | ⟨hm, -⟩
  · rw [if_pos hm] at h
    split_ifs at h
  · rw [if_pos hm] at h
    split_ifs at h

theorem abs_sub_natCast (a v : Nat) : |(a : ℚ) - v| = (a - v + (v - a) : ℕ) := by
  rcases Nat.le_total a v with h | h
  · rw [Nat.sub_eq_zero_of_le h, Nat.zero_add, Nat.cast_sub h, abs_sub_comm]
    exact abs_of_nonneg (sub_nonneg.2 (by exact_mod_cast h))
  · rw [Nat.sub_eq_zero_of_le h, Nat.add_zero, Nat.cast_sub h]
    exact abs_of_nonneg (sub_nonneg.2 (by exact_mod_cast h))

theorem nearest_of_candidate? (hv : i.Mem i.value) (hg : 0 < grid)
    (h : i.candidate? grid = some d) {k : Nat} (hk : i.Mem (k * grid)) :
    |((d * grid : ℕ) : ℚ) - i.value| ≤ |((k * grid : ℕ) : ℚ) - i.value| := by
  have hbelow : i.value / grid * grid ≤ i.value := Nat.div_mul_le_self _ _
  have habove : i.value < (i.value / grid + 1) * grid :=
    Nat.lt_mul_of_div_lt (Nat.lt_succ_self _) hg
  have hk := Mem.neighbour hv hg hk
  rw [abs_sub_natCast, abs_sub_natCast, Nat.cast_le]
  simp only [candidate?] at h
  generalize i.value / grid = below at *
  split_ifs at h with hb ha hdown hup ha
  · cases h
    rcases hk with ⟨-, hk⟩ | ⟨-, hk⟩ <;> omega
  · cases h
    rcases hk with ⟨-, hk⟩ | ⟨-, hk⟩ <;> omega
  · cases h
    have heven : below + below % 2 = below ∨ below + below % 2 = below + 1 := by omega
    rcases heven with heven | heven <;> rw [heven] <;>
      rcases hk with ⟨-, hk⟩ | ⟨-, hk⟩ <;> omega
  · cases h
    rcases hk with ⟨-, hk⟩ | ⟨hm, -⟩
    · omega
    · exact absurd hm ha
  · cases h
    rcases hk with ⟨hm, -⟩ | ⟨-, hk⟩
    · exact absurd hm hb
    · omega

/-- The nearest point of the coarsest of some grids that has points in the interval. -/
structure Best (i : Interval) (top d j : Nat) : Prop where
  mem : i.Mem (d * (4 * 10 ^ j))
  le_top : j ≤ top
  le_above : d ≤ i.value / (4 * 10 ^ j) + 1
  coarsest : ∀ k, j < k → k ≤ top → ∀ m, ¬i.Mem (m * (4 * 10 ^ k))
  nearest : ∀ m, i.Mem (m * (4 * 10 ^ j)) →
    |((d * (4 * 10 ^ j) : ℕ) : ℚ) - i.value| ≤ |((m * (4 * 10 ^ j) : ℕ) : ℚ) - i.value|

theorem le_of_candidate? (h : i.candidate? grid = some d) : d ≤ i.value / grid + 1 := by
  simp only [candidate?] at h
  split_ifs at h <;> cases h <;> omega

theorem search_best (hv : i.Mem i.value) (h4 : i.value % 4 = 0) (top : Nat) :
    i.Best top (i.search top).1 (i.search top).2 := by
  induction top with
  | zero =>
    have hval : i.value / 4 * (4 * 10 ^ 0) = i.value := by omega
    constructor
    · rwa [search, hval]
    · rfl
    · exact Nat.le_succ _
    · intro k hk hk0
      omega
    · intro m _
      rw [search, hval, sub_self, abs_zero]
      exact abs_nonneg _
  | succ top ih =>
    have hg : 0 < 4 * 10 ^ (top + 1) := by positivity
    simp only [search]
    split
    · rename_i d hd
      exact ⟨candidate?_mem hd, Nat.le_refl _, le_of_candidate? hd, fun k hk hkt => by omega,
        fun m => nearest_of_candidate? hv hg hd⟩
    · rename_i hnone
      refine ⟨ih.mem, ih.le_top.trans (Nat.le_succ _), ih.le_above, fun k hk hkt => ?_, ih.nearest⟩
      rcases Nat.lt_or_eq_of_le hkt with hlt | rfl
      · exact ih.coarsest k hk (by omega)
      · exact not_mem_of_candidate?_none hv hg hnone

end Interval
end SolidScript.Decimal
