import SolidScript.Decimal.Shortest
import SolidScript.Proofs.Binary.Neighbours

/-!
# The interval of a number

Every decimal in the interval of a number rounds to it, and the search for a short decimal ends
with one that is in the interval.
-/

set_option autoImplicit false

attribute [local instance (10000)] instPowNat

namespace SolidScript.Decimal
open Binary Format

variable {f : Format}

theorem mem_interval {n x : Nat} (h : (interval f n).Mem x) :
    let t := 5 ^ f.scale
    (4 * n - f.twiceBelow n) * t ≤ x ∧ x ≤ (4 * n + 2 * f.step n) * t ∧
      ((4 * n - f.twiceBelow n) * t = x ∨ x = (4 * n + 2 * f.step n) * t →
        n / f.step n % 2 = 0) := by
  obtain ⟨hl, hu⟩ := h
  simp only [interval, beq_iff_eq] at hl hu
  unfold twiceBelow
  exact ⟨by omega, by omega, by omega⟩

theorem interval_value_mem {n : Nat} (hn : 0 < n) : (interval f n).Mem (interval f n).value := by
  have ht : 0 < 5 ^ f.scale := Nat.pow_pos (by decide)
  have hs := f.step_pos n
  constructor
  · left
    simp only [interval]
    apply Nat.mul_lt_mul_of_pos_right _ ht
    split_ifs <;> omega
  · left
    simp only [interval]
    exact Nat.mul_lt_mul_of_pos_right (by omega) ht

/-- A quotient in the interval of a number rounds to it. -/
theorem round_of_mem {n a : Nat} (h : f.Fits n) (hn : 0 < n)
    (hm : (interval f n).Mem (4 * a)) : f.round a (5 ^ f.scale) = n := by
  obtain ⟨hl, hu, ht⟩ := mem_interval hm
  have hbelow : f.twiceBelow n * 5 ^ f.scale ≤ 4 * n * 5 ^ f.scale :=
    Nat.mul_le_mul_right _ (f.twiceBelow_le hn)
  rw [Nat.sub_mul] at hl ht
  rw [Nat.add_mul] at hu ht
  exact round_eq_of_bounds h hn (Nat.pow_pos (by decide)) (by omega) hu (by omega)

def found (f : Format) (n : Nat) : Nat × Nat :=
  (interval f n).search ((Nat.toDigits 10 (n * 5 ^ f.scale)).length - 1)

theorem shortest_eq (f : Format) (s : Bool) (n : Nat) :
    shortest f s n = trim ⟨s, (found f n).1, (found f n).2 - f.scale⟩ := rfl

theorem round_found {n : Nat} (h : f.Fits n) (hn : 0 < n) :
    f.round ((found f n).1 * 10 ^ (found f n).2) (5 ^ f.scale) = n := by
  apply round_of_mem h hn
  have hm := (interval f n).search_mem (interval_value_mem hn)
    (by simp only [interval, Nat.mul_assoc, Nat.mul_mod_right])
    ((Nat.toDigits 10 (n * 5 ^ f.scale)).length - 1)
  rw [Nat.mul_left_comm] at hm
  exact hm

end SolidScript.Decimal
