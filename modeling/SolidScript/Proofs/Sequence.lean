import SolidScript.Proofs.Yields
import SolidScript.Sequence

/-!
# The elements of a sequence in order

Iteration makes the elements at 0, 1, 2, … and stops at the first that fails.
-/

set_option autoImplicit false

namespace SolidScript

variable {α β γ : Type}

theorem map_mapM (g : β → γ) (f : α → Except Fault β) (as : List α) :
    List.map g <$> as.mapM f = as.mapM fun a => g <$> f a := by
  induction as with
  | nil => rfl
  | cons a as ih =>
    simp only [List.mapM_cons, ← ih]
    cases f a with
    | error e => rfl
    | ok b => cases as.mapM f <;> rfl

theorem mapM_range_eq_ok {f : Nat → Except Fault α} {n : Nat} {as : List α} :
    (List.range n).mapM f = .ok as ↔
      as.length = n ∧ ∀ i (h : i < as.length), f i = .ok as[i] := by
  rw [mapM_eq_ok, List.forall₂_iff_get]
  simp only [List.length_range, List.get_eq_getElem, List.getElem_range]
  constructor
  · rintro ⟨rfl, h⟩
    exact ⟨rfl, fun i hi => h i hi hi⟩
  · rintro ⟨rfl, h⟩
    exact ⟨rfl, fun i _ hi => h i hi⟩

theorem mapM_range_eq_error {f : Nat → Except Fault α} {n : Nat} {e : Fault} :
    (List.range n).mapM f = .error e ↔
      ∃ j < n, (∀ i < j, ∃ a, f i = .ok a) ∧ f j = .error e := by
  rw [mapM_eq_error]
  constructor
  · rintro ⟨before, j, after, h, hbefore, hj⟩
    rw [List.range_eq_range', List.range'_eq_append_iff] at h
    obtain ⟨k, hk, rfl, h⟩ := h
    obtain ⟨rfl, hpos, -⟩ := List.range'_eq_cons_iff.1 h.symm
    refine ⟨_, by omega, fun i hi => hbefore i ?_, hj⟩
    rw [List.mem_range'_1]
    omega
  · rintro ⟨j, hj, hbefore, he⟩
    obtain ⟨k, rfl⟩ : ∃ k, n = j + (k + 1) := ⟨n - j - 1, by omega⟩
    refine ⟨List.range j, j, List.range' (j + 1) k, ?_, by simpa using hbefore, he⟩
    have happend := List.range'_append_1 (s := 0) (m := j) (n := k + 1)
    rw [← List.range'_succ, List.range_eq_range', List.range_eq_range', ← happend, Nat.zero_add]

namespace Sequence

theorem take_eq (s : Sequence α) (i : Int) (n : Nat) :
    s.take i n = (List.range n).mapM fun j : Nat => s.element (.whole (i + j)) := by
  induction n generalizing i with
  | zero => simp [take, pure, Except.pure]
  | succ n ih =>
    have hstep : ∀ j : Nat, i + 1 + j = i + (j + 1 : Nat) := fun j => by omega
    rw [take, ih, List.range_succ_eq_map, List.mapM_cons, List.mapM_map]
    simp only [hstep, Int.ofNat_zero, Int.add_zero]
    rfl

theorem items_eq (s : Sequence α) :
    s.items = (List.range s.count.toNat).mapM fun i : Nat => s.element (.whole i) := by
  simp only [items, take_eq, Int.zero_add]

theorem length_of_bounds {s : Sequence α} (h0 : 0 ≤ s.count) (h : s.count < lengthLimit) :
    s.length = .ok s.count := by
  rw [length, if_neg (by omega), if_neg (by omega)]

theorem toList_of_bounds {s : Sequence α} (h0 : 0 ≤ s.count) (h : s.count < lengthLimit) :
    s.toList = s.items := by
  rw [toList, length_of_bounds h0 h]
  rfl

end Sequence
end SolidScript
