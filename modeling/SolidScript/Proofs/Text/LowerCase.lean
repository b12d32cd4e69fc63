import SolidScript.Text.LowerCase

/-!
# Lower case settles

No small letter is a capital of the table, so that a text in lower case is its own lower case.
-/

set_option autoImplicit false

namespace SolidScript.Text

namespace CaseRun

theorem holds_iff {r : CaseRun} {c : Char} : r.holds c = true ↔
    r.first ≤ c.toNat ∧ c.toNat ≤ r.last ∧ (c.toNat - r.first) % r.stride = 0 := by
  simp [holds, and_assoc]

def image (r : CaseRun) : CaseRun :=
  ⟨(r.first + r.shift).toNat, (r.last + r.shift).toNat, r.stride, 0⟩

theorem holds_image {r : CaseRun} {c d : Char} (hr : 0 ≤ r.first + r.shift)
    (hc : r.holds c = true) (hd : (d.toNat : Int) = c.toNat + r.shift) :
    r.image.holds d = true := by
  rw [holds_iff] at hc ⊢
  have hstep : d.toNat - (r.first + r.shift).toNat = c.toNat - r.first := by omega
  refine ⟨?_, ?_, ?_⟩
  · simp only [image]
    omega
  · simp only [image]
    omega
  · rw [image, hstep]
    exact hc.2.2

/-- Whether two runs share no letter: one lies below the other, or they differ in parity. -/
def apart (r q : CaseRun) : Bool :=
  r.last.blt q.first || q.last.blt r.first ||
    ((r.stride = 2 || r.first = r.last) && q.stride = 2 && r.first % 2 ≠ q.first % 2)

theorem not_holds_of_apart {r q : CaseRun} {c : Char} (h : r.apart q = true)
    (hc : r.holds c = true) : q.holds c = false := by
  rw [Bool.eq_false_iff, ne_eq, holds_iff]
  rw [holds_iff] at hc
  simp only [apart, Bool.or_eq_true, Bool.and_eq_true, Nat.blt_eq, decide_eq_true_eq] at h
  rintro ⟨hfirst, hlast, hstride⟩
  rcases h with (below | above) | ⟨⟨hr, hq⟩, hparity⟩
  · omega
  · omega
  · rw [hq] at hstride
    rcases hr with hr | hr
    · rw [hr] at hc
      omega
    · omega

end CaseRun

def dotted : CaseRun := ⟨0x130, 0x130, 1, 0⟩

/-- Letters that lower case makes by rules of their own. The first stands for code points that are
none. -/
def specialLetters : List Char := ['\x00', 'i', '\u0307', 'ς', 'σ']

-- The facts about the table are Boolean, which the kernel evaluates faster than quantifiers.
theorem image_apart : caseRuns.all (fun r => (dotted :: caseRuns).all r.image.apart) = true := by
  decide +kernel

theorem image_nonneg : caseRuns.all (fun r => 0 ≤ r.first + r.shift) = true := by
  decide +kernel

theorem specialLetters_apart :
    specialLetters.all (fun c => (dotted :: caseRuns).all fun q => !q.holds c) = true := by
  decide +kernel

theorem sigma_held : caseRuns.any (fun q => q.holds 'Σ') = true := by
  decide +kernel

def Small (c : Char) : Prop := c ≠ 'Σ' ∧ lowerLetter c = [c]

theorem small_of_not_holds {c : Char} (h : ∀ q ∈ dotted :: caseRuns, q.holds c = false) :
    Small c := by
  rw [List.forall_mem_cons] at h
  have hdotted : c ≠ 'İ' := by
    rintro rfl
    cases h.1
  have hsigma : c ≠ 'Σ' := by
    rintro rfl
    obtain ⟨q, hq, hholds⟩ := List.any_eq_true.1 sigma_held
    cases hholds.symm.trans (h.2 q hq)
  have hnone : caseRuns.find? (·.holds c) = none := by simpa using h.2
  exact ⟨hsigma, by rw [lowerLetter, if_neg hdotted, hnone]⟩

theorem small_of_special {c : Char} (hc : c ∈ specialLetters) : Small c := by
  apply small_of_not_holds
  intro q hq
  have hapart := List.all_eq_true.1 (List.all_eq_true.1 specialLetters_apart c hc) q hq
  simpa using hapart

theorem toNat_ofNat (n : Nat) : (Char.ofNat n).toNat = n ∨ Char.ofNat n = '\x00' := by
  by_cases hn : n.isValidChar
  · exact .inl (by rw [Char.ofNat, dif_pos hn]; rfl)
  · exact .inr (by rw [Char.ofNat, dif_neg hn]; rfl)

theorem small_of_holds {r : CaseRun} (hr : r ∈ caseRuns) {c : Char} (hc : r.holds c = true) :
    Small (Char.ofNat (c.toNat + r.shift).toNat) := by
  rcases toNat_ofNat (c.toNat + r.shift).toNat with hn | hn
  · apply small_of_not_holds
    intro q hq
    have hfirst := (CaseRun.holds_iff.1 hc).1
    have hnonneg := of_decide_eq_true (List.all_eq_true.1 image_nonneg r hr)
    have hapart := List.all_eq_true.1 (List.all_eq_true.1 image_apart r hr) q hq
    exact CaseRun.not_holds_of_apart hapart (CaseRun.holds_image hnonneg hc (by omega))
  · rw [hn]
    exact small_of_special (by decide)

theorem small_of_mem_lowerLetter {c d : Char} (hc : c ≠ 'Σ') (hd : d ∈ lowerLetter c) :
    Small d := by
  unfold lowerLetter at hd
  split at hd
  case isTrue =>
    exact small_of_special (List.subset_def.1 (by decide) hd)
  case isFalse hdotted =>
    split at hd
    case h_1 r hr =>
      cases List.mem_singleton.1 hd
      have hholds : r.holds c = true := by simpa using List.find?_some hr
      exact small_of_holds (List.mem_of_find?_eq_some hr) hholds
    case h_2 hnone =>
      cases List.mem_singleton.1 hd
      exact ⟨hc, by rw [lowerLetter, if_neg hdotted, hnone]⟩

theorem small_of_mem_lowerFrom {before cs : List Char} :
    ∀ d ∈ lowerFrom before cs, Small d := by
  induction cs generalizing before with
  | nil => simp [lowerFrom]
  | cons c cs ih =>
    simp only [lowerFrom, List.mem_append]
    rintro d (hd | hd)
    · split at hd
      case isTrue =>
        cases List.mem_singleton.1 hd
        apply small_of_special
        split <;> decide
      case isFalse hc => exact small_of_mem_lowerLetter hc hd
    · exact ih d hd

theorem lowerFrom_small {before cs : List Char} (h : ∀ c ∈ cs, Small c) :
    lowerFrom before cs = cs := by
  induction cs generalizing before with
  | nil => rfl
  | cons c cs ih =>
    rw [List.forall_mem_cons] at h
    simp only [lowerFrom, if_neg h.1.1, h.1.2, ih h.2, List.singleton_append]

theorem lower_lower (s : String) : lower (lower s) = lower s := by
  unfold lower
  rw [String.toList_ofList, lowerFrom_small small_of_mem_lowerFrom]

end SolidScript.Text
