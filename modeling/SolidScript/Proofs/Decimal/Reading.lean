import SolidScript.Decimal.Layout
import SolidScript.Decimal.Reader
import SolidScript.Proofs.Decimal.Interval
import SolidScript.Proofs.Decimal.Value

/-!
# Reading written decimals

A positional text reads as a decimal of the value that was written, with all its zeros as digits.
-/

set_option autoImplicit false

attribute [local instance (10000)] instPowNat

namespace SolidScript.Decimal
open Binary

def AllDigits (cs : List Char) : Prop := ∀ c ∈ cs, c.isDigit = true

theorem allDigits_toDigits (n : Nat) : AllDigits (Nat.toDigits 10 n) := fun _ hc =>
  Nat.isDigit_of_mem_toDigits (by decide) (by decide) hc

theorem allDigits_zeros (n : Nat) : AllDigits (List.replicate n '0') := by
  intro c hc
  rw [List.eq_of_mem_replicate hc]
  rfl

theorem AllDigits.append {cs ds : List Char} (hc : AllDigits cs) (hd : AllDigits ds) :
    AllDigits (cs ++ ds) := by
  intro c h
  rcases List.mem_append.1 h with h | h
  · exact hc c h
  · exact hd c h

theorem allDigits_padded (width n : Nat) : AllDigits (padded width n) :=
  (allDigits_zeros _).append (allDigits_toDigits n)

theorem length_padded {width n : Nat} (hw : 0 < width) (h : n < 10 ^ width) :
    (padded width n).length = width := by
  have hle := (Nat.length_toDigits_le_iff (b := 10) (by decide) hw).2 h
  simp only [padded, List.length_append, List.length_replicate]
  omega

theorem value_padded (width n : Nat) : Nat.ofDigitChars 10 (padded width n) 0 = n := by
  rw [padded, Nat.ofDigitChars_append, Nat.ofDigitChars_replicate_zero, Nat.mul_zero,
    Nat.ofDigitChars_ten_toDigits]

theorem value_append_zeros (n e : Nat) :
    Nat.ofDigitChars 10 (Nat.toDigits 10 n ++ List.replicate e '0') 0 = n * 10 ^ e := by
  rw [Nat.ofDigitChars_append, Nat.ofDigitChars_ten_toDigits, Nat.ofDigitChars_replicate_zero,
    Nat.mul_comm]

theorem value_append_padded {m k n : Nat} (hk : 0 < k) (hn : n < 10 ^ k) :
    Nat.ofDigitChars 10 (Nat.toDigits 10 m ++ padded k n) 0 = m * 10 ^ k + n := by
  rw [Nat.ofDigitChars_append, Nat.ofDigitChars_ten_toDigits,
    Nat.ofDigitChars_eq_ofDigitChars_zero, value_padded, length_padded hk hn, Nat.mul_comm]

theorem takeDigits_append {ds : List Char} (rest : List Char) (hd : AllDigits ds)
    (hr : ∀ c ∈ rest.head?, c.isDigit = false) : takeDigits (ds ++ rest) = (ds, rest) := by
  have h1 : rest.takeWhile Char.isDigit = [] := by
    cases rest with
    | nil => rfl
    | cons c cs => simp [hr c (by simp)]
  have h2 : rest.dropWhile Char.isDigit = rest := by
    cases rest with
    | nil => rfl
    | cons c cs => simp [hr c (by simp)]
  rw [takeDigits, List.span_eq_takeWhile_dropWhile, List.takeWhile_append_of_pos hd,
    List.dropWhile_append_of_pos hd, h1, h2, List.append_nil]

theorem takeSign_of_digit {c : Char} (cs : List Char) (h : c.isDigit = true) :
    takeSign (c :: cs) = (false, c :: cs) := by
  unfold takeSign
  split
  · simp_all [Char.isDigit]
  · simp_all [Char.isDigit]
  · rfl

theorem takeSign_signed (s : Bool) {ds : List Char} (rest : List Char) (hd : AllDigits ds)
    (hne : ds ≠ []) : takeSign (signed s (ds ++ rest)) = (s, ds ++ rest) := by
  cases s with
  | true => rfl
  | false =>
    obtain ⟨c, cs, rfl⟩ := List.exists_cons_of_ne_nil hne
    exact takeSign_of_digit _ (hd c (by simp))

theorem ofText?_whole (s : Bool) {ds : List Char} (hd : AllDigits ds) (hne : ds ≠ []) :
    ofText? (signed s ds) = some ⟨s, Nat.ofDigitChars 10 ds 0, 0⟩ := by
  have hs := takeSign_signed s [] hd hne
  have ht := takeDigits_append [] hd (by simp)
  rw [List.append_nil] at hs ht
  have he : ds.isEmpty = false := by simp [hne]
  simp [ofText?, read?, hs, ht, takeFraction, takePower, he]

theorem ofText?_point (s : Bool) {ds fs : List Char} (hd : AllDigits ds) (hne : ds ≠ [])
    (hf : AllDigits fs) : ofText? (signed s (ds ++ '.' :: fs)) =
      some ⟨s, Nat.ofDigitChars 10 (ds ++ fs) 0, -fs.length⟩ := by
  have hs := takeSign_signed s ('.' :: fs) hd hne
  have ht := takeDigits_append ('.' :: fs) hd (by simp)
  have hf' := takeDigits_append [] hf (by simp)
  rw [List.append_nil] at hf'
  have he : ds.isEmpty = false := by simp [hne]
  simp [ofText?, read?, hs, ht, takeFraction, hf', takePower, he]

theorem exact_shortest {f : Format} (s : Bool) {n : Nat} (h : f.Fits n) (hn : 0 < n) :
    (shortest f s n).exact f = .finite s n h := by
  have hb : 0 < 5 ^ f.scale := Nat.pow_pos (by decide)
  rw [shortest_eq, exact_congr (trim_negative _) (magnitude_trim _),
    exact_eq_ofRatio _ (a := (found f n).1 * 10 ^ (found f n).2) hb]
  · simp [Number.ofRatio, round_found h hn, h.2]
  · have h10 : (10 : ℚ) ^ f.scale = 2 ^ f.scale * 5 ^ f.scale := by rw [← mul_pow]; norm_num
    simp only [magnitude]
    rw [zpow_sub₀ (by norm_num), zpow_natCast, zpow_natCast, h10]
    push_cast
    field_simp

/-- The text of a decimal reads as one of the same sign and value. -/
def ReadsAs (text : List Char) (d : Decimal) : Prop :=
  ∃ e, ofText? text = some e ∧ e.negative = d.negative ∧ e.magnitude = d.magnitude

theorem magnitude_zeros (s t : Bool) (n e : Nat) :
    magnitude ⟨s, n * 10 ^ e, 0⟩ = magnitude ⟨t, n, e⟩ := by
  simp [magnitude]

theorem layout_readsAs (style : Style) (d : Decimal) :
    ReadsAs (signed d.negative (style.layout true d)) d := by
  obtain ⟨s, n, p⟩ := d
  simp only [Style.layout, if_true]
  cases p with
  | ofNat e =>
    have hd : AllDigits (Nat.toDigits 10 n ++ List.replicate e '0') :=
      (allDigits_toDigits n).append (allDigits_zeros e)
    have hne : Nat.toDigits 10 n ++ List.replicate e '0' ≠ [] := by simp
    have hp : (Nat.toDigits 10 n ++ List.replicate e '0').contains '.' = false := by
      rw [← Bool.not_eq_true, List.contains_iff_mem]
      intro h
      exact absurd (hd _ h) (by decide)
    simp only [positional, hp, Bool.not_false, Bool.and_true]
    by_cases hpt : style.pointed = true
    · rw [if_pos hpt]
      refine ⟨_, ofText?_point s hd hne (allDigits_zeros 1), rfl, ?_⟩
      rw [List.append_assoc, ← List.replicate_succ', value_append_zeros, pow_succ]
      simp only [magnitude, Int.ofNat_eq_natCast, zpow_natCast, List.length_singleton]
      push_cast
      rw [zpow_neg_one]
      field_simp
    · rw [if_neg hpt]
      refine ⟨_, ofText?_whole s hd hne, rfl, ?_⟩
      rw [value_append_zeros]
      exact magnitude_zeros _ _ _ _
  | negSucc e =>
    have hc : (Nat.toDigits 10 (n / 10 ^ (e + 1)) ++ '.' ::
        padded (e + 1) (n % 10 ^ (e + 1))).contains '.' = true := by simp
    have hlt : n % 10 ^ (e + 1) < 10 ^ (e + 1) := Nat.mod_lt _ (Nat.pow_pos (by decide))
    simp only [positional, hc, Bool.not_true, Bool.and_false, Bool.false_eq_true, if_false]
    refine ⟨_, ofText?_point s (allDigits_toDigits _) (by simp) (allDigits_padded _ _), rfl, ?_⟩
    rw [value_append_padded (by omega) hlt, length_padded (by omega) hlt, Nat.div_add_mod']
    rfl

end SolidScript.Decimal

namespace SolidScript.Style
open Binary Decimal

variable {f : Format} {style : Style}

theorem write_finite (hs : style.span = none) (s : Bool) {n : Nat} (h : f.Fits n) :
    ∃ d : Decimal, d.negative = s ∧ d.exact f = .finite s n h ∧
      style.write (.finite s n h) = signed d.negative (style.layout true d) := by
  have hp : style.isPositional f n = true := by simp [isPositional, hs]
  by_cases hn : n = 0
  · subst hn
    exact ⟨⟨s, 0, 0⟩, rfl, exact_of_digits_zero rfl, by simp [write, Number.shortest?, hp]⟩
  · exact ⟨shortest f s n, trim_negative _, exact_shortest s h (Nat.pos_of_ne_zero hn),
      by simp [write, Number.shortest?, hp, hn, shortest_eq]⟩

end SolidScript.Style
