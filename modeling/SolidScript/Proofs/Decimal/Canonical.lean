import SolidScript.Proofs.Decimal.Shortest
import SolidScript.Proofs.Binary.Whole
import SolidScript.Script.Argument
import SolidScript.Script.Function

/-!
# Canonical numerals

A number in a script is written with all its digits in place and nothing more: no zero in front, no
zero behind the fraction and no point without one. It has a fraction exactly if it is not whole,
since the search for the shortest decimal of a whole number stops before the point.
-/

set_option autoImplicit false

attribute [local instance (10000)] instPowNat

namespace SolidScript
open Binary

namespace Decimal

/-! Digits -/

theorem digitChar_ne_zero {n : Nat} (h0 : 0 < n) (h : n < 10) : Nat.digitChar n ≠ '0' := by
  interval_cases n <;> decide

theorem eq_zero_of_head?_toDigits {n : Nat} (h : (Nat.toDigits 10 n).head? = some '0') : n = 0 := by
  induction n using Nat.strongRecOn with
  | ind n ih =>
    rw [Nat.toDigits_eq_if (by decide)] at h
    split at h
    · by_contra h0
      exact digitChar_ne_zero (Nat.pos_of_ne_zero h0) ‹_› (Option.some.inj h)
    · rw [List.head?_append_of_ne_nil _ Nat.toDigits_ne_nil] at h
      have := ih (n / 10) (by omega) h
      omega

theorem getLast?_toDigits (n : Nat) :
    (Nat.toDigits 10 n).getLast? = some (Nat.digitChar (n % 10)) := by
  rw [Nat.toDigits_eq_if (by decide)]
  split
  · rw [Nat.mod_eq_of_lt ‹_›]
    rfl
  · exact List.getLast?_concat

theorem getLast?_padded (width n : Nat) :
    (padded width n).getLast? = some (Nat.digitChar (n % 10)) := by
  rw [padded, List.getLast?_append, getLast?_toDigits]
  rfl

theorem padded_ne_nil (width n : Nat) : padded width n ≠ [] := by simp [padded]

theorem getLast?_padded_mod {n : Nat} (h : n % 10 ≠ 0) (e : Nat) :
    (padded (e + 1) (n % 10 ^ (e + 1))).getLast? ≠ some '0' := by
  rw [getLast?_padded, Nat.mod_mod_of_dvd n ⟨10 ^ e, Nat.pow_succ'⟩]
  intro h0
  exact digitChar_ne_zero (Nat.pos_of_ne_zero h) (Nat.mod_lt n (by decide)) (Option.some.inj h0)

theorem AllDigits.not_mem {ds : List Char} (hd : AllDigits ds) {c : Char}
    (hc : c.isDigit = false) : c ∉ ds := fun h => by simp [hd c h] at hc

theorem mem_signed {s : Bool} {c : Char} {ds : List Char} :
    c ∈ signed s ds ↔ s = true ∧ c = '-' ∨ c ∈ ds := by
  cases s <;> simp [signed]

/-! Numerals -/

/-- A number in places: a sign, a whole part with no zero in front but a lone one, and a fraction
that does not end in a zero. The point is left out with the fraction. -/
structure Numeral where
  negative : Bool
  whole : List Char
  fraction : List Char
  whole_digits : AllDigits whole
  whole_ne_nil : whole ≠ []
  leading : whole.head? = some '0' → whole = ['0']
  fraction_digits : AllDigits fraction
  trailing : fraction.getLast? ≠ some '0'

namespace Numeral

def text (p : Numeral) : List Char :=
  signed p.negative (match p.fraction with
    | [] => p.whole
    | c :: cs => p.whole ++ '.' :: c :: cs)

variable {p : Numeral}

theorem text_of_nil (h : p.fraction = []) : p.text = signed p.negative p.whole := by
  rw [text, h]

theorem text_of_ne_nil (h : p.fraction ≠ []) :
    p.text = signed p.negative (p.whole ++ '.' :: p.fraction) := by
  obtain ⟨c, cs, h⟩ := List.exists_cons_of_ne_nil h
  rw [text, h]

theorem point_mem_text (p : Numeral) : '.' ∈ p.text ↔ p.fraction ≠ [] := by
  have hwhole := p.whole_digits.not_mem (c := '.') rfl
  by_cases h : p.fraction = []
  · simp [text_of_nil h, mem_signed, hwhole, h]
  · simp [text_of_ne_nil h, mem_signed, h]

theorem minus_mem_text (p : Numeral) : '-' ∈ p.text ↔ p.negative = true := by
  have hwhole := p.whole_digits.not_mem (c := '-') rfl
  have hfraction := p.fraction_digits.not_mem (c := '-') rfl
  by_cases h : p.fraction = []
  · simp [text_of_nil h, mem_signed, hwhole]
  · simp [text_of_ne_nil h, mem_signed, hwhole, hfraction]

end Numeral

theorem exists_numeral {d : Decimal} (h : d.digits % 10 ≠ 0 ∨ d.digits = 0 ∧ d.exponent = 0) :
    ∃ p : Numeral, signed d.negative d.positional = p.text ∧ p.negative = d.negative ∧
      (p.fraction = [] ↔ 0 ≤ d.exponent) := by
  obtain ⟨s, n, e⟩ := d
  cases e with
  | ofNat e =>
    have hleading : (Nat.toDigits 10 n ++ List.replicate e '0').head? = some '0' →
        Nat.toDigits 10 n ++ List.replicate e '0' = ['0'] := by
      intro hhead
      rw [List.head?_append_of_ne_nil _ Nat.toDigits_ne_nil] at hhead
      obtain rfl := eq_zero_of_head?_toDigits hhead
      obtain rfl : e = 0 := by simpa using h
      rfl
    let p : Numeral := ⟨s, Nat.toDigits 10 n ++ List.replicate e '0', [],
      (allDigits_toDigits n).append (allDigits_zeros e), by simp, hleading, nofun, nofun⟩
    exact ⟨p, rfl, rfl, by simp [p]⟩
  | negSucc e =>
    have hlast : n % 10 ≠ 0 := by simpa using h
    have hleading : (Nat.toDigits 10 (n / 10 ^ (e + 1))).head? = some '0' →
        Nat.toDigits 10 (n / 10 ^ (e + 1)) = ['0'] := by
      intro hhead
      rw [eq_zero_of_head?_toDigits hhead]
      rfl
    let p : Numeral := ⟨s, Nat.toDigits 10 (n / 10 ^ (e + 1)), padded (e + 1) (n % 10 ^ (e + 1)),
      allDigits_toDigits _, Nat.toDigits_ne_nil, hleading, allDigits_padded _ _,
      getLast?_padded_mod hlast e⟩
    have hne : p.fraction ≠ [] := padded_ne_nil _ _
    exact ⟨p, (Numeral.text_of_ne_nil hne).symm, rfl, iff_of_false hne (by simp)⟩

/-! Whole numbers -/

variable {f : Format} {s : Bool} {n : Nat} {h : f.Fits n}

theorem exponent_le_trim (d : Decimal) : d.exponent ≤ d.trim.exponent := by
  fun_induction trim d with
  | case1 d h ih =>
    simp only at ih
    omega
  | case2 d h => rfl

theorem scale_le_found (hn : 0 < n) (hwhole : 2 ^ f.scale ∣ n) : f.scale ≤ (found f n).2 := by
  obtain ⟨k, rfl⟩ := hwhole
  have hten : 10 ^ f.scale = 2 ^ f.scale * 5 ^ f.scale := by rw [← Nat.mul_pow]
  have hvalue : (interval f (2 ^ f.scale * k)).value = k * (4 * 10 ^ f.scale) := by
    rw [interval, hten]
    ring
  have hmem := interval_value_mem (f := f) hn
  have htop : f.scale ≤ top f (2 ^ f.scale * k) := by
    have hle : 10 ^ f.scale ≤ 2 ^ f.scale * k * 5 ^ f.scale := by
      rw [hten]
      exact Nat.mul_le_mul_right _ (Nat.le_mul_of_pos_right _ (Nat.pos_of_mul_pos_left hn))
    have hlt := hle.trans_lt (top_bounds f hn).2
    have := (Nat.pow_lt_pow_iff_right (by decide)).1 hlt
    omega
  by_contra hlt
  rw [hvalue] at hmem
  exact (found_best f hn).coarsest f.scale (by omega) htop k hmem

theorem digits_shortest_ne (hn : 0 < n) (h : f.Fits n) : (shortest f s n).digits ≠ 0 := by
  intro h0
  have hexact := exact_shortest s h hn
  rw [exact_of_digits_zero h0, Number.zero] at hexact
  injection hexact with _ h0
  omega

/-- The shortest decimal of a number has no place behind the point if and only if the number is
whole. -/
theorem exponent_shortest (hn : 0 < n) (h : f.Fits n) :
    0 ≤ (shortest f s n).exponent ↔ ∃ i, (Number.finite s n h).IsWhole i := by
  rw [Number.exists_isWhole]
  constructor
  · intro he
    have hexact := exact_shortest s h hn
    obtain ⟨e, he⟩ := Int.eq_ofNat_of_zero_le he
    rw [exact, he] at hexact
    simp only [Number.ofRatio] at hexact
    split_ifs at hexact
    injection hexact with _ hround
    rw [← hround]
    exact Format.two_pow_scale_dvd_round (Nat.dvd_mul_left _ _)
  · intro hwhole
    have hfound := scale_le_found hn hwhole
    have htrim := exponent_le_trim ⟨s, (found f n).1, (found f n).2 - f.scale⟩
    rw [← shortest_eq] at htrim
    simp only at htrim
    omega

end Decimal

namespace Style
open Decimal

variable {f : Format}

theorem write_numeral (s : Bool) {n : Nat} (h : f.Fits n) :
    ∃ p : Numeral, script.write (.finite s n h) = p.text ∧ p.negative = s ∧
      (p.fraction = [] ↔ ∃ i, (Number.finite s n h).IsWhole i) := by
  obtain rfl | hn := Nat.eq_zero_or_pos n
  · obtain ⟨p, htext, hneg, hfrac⟩ := exists_numeral (d := ⟨s, 0, 0⟩) (.inr ⟨rfl, rfl⟩)
    refine ⟨p, htext, hneg, ?_⟩
    rw [hfrac]
    exact iff_of_true (Int.le_refl 0) ⟨0, Number.isWhole_zero s⟩
  · have hneg : (shortest f s n).negative = s := trim_negative _
    have hdigits : (shortest f s n).digits % 10 ≠ 0 :=
      (trim_digits _).resolve_left (digits_shortest_ne hn h)
    obtain ⟨p, htext, hp, hfrac⟩ := exists_numeral (.inl hdigits)
    refine ⟨p, ?_, hp.trans hneg, hfrac.trans (exponent_shortest hn h)⟩
    rw [← htext, hneg]
    simp [write, Number.shortest?, isPositional, layout, script, hn.ne']

theorem write_coordinate (s : Bool) {n : Nat} (h : f.Fits n) :
    coordinate.write (.finite s n h) = script.write (.finite s n h) ++
      if '.' ∈ script.write (.finite s n h) then [] else ".0".toList := by
  obtain ⟨d, hd⟩ : ∃ d, (Number.finite s n h).shortest? = some d := ⟨_, rfl⟩
  have hscript : script.write (.finite s n h) = signed s d.positional := by
    rw [write, hd]
    rfl
  have hcoordinate : coordinate.write (.finite s n h) = signed s
      (if !d.positional.contains '.' then d.positional ++ ['.', '0'] else d.positional) := by
    rw [write, hd]
    rfl
  have hmem : '.' ∈ signed s d.positional ↔ '.' ∈ d.positional := by simp [mem_signed]
  rw [hcoordinate, hscript]
  by_cases hpoint : '.' ∈ d.positional
  · simp [hmem, hpoint]
  · cases s <;> simp [signed, hpoint]

end Style

namespace Script

variable {x : Single}

theorem numberText_numeral (hx : x.isFinite = true) :
    ∃ p : Decimal.Numeral, numberText x = p.text ∧ p.negative = x.negative ∧
      (p.fraction = [] ↔ ∃ i, x.IsWhole i) := by
  cases x with
  | finite s n h => exact Style.write_numeral s h
  | _ => cases hx

theorem point_mem_numberText (hx : x.isFinite = true) :
    '.' ∈ numberText x ↔ ¬∃ i, x.IsWhole i := by
  obtain ⟨p, htext, -, hfrac⟩ := numberText_numeral hx
  rw [htext, p.point_mem_text, Ne, hfrac]

theorem minus_mem_numberText (hx : x.isFinite = true) :
    '-' ∈ numberText x ↔ x.negative = true := by
  obtain ⟨p, htext, hneg, -⟩ := numberText_numeral hx
  rw [htext, p.minus_mem_text, hneg]

theorem coordinate_of_isWhole {i : ℤ} (hi : x.IsWhole i) :
    Style.coordinate.write x = numberText x ++ ".0".toList := by
  have hpoint := (point_mem_numberText hi.isFinite).not_left.2 ⟨i, hi⟩
  obtain ⟨s, n, h, rfl⟩ := hi.exists
  rw [Style.write_coordinate s h]
  exact congrArg (numberText _ ++ ·) (if_neg hpoint)

theorem coordinate_of_not_isWhole (hx : ¬∃ i, x.IsWhole i) :
    Style.coordinate.write x = numberText x := by
  cases x with
  | nan => rfl
  | infinite s => rfl
  | finite s n h =>
    rw [Style.write_coordinate s h]
    exact (congrArg (numberText _ ++ ·) (if_pos ((point_mem_numberText rfl).2 hx))).trans
      (List.append_nil _)

theorem point_mem_coordinate (hx : x.isFinite = true) : '.' ∈ Style.coordinate.write x := by
  by_cases h : ∃ i, x.IsWhole i
  · obtain ⟨i, hi⟩ := h
    simp [coordinate_of_isWhole hi]
  · rw [coordinate_of_not_isWhole h]
    exact (point_mem_numberText hx).2 h

/-- The text of a number has one form. If the number is finite, the text is a numeral that has its
sign, and a point if it is not whole. Where all coordinates are to have a point, whole numbers get
one with a zero behind it. -/
theorem number_text_canonical (c : Context) (o : Option Origin) (x : Single) :
    (callFunction c "format_real" [.item (.mk o (.single x))] =
      .ok (.new (.text (numberText x))) ∧
    callFunction c "format_debug_real" [.item (.mk o (.single x))] =
      .ok (.new (.text (Style.coordinate.write x)))) ∧
    (numberText .nan = "NaN".toList ∧ numberText (.infinite false) = "inf".toList ∧
      numberText (.infinite true) = "-inf".toList) ∧
    (x.isFinite = true → (∃ p : Decimal.Numeral, numberText x = p.text) ∧
      ('.' ∈ numberText x ↔ ¬∃ i, x.IsWhole i) ∧ ('-' ∈ numberText x ↔ x.negative = true)) ∧
    (∀ i, x.IsWhole i → Style.coordinate.write x = numberText x ++ ".0".toList) ∧
    ((¬∃ i, x.IsWhole i) → Style.coordinate.write x = numberText x) ∧
    (x.isFinite = true → '.' ∈ Style.coordinate.write x) := by
  refine ⟨⟨rfl, rfl⟩, ⟨rfl, rfl, rfl⟩, fun hx => ⟨?_, point_mem_numberText hx,
    minus_mem_numberText hx⟩, fun _ => coordinate_of_isWhole, coordinate_of_not_isWhole,
    point_mem_coordinate⟩
  obtain ⟨p, htext, -, -⟩ := numberText_numeral hx
  exact ⟨p, htext⟩

/-- A whole number whose last three digits are zeros that the shortest decimal puts there. -/
theorem number_text_canonical_padded :
    let x : Single := .ofInt (-8589934592)
    '.' ∉ numberText x ∧ '-' ∈ numberText x ∧
      Style.coordinate.write x = "-8589935000.0".toList := by
  intro x
  have htext : numberText x = "-8589935000".toList := by decide +kernel
  have hwhole : x.IsWhole (-8589934592) := by decide +kernel
  have hneg : x.negative = true := by decide +kernel
  obtain ⟨-, -, hfinite, hpointed, -⟩ := number_text_canonical (.of #[]) none x
  obtain ⟨-, hpoint, hminus⟩ := hfinite hwhole.isFinite
  refine ⟨hpoint.not_left.2 ⟨_, hwhole⟩, hminus.2 hneg, ?_⟩
  rw [hpointed _ hwhole, htext]
  rfl

end Script
end SolidScript
