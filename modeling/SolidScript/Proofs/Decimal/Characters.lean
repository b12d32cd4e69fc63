import SolidScript.Proofs.Decimal.Reading

/-!
# Characters of numbers

A written number has characters, and only those of numbers: in a row of numbers it ends where the
next comma or bracket stands.
-/

set_option autoImplicit false

namespace SolidScript
open Binary

namespace Style

def isNumeric (c : Char) : Bool := c.isDigit || ['-', '.', 'N', 'a', 'i', 'n', 'f'].contains c

theorem isNumeric_of_isDigit {c : Char} (h : c.isDigit = true) : isNumeric c = true := by
  simp [isNumeric, h]

theorem numeric_signed {s : Bool} {text : List Char} (h : ∀ c ∈ text, isNumeric c = true) :
    ∀ c ∈ Decimal.signed s text, isNumeric c = true := by
  intro c hc
  cases s with
  | false => exact h c hc
  | true =>
    rcases List.mem_cons.1 hc with rfl | hc
    · rfl
    · exact h c hc

theorem numeric_positional (d : Decimal) : ∀ c ∈ d.positional, isNumeric c = true := by
  intro c hc
  unfold Decimal.positional at hc
  split at hc
  · rcases List.mem_append.1 hc with h | h
    · exact isNumeric_of_isDigit (Decimal.allDigits_toDigits _ c h)
    · exact isNumeric_of_isDigit (Decimal.allDigits_zeros _ c h)
  · rcases List.mem_append.1 hc with h | h
    · exact isNumeric_of_isDigit (Decimal.allDigits_toDigits _ c h)
    · rcases List.mem_cons.1 h with rfl | h
      · rfl
      · exact isNumeric_of_isDigit (Decimal.allDigits_padded _ _ c h)

theorem numeric_layout (style : Style) (d : Decimal) :
    ∀ c ∈ style.layout true d, isNumeric c = true := by
  intro c hc
  simp only [layout, if_true] at hc
  split at hc
  · rcases List.mem_append.1 hc with h | h
    · exact numeric_positional d c h
    · simp only [List.mem_cons, List.not_mem_nil, or_false] at h
      rcases h with rfl | rfl <;> rfl
  · exact numeric_positional d c hc

/-- Styles of scripts: positional throughout, with the names of the script language. -/
structure Plain (style : Style) : Prop where
  span : style.span = none
  nan : style.nan = "NaN"
  infinity : style.infinity = "inf"

theorem plain_script : script.Plain := ⟨rfl, rfl, rfl⟩

theorem plain_coordinate : coordinate.Plain := ⟨rfl, rfl, rfl⟩

theorem numeric_write {f : Format} {style : Style} (hs : style.Plain) (x : Number f) :
    ∀ c ∈ style.write x, isNumeric c = true := by
  cases x with
  | nan => simp [write, hs.nan, isNumeric]
  | infinite s =>
    rw [write, hs.infinity]
    exact numeric_signed (by simp [isNumeric])
  | finite s n h =>
    obtain ⟨d, -, -, hw⟩ := style.write_finite hs.span s h
    rw [hw]
    exact numeric_signed (style.numeric_layout d)

theorem signed_ne_nil {s : Bool} {text : List Char} (h : text ≠ []) :
    Decimal.signed s text ≠ [] := by
  cases s with
  | false => exact h
  | true => exact List.cons_ne_nil _ _

theorem positional_ne_nil (d : Decimal) : d.positional ≠ [] := by
  unfold Decimal.positional
  split <;> simp

theorem layout_ne_nil (style : Style) (d : Decimal) : style.layout true d ≠ [] := by
  simp only [layout, if_true]
  split
  · simp
  · exact positional_ne_nil d

theorem write_ne_nil {f : Format} {style : Style} (hs : style.Plain) (x : Number f) :
    style.write x ≠ [] := by
  cases x with
  | nan => simp [write, hs.nan]
  | infinite s =>
    rw [write, hs.infinity]
    exact signed_ne_nil (by simp)
  | finite s n h =>
    obtain ⟨d, -, -, hw⟩ := style.write_finite hs.span s h
    rw [hw]
    exact signed_ne_nil (style.layout_ne_nil d)

end Style
end SolidScript
