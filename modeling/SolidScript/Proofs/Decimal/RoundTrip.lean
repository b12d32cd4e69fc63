import SolidScript.Proofs.Binary.Nearest
import SolidScript.Proofs.Decimal.Characters
import SolidScript.Shape.Render

/-!
# Numbers survive their text

A written number, read as a decimal and rounded to the format, is the number again. In a vector
this holds for each component.
-/

set_option autoImplicit false

attribute [local instance (10000)] instPowNat

namespace SolidScript
open Binary

namespace Decimal

variable {f : Format}

theorem exists_ratio (d : Decimal) (k : Nat) :
    ∃ a b : Nat, 0 < b ∧ (a : ℚ) / b = d.magnitude * 2 ^ k := by
  obtain ⟨s, n, e⟩ := d
  cases e with
  | ofNat e => exact ⟨n * 10 ^ e * 2 ^ k, 1, by decide, by simp [magnitude]⟩
  | negSucc e =>
    refine ⟨n * 2 ^ k, 10 ^ (e + 1), Nat.pow_pos (by decide), ?_⟩
    simp only [magnitude, zpow_negSucc]
    push_cast
    field_simp

theorem nearest_of_exact (hp : 1 < f.precision) {d : Decimal} {s : Bool} {n : Nat}
    {h : f.Fits n} (hd : d.exact f = .finite s n h) :
    d.negative = s ∧ f.Nearest (d.magnitude * 2 ^ f.scale) n := by
  obtain ⟨a, b, hb, hab⟩ := d.exists_ratio f.scale
  rw [exact_eq_ofRatio d hb hab, Number.ofRatio] at hd
  split_ifs at hd
  injection hd with hs hn
  subst hn
  exact ⟨hs, hab ▸ Format.nearest_round hp a hb⟩

/-- Read as a decimal, the text has one nearest number, and this is it. -/
def ReadsBack (text : List Char) : Number f → Prop
  | .finite s n h => ∃ d, ofText? text = some d ∧ d.round f = .finite s n h ∧
      d.negative = s ∧ f.Nearest (d.magnitude * 2 ^ f.scale) n
  | _ => False

theorem write_readsBack (hp : 1 < f.precision) {style : Style} (hs : style.span = none)
    {x : Number f} (hx : x.isFinite = true) : ReadsBack (style.write x) x := by
  cases x with
  | nan => cases hx
  | infinite s => cases hx
  | finite s n h =>
    obtain ⟨d, hd, hex, hw⟩ := style.write_finite hs s h
    obtain ⟨e, he, hneg, hmag⟩ := layout_readsAs style d
    have hex' : e.exact f = .finite s n h := by rw [exact_congr hneg hmag, hex]
    refine ⟨e, ?_, ?_, nearest_of_exact hp hex'⟩
    · rw [hw, he]
    · rw [round_eq_exact, hex']

namespace ReadsBack

variable {text : List Char} {x y : Number f}

theorem unique (hx : ReadsBack text x) (hy : ReadsBack text y) : x = y := by
  cases x <;> cases y <;> try simp only [ReadsBack] at hx hy
  obtain ⟨d, hd, hx, -⟩ := hx
  obtain ⟨e, he, hy, -⟩ := hy
  rw [hd] at he
  cases he
  exact hx.symm.trans hy

theorem isSome (hx : ReadsBack text x) : (ofText? text).isSome = true := by
  cases x with
  | finite s n h =>
    obtain ⟨d, hd, -⟩ := hx
    simp [hd]
  | _ => exact hx.elim

end ReadsBack
end Decimal

namespace Style

variable {f : Format} {style : Style}

theorem ofText?_write (hs : style.Plain) {x : Number f} (hx : x.isFinite = false) :
    Decimal.ofText? (style.write x) = none := by
  cases x with
  | nan => simp only [write, hs.nan]; decide
  | infinite s => simp only [write, hs.infinity]; cases s <;> decide
  | finite => cases hx

theorem write_nan_ne_infinite (hs : style.Plain) (s : Bool) :
    style.write (.nan : Number f) ≠ style.write (.infinite s : Number f) := by
  simp only [write, hs.nan, hs.infinity]
  cases s <;> decide

theorem write_injective (hp : 1 < f.precision) (hs : style.Plain) :
    Function.Injective (style.write : Number f → List Char) := by
  intro x y h
  cases hx : x.isFinite <;> cases hy : y.isFinite
  · cases x <;> cases y <;> try cases hx
    all_goals try cases hy
    · rfl
    · exact absurd h (write_nan_ne_infinite hs _)
    · exact absurd h.symm (write_nan_ne_infinite hs _)
    · rename_i s t
      simp only [write, hs.infinity] at h
      cases s <;> cases t <;> simp [Decimal.signed] at h ⊢
  · have := (Decimal.write_readsBack hp hs.span hy).isSome
    simp [← h, ofText?_write hs hx] at this
  · have := (Decimal.write_readsBack hp hs.span hx).isSome
    simp [h, ofText?_write hs hy] at this
  · have hxy := Decimal.write_readsBack hp hs.span hx
    exact hxy.unique (h ▸ Decimal.write_readsBack hp hs.span hy)

end Style

def components (text : List Char) : List (List Char) :=
  if text.tail.dropLast = [] then []
  else (text.tail.dropLast.splitOn ',').map (·.dropWhile (· = ' '))

theorem dropWhile_modifyHead (l : List (List Char)) :
    (l.modifyHead (' ' :: ·)).map (·.dropWhile (· = ' ')) = l.map (·.dropWhile (· = ' ')) := by
  cases l with
  | nil => rfl
  | cons t ts => simp

theorem splitOn_intercalate {texts : List (List Char)} (hne : texts ≠ [])
    (hc : ∀ t ∈ texts, ',' ∉ t ∧ ' ' ∉ t) :
    (List.splitOn ',' (List.intercalate ", ".toList texts)).map (·.dropWhile (· = ' ')) =
      texts := by
  induction texts with
  | nil => exact absurd rfl hne
  | cons t ts ih =>
    obtain ⟨ht, hb⟩ := hc t (by simp)
    have hb' : t.dropWhile (· = ' ') = t := by
      cases t with
      | nil => rfl
      | cons c cs =>
        have : c ≠ ' ' := fun h => hb (by simp [h])
        simp [this]
    cases ts with
    | nil => simp [List.splitOn_eq_singleton ht, hb']
    | cons u us =>
      have hih := ih (by simp) (fun v hv => hc v (by simp [hv]))
      have e : t ++ ", ".toList ++ List.intercalate ", ".toList (u :: us) =
          t ++ ',' :: (' ' :: List.intercalate ", ".toList (u :: us)) := by simp
      rw [List.intercalate_cons_cons, e, List.splitOn_append_cons_self_of_not_mem ht,
        List.splitOn_cons_eq_if_modifyHead, if_neg (by decide), List.map_cons, hb',
        dropWhile_modifyHead, hih]

theorem intercalate_ne_nil {sep : List Char} {texts : List (List Char)} (hne : texts ≠ [])
    (hc : ∀ t ∈ texts, t ≠ []) : List.intercalate sep texts ≠ [] := by
  cases texts with
  | nil => exact absurd rfl hne
  | cons t ts =>
    have ht := hc t (by simp)
    cases ts <;> simp [List.intercalate_cons_cons, ht]

theorem components_bracketed {texts : List (List Char)} (hn : ∀ t ∈ texts, t ≠ [])
    (hc : ∀ t ∈ texts, ',' ∉ t ∧ ' ' ∉ t) : components (bracketed texts) = texts := by
  have hrow : (bracketed texts).tail.dropLast = List.intercalate ", ".toList texts := by
    rw [bracketed, List.cons_append, List.tail_cons, List.dropLast_concat]
  rw [components, hrow]
  by_cases h : texts = []
  · simp [h]
  · rw [if_neg (intercalate_ne_nil h hn), splitOn_intercalate h hc]

theorem components_vectorText (xs : Coordinates) :
    components (vectorText xs) = xs.map numberText := by
  apply components_bracketed
  · intro t ht
    obtain ⟨x, -, rfl⟩ := List.mem_map.1 ht
    exact Style.write_ne_nil Style.plain_script x
  · intro t ht
    obtain ⟨x, -, rfl⟩ := List.mem_map.1 ht
    have hx := Style.numeric_write Style.plain_script x
    exact ⟨fun h => absurd (hx _ h) (by decide), fun h => absurd (hx _ h) (by decide)⟩

/-- Every finite number is what its text says, to the last bit and with the sign of a zero, whether
it stands alone, as a coordinate, or in a vector of any length. -/
theorem number_of_text :
    (∀ x : Single, x.isFinite = true → Decimal.ReadsBack (numberText x) x ∧
      Decimal.ReadsBack (Style.coordinate.write x) x) ∧
    ∀ xs : Coordinates, List.Forall₂ (fun text x => x.isFinite = true → Decimal.ReadsBack text x)
      (components (vectorText xs)) xs := by
  have hp : 1 < Format.single.precision := by decide
  have hread : ∀ x : Single, x.isFinite = true → Decimal.ReadsBack (numberText x) x :=
    fun x hx => Decimal.write_readsBack hp rfl hx
  constructor
  · intro x hx
    exact ⟨hread x hx, Decimal.write_readsBack hp rfl hx⟩
  · intro xs
    rw [components_vectorText, List.forall₂_map_left_iff, List.forall₂_same]
    intro x _ hx
    exact hread x hx

theorem number_of_text_least :
    ∃ h : Format.single.Fits 1, Decimal.ReadsBack (numberText (.finite false 1 h))
      (.finite false 1 h : Single) ∧
    ∃ t u, components (vectorText [.finite false 1 h, .finite true 1 h]) = [t, u] ∧
      Decimal.ReadsBack u (.finite true 1 h : Single) := by
  have one : Format.single.Fits 1 := by decide +kernel
  refine ⟨one, (number_of_text.1 _ rfl).1, ?_⟩
  have h := number_of_text.2 [.finite false 1 one, .finite true 1 one]
  generalize components _ = texts at h
  cases h with
  | cons _ h => cases h with
    | cons hu h => cases h with
      | nil => exact ⟨_, _, rfl, hu rfl⟩

end SolidScript
