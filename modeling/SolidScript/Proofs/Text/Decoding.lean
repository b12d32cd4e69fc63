import SolidScript.Proofs.Decimal.RoundTrip

/-!
# Telling texts apart

A family of texts decodes if each can be told from what stands behind it. Numbers do where no
character of a number follows, and rows do in brackets whatever follows.
-/

set_option autoImplicit false

namespace SolidScript
open Binary

variable {α : Type} {text : α → List Char}

/-- Two texts of the family with something behind them agree only if they are one and the same. -/
def Decodes (follow : List Char → Prop) (text : α → List Char) : Prop :=
  ∀ a b u v, follow u → follow v → text a ++ u = text b ++ v → a = b ∧ u = v

def Stops (p : Char → Bool) (u : List Char) : Prop := ∀ c ∈ u.head?, p c = false

theorem append_inj_of_stops {p : Char → Bool} {a b u v : List Char} (ha : ∀ c ∈ a, p c = true)
    (hb : ∀ c ∈ b, p c = true) (hu : Stops p u) (hv : Stops p v) (h : a ++ u = b ++ v) :
    a = b ∧ u = v := by
  induction a generalizing b with
  | nil => cases b with
    | nil => exact ⟨rfl, h⟩
    | cons c b =>
      subst h
      exact absurd (hb c (by simp)) (by simp [hu c (by simp)])
  | cons c a ih => cases b with
    | nil =>
      subst h
      exact absurd (ha c (by simp)) (by simp [hv c (by simp)])
    | cons c' b =>
      injection h with hc h
      obtain ⟨rfl, rfl⟩ := ih (fun c hc => ha c (by simp [hc])) (fun c hc => hb c (by simp [hc])) h
      exact ⟨by rw [hc], rfl⟩

theorem append_ne_of_stops {p : Char → Bool} {a : List Char} (ha : ∀ c ∈ a, p c = true)
    (hne : a ≠ []) {c : Char} (hc : p c = false) (u v : List Char) : a ++ u ≠ c :: v := by
  obtain ⟨d, ds, rfl⟩ := List.exists_cons_of_ne_nil hne
  intro h
  rw [List.cons_append, List.cons.injEq] at h
  have hd := ha d (by simp)
  rw [h.1, hc] at hd
  cases hd

theorem decodes_of_injective {p : Char → Bool} (hi : Function.Injective text)
    (hp : ∀ a, ∀ c ∈ text a, p c = true) : Decodes (Stops p) text := by
  intro a b u v hu hv h
  obtain ⟨hab, huv⟩ := append_inj_of_stops (hp a) (hp b) hu hv h
  exact ⟨hi hab, huv⟩

/-! Rows -/

/-- What stands behind an item of a row. -/
def Follows (sep close u : List Char) : Prop := ∃ w, u = sep ++ w ∨ u = close ++ w

theorem intercalate_cons (sep t : List Char) (ts : List (List Char)) :
    List.intercalate sep (t :: ts) = t ++ ts.flatMap (sep ++ ·) := by
  induction ts generalizing t with
  | nil => simp
  | cons u us ih => rw [List.intercalate_cons_cons, ih, List.flatMap_cons, List.append_assoc,
      List.append_assoc]

theorem follows_tail (sep close u : List Char) (as : List α) :
    Follows sep close (as.flatMap (sep ++ text ·) ++ (close ++ u)) := by
  cases as with
  | nil => exact ⟨u, .inr rfl⟩
  | cons a as => exact ⟨_, .inl (by rw [List.flatMap_cons, List.append_assoc, List.append_assoc])⟩

variable {sep close : List Char}

theorem tail_inj (hsep : ∀ u v, sep ++ u ≠ close ++ v) {as bs : List α}
    (item : ∀ a ∈ as, ∀ b ∈ bs, ∀ u v, Follows sep close u → Follows sep close v →
      text a ++ u = text b ++ v → a = b ∧ u = v) {u v : List Char}
    (h : as.flatMap (sep ++ text ·) ++ (close ++ u) =
      bs.flatMap (sep ++ text ·) ++ (close ++ v)) : as = bs ∧ u = v := by
  induction as generalizing bs with
  | nil => cases bs with
    | nil => exact ⟨rfl, List.append_cancel_left h⟩
    | cons b bs =>
      simp only [List.flatMap_nil, List.nil_append, List.flatMap_cons, List.append_assoc] at h
      exact absurd h.symm (hsep _ _)
  | cons a as ih => cases bs with
    | nil =>
      simp only [List.flatMap_nil, List.nil_append, List.flatMap_cons, List.append_assoc] at h
      exact absurd h (hsep _ _)
    | cons b bs =>
      simp only [List.flatMap_cons, List.append_assoc, List.append_cancel_left_eq] at h
      obtain ⟨hab, htail⟩ := item a (by simp) b (by simp) _ _ (follows_tail _ _ _ _)
        (follows_tail _ _ _ _) h
      obtain ⟨has, huv⟩ := ih (fun a ha b hb => item a (by simp [ha]) b (by simp [hb])) htail
      exact ⟨by rw [hab, has], huv⟩

theorem row_inj (hsep : ∀ u v, sep ++ u ≠ close ++ v) {as bs : List α}
    (item : ∀ a ∈ as, ∀ b ∈ bs, ∀ u v, Follows sep close u → Follows sep close v →
      text a ++ u = text b ++ v → a = b ∧ u = v)
    (hopen : ∀ a, a ∈ as ∨ a ∈ bs → ∀ u v, text a ++ u ≠ close ++ v) {u v : List Char}
    (h : List.intercalate sep (as.map text) ++ (close ++ u) =
      List.intercalate sep (bs.map text) ++ (close ++ v)) : as = bs ∧ u = v := by
  cases as with
  | nil => cases bs with
    | nil => exact ⟨rfl, by simpa using h⟩
    | cons b bs =>
      rw [List.map_cons, intercalate_cons, List.append_assoc] at h
      exact absurd h.symm (hopen b (by simp) _ _)
  | cons a as => cases bs with
    | nil =>
      rw [List.map_cons, intercalate_cons, List.append_assoc] at h
      exact absurd h (hopen a (by simp) _ _)
    | cons b bs =>
      rw [List.map_cons, List.map_cons, intercalate_cons, intercalate_cons, List.append_assoc,
        List.append_assoc, List.flatMap_map, List.flatMap_map] at h
      obtain ⟨hab, htail⟩ := item a (by simp) b (by simp) _ _ (follows_tail _ _ _ _)
        (follows_tail _ _ _ _) h
      obtain ⟨has, huv⟩ := tail_inj hsep
        (fun a ha b hb => item a (by simp [ha]) b (by simp [hb])) htail
      exact ⟨by rw [hab, has], huv⟩

theorem bracketed_decodes (hd : Decodes (Follows ", ".toList [']']) text)
    (hopen : ∀ a u v, text a ++ u ≠ ']' :: v) {follow : List Char → Prop} :
    Decodes follow fun as : List α => bracketed (as.map text) := by
  intro as bs u v _ _ h
  simp only [bracketed, List.cons_append, List.append_assoc, List.cons.injEq, true_and] at h
  exact row_inj (by simp) (fun a _ b _ => hd a b) (fun a _ => hopen a) h

/-! Numbers -/

theorem stops_follows {u : List Char} (h : Follows ", ".toList [']'] u) :
    Stops Style.isNumeric u := by
  obtain ⟨w, rfl | rfl⟩ := h <;> simp [Stops, Style.isNumeric]

theorem number_decodes {style : Style} (hs : style.Plain) :
    Decodes (Stops Style.isNumeric) (style.write : Single → List Char) :=
  decodes_of_injective (Style.write_injective (by decide) hs) (Style.numeric_write hs)

theorem write_append_ne {style : Style} (hs : style.Plain) (x : Single) {c : Char}
    (hc : Style.isNumeric c = false) (u v : List Char) : style.write x ++ u ≠ c :: v :=
  append_ne_of_stops (Style.numeric_write hs x) (Style.write_ne_nil hs x) hc u v

theorem numbers_decode {style : Style} (hs : style.Plain) {follow : List Char → Prop} :
    Decodes follow fun xs : Coordinates => bracketed (xs.map style.write) :=
  bracketed_decodes (fun x y u v hu hv => number_decodes hs x y u v (stops_follows hu)
    (stops_follows hv)) fun x => write_append_ne hs x rfl

theorem whole_text (i : Int) :
    (toString i).toList = Decimal.signed (i < 0) (Nat.toDigits 10 i.natAbs) := by
  cases i with
  | ofNat n => simp [Decimal.signed, toString, Int.repr, Nat.toList_repr]
  | negSucc n => simp [Decimal.signed, toString, Int.repr, Nat.toList_repr, Int.negSucc_lt_zero]

theorem whole_injective : Function.Injective fun i : Int => (toString i).toList := by
  intro i j h
  simp only [whole_text] at h
  have hi := Decimal.ofText?_whole (i < 0) (Decimal.allDigits_toDigits i.natAbs)
    Nat.toDigits_ne_nil
  have hj := Decimal.ofText?_whole (j < 0) (Decimal.allDigits_toDigits j.natAbs)
    Nat.toDigits_ne_nil
  rw [h, hj] at hi
  simp only [Nat.ofDigitChars_ten_toDigits, Option.some.injEq, Decimal.mk.injEq,
    decide_eq_decide, and_true] at hi
  omega

theorem numeric_whole (i : Int) : ∀ c ∈ (toString i).toList, Style.isNumeric c = true := by
  rw [whole_text]
  exact Style.numeric_signed fun c hc =>
    Style.isNumeric_of_isDigit (Decimal.allDigits_toDigits _ c hc)

theorem whole_append_ne (i : Int) (u v : List Char) : (toString i).toList ++ u ≠ ']' :: v := by
  refine append_ne_of_stops (numeric_whole i) ?_ (by simp [Style.isNumeric]) u v
  rw [whole_text]
  exact Style.signed_ne_nil Nat.toDigits_ne_nil

theorem face_decodes {follow : List Char → Prop} : Decodes follow faceText :=
  bracketed_decodes (fun i j u v hu hv => decodes_of_injective whole_injective numeric_whole i j
    u v (stops_follows hu) (stops_follows hv)) whole_append_ne

end SolidScript
