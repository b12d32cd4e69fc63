import Mathlib.Data.List.Forall2
import SolidScript.Fault

/-!
# Computations that may fail

`Yields P r` says that `r`, if it has a result, has one of which `P` holds.
-/

set_option autoImplicit false

namespace SolidScript

variable {α β γ : Type}

theorem ok_bind {a : α} {f : α → Except Fault β} : Except.ok a >>= f = f a := rfl

theorem bind_eq_ok {r : Except Fault α} {f : α → Except Fault β} {b : β} :
    r >>= f = .ok b ↔ ∃ a, r = .ok a ∧ f a = .ok b := by
  cases r <;> simp [bind, Except.bind]

theorem map_eq_ok {f : α → β} {r : Except Fault α} {b : β} :
    f <$> r = .ok b ↔ ∃ a, r = .ok a ∧ f a = b := by
  cases r <;> simp [Functor.map, Except.map]

theorem map_eq_error {f : α → β} {r : Except Fault α} {e : Fault} :
    f <$> r = .error e ↔ r = .error e := by
  cases r <;> simp [Functor.map, Except.map]

theorem isOk_map {f : α → β} {r : Except Fault α} : (∃ b, f <$> r = .ok b) ↔ ∃ a, r = .ok a := by
  cases r <;> simp [Functor.map, Except.map]

theorem pure_eq_ok {a b : α} : (pure a : Except Fault α) = .ok b ↔ a = b := by
  simp [pure, Except.pure]

theorem mapM_eq_ok {f : α → Except Fault β} {as : List α} {bs : List β} :
    as.mapM f = .ok bs ↔ List.Forall₂ (fun a b => f a = .ok b) as bs := by
  induction as generalizing bs with
  | nil => cases bs <;> simp [pure_eq_ok]
  | cons a as ih =>
    rw [List.mapM_cons, bind_eq_ok, List.forall₂_cons_left_iff]
    constructor
    · rintro ⟨b, hb, h⟩
      obtain ⟨bs, hbs, h⟩ := bind_eq_ok.1 h
      exact ⟨b, bs, hb, ih.1 hbs, (pure_eq_ok.1 h).symm⟩
    · rintro ⟨b, bs, hb, hbs, rfl⟩
      exact ⟨b, hb, bind_eq_ok.2 ⟨bs, ih.2 hbs, rfl⟩⟩

/-- A list has the fault of the first element that has one. -/
theorem mapM_eq_error {f : α → Except Fault β} {as : List α} {e : Fault} :
    as.mapM f = .error e ↔ ∃ before a after, as = before ++ a :: after ∧
      (∀ b ∈ before, ∃ c, f b = .ok c) ∧ f a = .error e := by
  induction as with
  | nil => simp [pure, Except.pure]
  | cons a as ih =>
    rw [List.mapM_cons]
    cases ha : f a with
    | error e' =>
      constructor
      · rintro ⟨⟩
        exact ⟨[], a, as, rfl, by simp, ha⟩
      · rintro ⟨_ | ⟨b, before⟩, x, after, ⟨⟩, hb, hx⟩
        · cases ha.symm.trans hx
          rfl
        · obtain ⟨c, hc⟩ := hb a (by simp)
          cases ha.symm.trans hc
    | ok c =>
      have htail : (Except.ok c >>= fun c => as.mapM f >>= fun cs => pure (c :: cs)) = .error e ↔
          as.mapM f = .error e := by
        cases as.mapM f <;> simp [bind, Except.bind, pure, Except.pure]
      rw [htail, ih]
      constructor
      · rintro ⟨before, x, after, rfl, hb, hx⟩
        refine ⟨a :: before, x, after, rfl, ?_, hx⟩
        rw [List.forall_mem_cons]
        exact ⟨⟨c, ha⟩, hb⟩
      · rintro ⟨_ | ⟨b, before⟩, x, after, ⟨⟩, hb, hx⟩
        · cases ha.symm.trans hx
        · rw [List.forall_mem_cons] at hb
          exact ⟨before, x, after, rfl, hb.2, hx⟩

theorem exists_mapM_eq_error {f : α → Except Fault β} {as : List α} :
    (∃ e, as.mapM f = .error e) ↔ ∃ a ∈ as, ∃ e, f a = .error e := by
  constructor
  · rintro ⟨e, h⟩
    obtain ⟨before, a, after, rfl, -, ha⟩ := mapM_eq_error.1 h
    exact ⟨a, by simp, e, ha⟩
  · rintro ⟨a, ha, e, he⟩
    induction ha with
    | head as => exact ⟨e, by rw [List.mapM_cons, he]; rfl⟩
    | @tail b as _ ih =>
      obtain ⟨e, h⟩ := ih
      cases hb : f b with
      | error e' => exact ⟨e', by rw [List.mapM_cons, hb]; rfl⟩
      | ok c => exact ⟨e, by rw [List.mapM_cons, hb, h]; rfl⟩

/-- What holds of the result, if there is one. -/
def Yields (P : α → Prop) (r : Except Fault α) : Prop := ∀ a, r = .ok a → P a

variable {P : β → Prop}

@[simp] theorem yields_ok {b : β} : Yields P (.ok b) ↔ P b := by simp [Yields]

@[simp] theorem yields_error {e : Fault} : Yields P (.error e) := by simp [Yields]

@[simp] theorem yields_pure {b : β} : Yields P (pure b) ↔ P b := yields_ok

@[simp] theorem yields_bind {r : Except Fault α} {f : α → Except Fault β} :
    Yields P (r >>= f) ↔ ∀ a, r = .ok a → Yields P (f a) := by
  constructor
  · intro h a hr b hb
    exact h b (bind_eq_ok.2 ⟨a, hr, hb⟩)
  · intro h b hb
    obtain ⟨a, hr, hf⟩ := bind_eq_ok.1 hb
    exact h a hr b hf

@[simp] theorem yields_map {f : α → β} {r : Except Fault α} :
    Yields P (f <$> r) ↔ ∀ a, r = .ok a → P (f a) := by
  cases r <;> simp [Functor.map, Except.map, Yields]

theorem Yields.mono {Q : β → Prop} {r : Except Fault β} (h : Yields P r) (hQ : ∀ b, P b → Q b) :
    Yields Q r := fun b hb => hQ b (h b hb)

theorem yields_mapM {f : α → Except Fault β} {as : List α} (h : ∀ a ∈ as, Yields P (f a)) :
    Yields (fun bs => ∀ b ∈ bs, P b) (as.mapM f) := by
  intro bs hbs
  rw [mapM_eq_ok] at hbs
  induction hbs with
  | nil => simp
  | cons hab _ ih =>
    rw [List.forall_mem_cons] at h ⊢
    exact ⟨h.1 _ hab, ih h.2⟩

end SolidScript
