import SolidScript.Proofs.Script.Holds

/-!
# Reading values keeps what holds of their shapes
-/

set_option autoImplicit false

namespace SolidScript.Script

variable {P : Shape → Prop}

def Scope.Holds (P : Shape → Prop) (scope : Scope) : Prop := ∀ a ∈ scope.self, a.Holds P

/-- Running calls that hold, on what holds, gives what holds. -/
def Context.Keeps (P : Shape → Prop) (c : Context) : Prop :=
  ∀ scope calls a, Scope.Holds P scope → callsHold P calls → a.Holds P →
    Yields (Item.Holds P) (c.run scope calls a)

variable {c : Context} (hc : c.Keeps P)

theorem iterate_holds {f : Item → Except Fault Item}
    (hf : ∀ a : Item, a.Holds P → Yields (Item.Holds P) (f a)) (n : Nat) {a : Item}
    (ha : a.Holds P) : Yields (Item.Holds P) (iterate f n a) := by
  induction n generalizing a with
  | zero => simpa [iterate] using ha
  | succ n ih =>
    simp only [iterate, yields_bind]
    intro b hb
    exact ih (hf a ha b hb)

include hc

theorem apply_holds {o : Operand} {a : Item} (ho : o.Holds P) (ha : a.Holds P) :
    Yields (Item.Holds P) (o.apply c a) := by
  cases o with
  | item i => simp [Operand.apply]
  | routine calls times index =>
    have hs : Scope.Holds P ⟨some a, index⟩ := by simpa [Scope.Holds] using ha
    exact iterate_holds (fun b hb => hc _ _ b hs ho hb) _ ha

namespace Value

theorem sequence?_holds : ∀ {v : Value}, v.Holds P →
    ∀ s ∈ v.sequence? c, ∀ i, Yields (Item.Holds P) (s.element i)
  | .copies s, h, _, hs, i => by
    cases hs
    simp only [Sequence.map, yields_bind, yields_ok]
    intro t ht
    exact h i t ht
  | .calls n base cs, h, _, hs, i => by
    cases hs
    exact hc _ _ _ (by simpa [Scope.Holds] using h.1) h.2 h.1
  | .image (.mk o source) f, h, s, hs, i => by
    obtain ⟨q, hq, rfl⟩ := Option.map_eq_some_iff.1 hs
    simp only [Sequence.map, yields_bind]
    intro a ha
    exact apply_holds hc h.2 (sequence?_holds h.1 q hq i a ha)
  | .scalar _, _, _, hs, _ | .vector _, _, _, hs, _ | .color _, _, _, hs, _ | .aim _, _, _, hs, _
  | .shape _, _, _, hs, _ | .list _, _, _, hs, _ => by cases hs

omit hc in
theorem fixedItems_holds {v : Value} (h : v.Holds P) :
    Yields (fun items => ∀ a ∈ items, a.Holds P) v.fixedItems := by
  unfold fixedItems
  split
  · simpa using h
  · simp [single]
  · simp [text]
  · exact yields_error

theorem items_holds {v : Value} (h : v.Holds P) :
    Yields (fun items => ∀ a ∈ items, a.Holds P) (v.items c) := by
  unfold items
  split
  · exact Sequence.items_yields (sequence?_holds hc h _ ‹_›)
  · exact fixedItems_holds h

theorem toList_holds {v : Value} (h : v.Holds P) :
    Yields (fun items => ∀ a ∈ items, a.Holds P) (v.toList c) := by
  unfold toList
  split
  · exact Sequence.toList_yields (sequence?_holds hc h _ ‹_›)
  · exact fixedItems_holds h

theorem toValues_holds {v : Value} (h : v.Holds P) :
    Yields (fun vs => ∀ w ∈ vs, w.Holds P) (v.toValues c) := by
  simp only [toValues, yields_bind, yields_pure, List.forall_mem_map]
  intro items hitems a ha
  exact Item.holds_value.2 (toList_holds hc h items hitems a ha)

end Value
end SolidScript.Script
