import Mathlib.Algebra.Group.Pointwise.Set.Basic
import SolidScript.Proofs.Shape.Built

/-!
# Shapes as sets of points

What a shape describes, for any sets that the primitives stand for, any functions on sets for the
operations, and any hull. Combining what was combined already describes the same set as combining
all of it at once.
-/

set_option autoImplicit false

namespace SolidScript
open scoped Pointwise

structure Interpretation (P : Type) where
  primitive : Shape → Set P
  operation : Operation → List Parameter → Set P → Set P
  hull : Set P → Set P

namespace Interpretation

variable {P : Type} [AddCommMonoid P] (I : Interpretation P)

/-- The set that a combination makes of sets. Without any, a union is empty, an intersection
everything, and a Minkowski sum the zero point. -/
def join : Kind → List (Set P) → Set P
  | .union, sets => {p | ∃ A ∈ sets, p ∈ A}
  | .intersection, sets => {p | ∀ A ∈ sets, p ∈ A}
  | .minkowski, sets => sets.sum
  | .difference, A :: B :: _ => A \ B
  | .difference, _ => ∅
  | .hull, sets => I.hull {p | ∃ A ∈ sets, p ∈ A}

mutual

def denote : Shape → Set P
  | .operator o ps s => I.operation o ps (denote s)
  | .combination k ss => I.join k (denoteAll ss)
  | s => I.primitive s

def denoteAll : List Shape → List (Set P)
  | [] => []
  | s :: ss => denote s :: denoteAll ss

end

theorem denoteAll_eq_map (ss : List Shape) : I.denoteAll ss = ss.map I.denote := by
  induction ss with
  | nil => rfl
  | cons s ss ih => rw [denoteAll, ih, List.map_cons]

theorem denote_operator (o : Operation) (ps : List Parameter) (s : Shape) :
    I.denote (.operator o ps s) = I.operation o ps (I.denote s) := by
  rw [denote]

theorem denote_combination (k : Kind) (ss : List Shape) :
    I.denote (.combination k ss) = I.join k (ss.map I.denote) := by
  rw [denote, denoteAll_eq_map]

end Interpretation

inductive Extension where
  | union
  | intersection
  | minkowski

def Extension.kind : Extension → Kind
  | union => .union
  | intersection => .intersection
  | minkowski => .minkowski

namespace Interpretation

variable {P : Type} [AddCommMonoid P] (I : Interpretation P)

theorem join_append (e : Extension) (As Bs : List (Set P)) :
    I.join e.kind (As ++ Bs) = I.join e.kind (I.join e.kind As :: Bs) := by
  cases e with
  | union =>
    ext p
    simp [Extension.kind, join, or_and_right, exists_or]
  | intersection =>
    ext p
    simp [Extension.kind, join, or_imp, forall_and]
  | minkowski => simp [Extension.kind, join]

theorem join_hull (As : List (Set P)) : I.join .hull As = I.join .hull [I.join .union As] := by
  simp [join]

end Interpretation
end SolidScript
