import SolidScript.Demo.Program
import SolidScript.Proofs.Shape.Calls
import SolidScript.Solid.Half

/-!
# Shapes that calls make

`Built` is what the primitives, combinations and operations make from each other. Everything else
that makes shapes is put together from these, so the shapes that a script leaves are built
(`Script.run_holds`). With `free`, operations may be made directly, with any parameters.
-/

set_option autoImplicit false

namespace SolidScript

namespace Shape
open Binary

inductive Built (free : Prop) : Shape → Prop where
  | circle (d : Single) : Built free (circle d)
  | square (side : Single) : Built free (square side)
  | rectangle {v : Coordinates} (h : IsVector 2 v) : Built free (rectangle v)
  | polygon {ps : List Coordinates} (h : ∀ p ∈ ps, IsVector 2 p) : Built free (polygon ps)
  | cube (side : Single) : Built free (cube side)
  | cuboid {v : Coordinates} (h : IsVector 3 v) : Built free (cuboid v)
  | sphere (r : Single) : Built free (sphere r)
  | cylinder (h r : Single) : Built free (cylinder h r)
  | polyhedron {ps : List Coordinates} (h : ∀ p ∈ ps, IsVector 3 p) (fs : List (List Int)) :
    Built free (polyhedron ps fs)
  | combine {k : Kind} {ss : List Shape} {t : Shape} (hs : ∀ s ∈ ss, Built free s)
    (h : combine k ss = .ok t) : Built free t
  | translate {s t : Shape} {n : Nested} (hs : Built free s) (h : s.translate n = .ok t) :
    Built free t
  | rotate {s t : Shape} {n : Nested} (hs : Built free s) (h : s.rotate n = .ok t) : Built free t
  | scaleEach {s t : Shape} {n : Nested} (hs : Built free s) (h : s.scaleEach n = .ok t) :
    Built free t
  | scale {s t : Shape} {n : Nested} (hs : Built free s) (h : s.scale n = .ok t) : Built free t
  | mirror {s t : Shape} {n : Nested} (hs : Built free s) (h : s.mirror n = .ok t) : Built free t
  | color {s t : Shape} {c : Color} (hs : Built free s) (h : s.color c = .ok t) : Built free t
  | linearExtrude {s t : Shape} {x : Scalar} (hs : Built free s) (h : s.linearExtrude x = .ok t) :
    Built free t
  | rotateExtrude {s t : Shape} {x : Scalar} (hs : Built free s) (h : s.rotateExtrude x = .ok t) :
    Built free t
  | operate {s t : Shape} {o : Operation} {ps : List Parameter} (hf : free) (hs : Built free s)
    (h : s.operate o ps = .ok t) : Built free t

end Shape

variable {free : Prop}

namespace Sequence

variable {α : Type} {P : α → Prop} {s : Sequence α}

theorem take_yields (h : ∀ i, Yields P (s.element i)) (i : Int) (n : Nat) :
    Yields (fun as => ∀ a ∈ as, P a) (s.take i n) := by
  induction n generalizing i with
  | zero => simp [take]
  | succ n ih =>
    simp only [take, yields_bind, yields_pure, List.forall_mem_cons]
    intro a ha as has
    exact ⟨h _ a ha, ih _ as has⟩

theorem items_yields (h : ∀ i, Yields P (s.element i)) :
    Yields (fun as => ∀ a ∈ as, P a) s.items := take_yields h 0 _

theorem toList_yields (h : ∀ i, Yields P (s.element i)) :
    Yields (fun as => ∀ a ∈ as, P a) s.toList := by
  simp only [toList, yields_bind]
  intro _ _
  exact items_yields h

theorem get_yields (h : ∀ i, Yields P (s.element i)) (i : Index) : Yields P (s.get i) := by
  simp only [get, yields_bind]
  intro b _
  cases b
  · simp
  · simp only [if_true, yields_bind]
    intro j _
    exact h j

theorem combine_yields {s : Sequence Shape} (h : ∀ i, Yields (Shape.Built free) (s.element i))
    (k : Kind) : Yields (Shape.Built free) (s.combine k) := by
  simp only [combine, yields_bind]
  intro ss hss t ht
  exact .combine (toList_yields h ss hss) ht

end Sequence

namespace Shape.Built
open Binary

variable {s t : Shape}

theorem combines {ss : List Shape} (hs : ∀ s ∈ ss, Built free s) (k : Kind) :
    Yields (Built free) (Shape.combine k ss) := fun _ h => .combine hs h

theorem translates (hs : Built free s) (n : Nested) : Yields (Built free) (s.translate n) :=
  fun _ h => .translate hs h

theorem rotates (hs : Built free s) (n : Nested) : Yields (Built free) (s.rotate n) :=
  fun _ h => .rotate hs h

theorem of_combination {k : Kind} {ss : List Shape} (h : Built free (.combination k ss)) :
    (∀ s ∈ ss, Built free s) ∧ Shape.combine k ss = .ok (.combination k ss) := by
  generalize hs : Shape.combination k ss = s at h
  cases h with
  | combine hss h =>
    obtain ⟨-, -, rfl⟩ := combine_eq_ok.1 h
    cases hs
    exact ⟨hss, h⟩
  | translate _ h =>
    subst hs
    obtain ⟨xs, -, ⟨_, _, _, _, _, _, _, h⟩ | ⟨-, h⟩⟩ := of_translate h <;> cases h
  | rotate _ h =>
    subst hs
    obtain ⟨_, -, ⟨_, _, _, _, _, _, _, h⟩ | ⟨-, h⟩⟩ := of_rotate h <;> cases h
  | scaleEach _ h => obtain ⟨_, -, rfl⟩ := of_scaleEach h; cases hs
  | scale _ h => obtain ⟨_, -, rfl⟩ := of_scale h; cases hs
  | mirror _ h => obtain ⟨_, -, rfl⟩ := of_mirror h; cases hs
  | color _ h => obtain rfl := of_color h; cases hs
  | linearExtrude _ h => obtain ⟨-, _, rfl⟩ := of_linearExtrude h; cases hs
  | rotateExtrude _ h => obtain ⟨-, _, rfl⟩ := of_rotateExtrude h; cases hs
  | operate _ _ h => obtain ⟨-, rfl⟩ := operate_eq_ok.1 h; cases hs
  | _ => cases hs

theorem operands (hs : Built free s) (k : Kind) : ∀ c ∈ s.operands k, Built free c := by
  unfold Shape.operands
  split
  · split
    · exact hs.of_combination.1
    · simpa using hs
  · simpa using hs

theorem extend (hs : Built free s) {ss : List Shape} (hss : ∀ c ∈ ss, Built free c) (k : Kind) :
    Yields (Built free) (s.extend k ss) :=
  fun _ h => .combine (List.forall_mem_append.2 ⟨hs.operands k, hss⟩) h

theorem difference (hs : Built free s) (ht : Built free t) :
    Yields (Built free) (s.difference t) :=
  fun _ h => .combine (by simp [hs, ht]) h

theorem hull (hs : Built free s) : Yields (Built free) s.hull :=
  fun _ h => .combine (hs.operands .union) h

theorem addMap (hs : Built free s) {f : Shape → Except Fault Shape}
    (hf : Yields (Built free) (f s)) : Yields (Built free) (s.addMap f) := by
  simp only [Shape.addMap, yields_bind]
  intro t ht
  exact hs.extend (by simpa using hf t ht) _

theorem compose {ss : List Shape} (hss : ∀ c ∈ ss, Built free c) (kind : String) :
    Yields (Built free) (Shape.compose kind ss) := by
  simp only [Shape.compose, yields_bind]
  intro k _ _ h
  exact .combine hss h

/-! Sequences -/

theorem iterTranslate (hs : Built free s) (step : Nested) (n : Scalar) :
    Yields (fun q => ∀ i, Yields (Built free) (q.element i)) (s.iterTranslate step n) := by
  simp only [Shape.iterTranslate, yields_bind, yields_pure]
  intro _ _ _ _ _ _ _ _ h
  exact .translate hs h

theorem iterRotate (hs : Built free s) (step : Nested) (n : Scalar) :
    Yields (fun q => ∀ i, Yields (Built free) (q.element i)) (s.iterRotate step n) := by
  simp only [Shape.iterRotate, yields_bind, yields_pure]
  intro _ _ _ _ _ _ _ _ h
  exact .rotate hs h

theorem iterRotateEqual (hs : Built free s) (n : Scalar) :
    Yields (fun q => ∀ i, Yields (Built free) (q.element i)) (s.iterRotateEqual n) := by
  simp only [Shape.iterRotateEqual, yields_bind, yields_pure]
  intro _ _ _ _ _ _ h
  exact .rotate hs h

theorem iterSquareEdge (hs : Built free s) (distance : Scalar) :
    Yields (fun q => ∀ i, Yields (Built free) (q.element i)) (s.iterSquareEdge distance) := by
  simp only [Shape.iterSquareEdge, yields_bind, yields_pure]
  intro _ _ _ _ _ _ h
  exact .translate hs h

theorem translateList (hs : Built free s) (step : Nested) (n : Scalar) :
    Yields (fun ss => ∀ c ∈ ss, Built free c) (s.translateList step n) := by
  simp only [Shape.translateList, yields_bind]
  intro q hq
  exact Sequence.toList_yields (hs.iterTranslate step n q hq)

end Shape.Built
end SolidScript
