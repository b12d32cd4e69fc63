import SolidScript.Proofs.Shape.WellFormed
import SolidScript.Shape.Render

/-!
# Well-formed shapes have a script
-/

set_option autoImplicit false

namespace SolidScript
open Binary

def Parameter.text : Parameter → List Char
  | .scalar (.single x) => numberText x
  | .vector xs => vectorText xs
  | .color c => c.text
  | _ => []

namespace Shape

variable {s : Shape}

/-- The script of a shape, or nothing if it has none. -/
def text (s : Shape) : List Char := s.render.toOption.getD []

theorem text_eq {t : List Char} (h : s.render = .ok t) : s.text = t := by
  simp [text, h, Except.toOption]

theorem parameterText_eq {o : Operation} {dim : Option Dimension} {p : Parameter}
    (h : o.Takes dim p) : parameterText [p] = .ok p.text := by
  cases h <;> simp [parameterText, Parameter.text, Scalar.narrow, bind, Except.bind, pure,
    Except.pure]

theorem renderAll_eq {ss : List Shape} (h : ∀ s ∈ ss, s.render = .ok s.text) :
    renderAll ss = .ok (ss.map text) := by
  rw [renderAll_eq_mapM, mapM_eq_ok, List.forall₂_map_right_iff, List.forall₂_same]
  exact h

theorem render_operator {o : Operation} {p : Parameter} (ht : o.Takes s.dim p)
    (hs : s.render = .ok s.text) :
    (operator o [p] s).render = .ok (block (o.header p.text) [s.text]) := by
  simp [render, parameterText_eq ht, hs, bind, Except.bind, pure, Except.pure]

theorem render_combination {k : Kind} {ss : List Shape} (h : ∀ s ∈ ss, s.render = .ok s.text) :
    (combination k ss).render = .ok (block k.header (ss.map text)) := by
  simp [render, renderAll_eq h, bind, Except.bind, pure, Except.pure]

namespace WellFormed

theorem render_eq (h : WellFormed s) : s.render = .ok s.text := by
  suffices h : ∃ t, s.render = .ok t by
    obtain ⟨t, ht⟩ := h
    rw [ht, text_eq ht]
  induction h with
  | operator ht _ _ ih =>
    obtain ⟨t, hc⟩ := ih
    exact ⟨_, render_operator ht (by rw [hc, text_eq hc])⟩
  | combination _ _ ih =>
    refine ⟨_, render_combination fun s hs => ?_⟩
    obtain ⟨t, hc⟩ := ih s hs
    rw [hc, text_eq hc]
  | _ => exact ⟨_, by rw [render]⟩

theorem text_operator {o : Operation} {p : Parameter} (h : WellFormed (.operator o [p] s)) :
    (Shape.operator o [p] s).text = block (o.header p.text) [s.text] := by
  cases h with
  | operator ht _ hs => exact text_eq (render_operator ht hs.render_eq)

theorem text_combination {k : Kind} {ss : List Shape} (h : WellFormed (.combination k ss)) :
    (Shape.combination k ss).text = block k.header (ss.map text) := by
  cases h with
  | combination _ hs => exact text_eq (render_combination fun s hm => (hs s hm).render_eq)

end WellFormed
end Shape
end SolidScript
