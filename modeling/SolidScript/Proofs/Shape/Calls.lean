import SolidScript.Proofs.Yields
import SolidScript.Shape.Combine
import SolidScript.Shape.Transform

/-!
# What a call can do

Each lemma lists the ways in which a call that makes a shape can have a result.
-/

set_option autoImplicit false

namespace SolidScript
open Binary

/-- What is read from nested lists as a vector of a size. -/
def IsVector (size : Int) (xs : Coordinates) : Prop :=
  ∃ n : Nested, n.toVector (some size) = .ok xs

theorem length_of_toVector {size : Int} {n : Nested} {xs : Coordinates}
    (h : n.toVector (some size) = .ok xs) : xs.length = size := by
  unfold Nested.toVector at h
  split at h
  · obtain ⟨ys, -, h⟩ := bind_eq_ok.1 h
    simp only [Nested.checkLength] at h
    split at h
    · cases h
      exact Eq.symm ‹_›
    · cases h
  · cases h

theorem IsVector.length {size : Int} {xs : Coordinates} (h : IsVector size xs) :
    xs.length = size := by
  obtain ⟨n, h⟩ := h
  exact length_of_toVector h

theorem mapM_narrow (xs : Coordinates) : (xs.map Scalar.single).mapM Scalar.narrow = .ok xs := by
  rw [mapM_eq_ok, List.forall₂_map_left_iff, List.forall₂_same]
  intro _ _
  exact rfl

theorem Nested.toVector_vector {size : Option Int} {xs : Coordinates}
    (h : ∀ n ∈ size, (xs.length : Int) = n) : (vector xs).toVector size = .ok xs := by
  have heven : (vector xs).isEven = true := by simp [isEven, extents?, maxDepth]
  have hread : (vector xs).leaves.mapM Scalar.narrow = .ok xs := mapM_narrow xs
  have hpromote : promote size xs = xs := by
    rw [promote, if_neg]
    rintro ⟨rfl, h2⟩
    have := h 3 rfl
    omega
  rw [toVector, if_pos heven, hread, ok_bind, hpromote]
  cases size with
  | none => rfl
  | some n => rw [checkLength, if_pos (h n rfl).symm]

theorem isVector_of_length {xs : Coordinates} {size : Nat} (h : xs.length = size) :
    IsVector size xs := ⟨.vector xs, Nested.toVector_vector (by simp [h])⟩

theorem Kind.accepts_of_ne {k : Kind} (h : k ≠ .difference) (n : Nat) : k.accepts n = true := by
  simp [accepts, h]

namespace Shape

variable {s t : Shape} {ss : List Shape} {k : Kind}

theorem combine_of_ne (h : k ≠ .difference) (ss : List Shape) :
    combine k ss = if mixes ss then .error (.mixedDimensions k) else .ok (.combination k ss) := by
  simp [combine, Kind.accepts_of_ne h]

theorem combine_eq_ok : combine k ss = .ok t ↔
    k.accepts ss.length = true ∧ mixes ss = false ∧ .combination k ss = t := by
  unfold combine
  by_cases ha : k.accepts ss.length <;> by_cases hm : mixes ss <;> simp [ha, hm]

theorem combine_solids {k : Kind} {ss : List Shape} (ha : k.accepts ss.length = true)
    (h : ∀ s ∈ ss, s.dim ≠ some .plane) : combine k ss = .ok (.combination k ss) := by
  refine combine_eq_ok.2 ⟨ha, ?_, rfl⟩
  have hplane : ss.any (·.dim = some .plane) = false := by simpa using h
  rw [mixes, hplane, Bool.false_and]

theorem operate_eq_ok {o : Operation} {ps : List Parameter} : s.operate o ps = .ok t ↔
    ¬(o.family = .extrude ∧ s.dim = some .space) ∧ .operator o ps s = t := by
  unfold operate
  by_cases h : o.family = .extrude ∧ s.dim = some .space <;> simp [h]

theorem length_of_coordinates {n : Nested} {xs : Coordinates} (h : s.coordinates n = .ok xs) :
    ∀ d ∈ s.dim, xs.length = d.size := by
  intro d hd
  rw [coordinates, Option.mem_def.1 hd] at h
  exact Int.ofNat.inj (length_of_toVector h)

theorem translate_translate (ps : List Parameter) (child : Shape) (n : Nested) :
    (operator .translate ps child).translate n = do
      let xs ← (operator .translate ps child).coordinates n
      return .operator .translate [← (← firstParameter ps).move xs] child := rfl

theorem translate_other (h : ∀ ps child, s ≠ .operator .translate ps child) (n : Nested) :
    s.translate n = do return .operator .translate [.vector (← s.coordinates n)] s := by
  unfold translate
  congr 1
  funext xs
  split
  · exact absurd rfl (h _ _)
  · rfl

theorem rotate_rotate (ps : List Parameter) (child : Shape) (n : Nested) :
    (operator .rotate ps child).rotate n = do
      let turn ← (operator .rotate ps child).scalarOrVector n
      match ← (← firstParameter ps).turn? turn with
      | some sum => return .operator .rotate [sum] child
      | none => return .operator .rotate [turn] (.operator .rotate ps child) := rfl

theorem rotate_other (h : ∀ ps child, s ≠ .operator .rotate ps child) (n : Nested) :
    s.rotate n = do return .operator .rotate [← s.scalarOrVector n] s := by
  unfold rotate
  congr 1
  funext xs
  split
  · exact absurd rfl (h _ _)
  · rfl

/-- Moving what is moved adds the offsets, and anything else is wrapped. -/
theorem of_translate {n : Nested} (h : s.translate n = .ok t) :
    ∃ xs, s.coordinates n = .ok xs ∧
      ((∃ ps child p q, s = .operator .translate ps child ∧ firstParameter ps = .ok p ∧
        p.move xs = .ok q ∧ t = .operator .translate [q] child) ∨
      ((∀ ps child, s ≠ .operator .translate ps child) ∧
        t = .operator .translate [.vector xs] s)) := by
  by_cases hs : ∃ ps child, s = .operator .translate ps child
  · obtain ⟨ps, child, rfl⟩ := hs
    rw [translate_translate, bind_eq_ok] at h
    obtain ⟨xs, hxs, h⟩ := h
    obtain ⟨p, hp, h⟩ := bind_eq_ok.1 h
    obtain ⟨q, hq, h⟩ := bind_eq_ok.1 h
    exact ⟨xs, hxs, .inl ⟨ps, child, p, q, rfl, hp, hq, (pure_eq_ok.1 h).symm⟩⟩
  · simp only [not_exists] at hs
    rw [translate_other hs, bind_eq_ok] at h
    obtain ⟨xs, hxs, h⟩ := h
    exact ⟨xs, hxs, .inr ⟨hs, (pure_eq_ok.1 h).symm⟩⟩

/-- Turning what is turned adds the angles if the turns are of one form, and wraps if not. -/
theorem of_rotate {n : Nested} (h : s.rotate n = .ok t) :
    ∃ turn, s.scalarOrVector n = .ok turn ∧
      ((∃ ps child p sum, s = .operator .rotate ps child ∧ firstParameter ps = .ok p ∧
        p.turn? turn = .ok (some sum) ∧ t = .operator .rotate [sum] child) ∨
      ((∀ ps child, s = .operator .rotate ps child →
        ∃ p, firstParameter ps = .ok p ∧ p.turn? turn = .ok none) ∧
        t = .operator .rotate [turn] s)) := by
  by_cases hs : ∃ ps child, s = .operator .rotate ps child
  · obtain ⟨ps, child, rfl⟩ := hs
    rw [rotate_rotate, bind_eq_ok] at h
    obtain ⟨turn, hturn, h⟩ := h
    obtain ⟨p, hp, h⟩ := bind_eq_ok.1 h
    obtain ⟨q, hq, h⟩ := bind_eq_ok.1 h
    refine ⟨turn, hturn, ?_⟩
    cases q with
    | some sum => exact .inl ⟨ps, child, p, sum, rfl, hp, hq, (pure_eq_ok.1 h).symm⟩
    | none =>
      refine .inr ⟨?_, (pure_eq_ok.1 h).symm⟩
      rintro _ _ ⟨⟩
      exact ⟨p, hp, hq⟩
  · simp only [not_exists] at hs
    rw [rotate_other hs, bind_eq_ok] at h
    obtain ⟨turn, hturn, h⟩ := h
    exact ⟨turn, hturn, .inr ⟨fun ps child e => absurd e (hs ps child), (pure_eq_ok.1 h).symm⟩⟩

theorem scalarOrVector_eq_ok {n : Nested} {p : Parameter} (h : s.scalarOrVector n = .ok p) :
    (∃ x, p = .scalar (.single x)) ∨ ∃ xs, s.coordinates n = .ok xs ∧ p = .vector xs := by
  unfold scalarOrVector at h
  split at h
  · obtain ⟨x, -, h⟩ := bind_eq_ok.1 h
    exact .inl ⟨x, (pure_eq_ok.1 h).symm⟩
  · obtain ⟨xs, hxs, h⟩ := bind_eq_ok.1 h
    exact .inr ⟨xs, hxs, (pure_eq_ok.1 h).symm⟩

theorem of_scaleEach {n : Nested} (h : s.scaleEach n = .ok t) :
    ∃ xs, s.coordinates n = .ok xs ∧ .operator .scale [.vector xs] s = t := by
  simpa only [scaleEach, bind_eq_ok, pure_eq_ok] using h

theorem of_scale {n : Nested} (h : s.scale n = .ok t) :
    ∃ p, s.scalarOrVector n = .ok p ∧ .operator .scale [p] s = t := by
  simpa only [scale, bind_eq_ok, pure_eq_ok] using h

theorem of_mirror {n : Nested} (h : s.mirror n = .ok t) :
    ∃ xs, s.coordinates n = .ok xs ∧ .operator .mirror [.vector xs] s = t := by
  simpa only [mirror, bind_eq_ok, pure_eq_ok] using h

theorem of_color {c : Color} (h : s.color c = .ok t) : .operator .color [.color c] s = t :=
  (operate_eq_ok.1 h).2

theorem of_linearExtrude {x : Scalar} (h : s.linearExtrude x = .ok t) :
    s.dim ≠ some .space ∧ ∃ y, .operator .linearExtrude [.scalar (.single y)] s = t := by
  obtain ⟨y, -, h⟩ := bind_eq_ok.1 h
  obtain ⟨hd, h⟩ := operate_eq_ok.1 h
  exact ⟨fun e => hd ⟨rfl, e⟩, y, h⟩

theorem of_rotateExtrude {x : Scalar} (h : s.rotateExtrude x = .ok t) :
    s.dim ≠ some .space ∧ ∃ y, .operator .rotateExtrude [.scalar (.single y)] s = t := by
  obtain ⟨y, -, h⟩ := bind_eq_ok.1 h
  obtain ⟨hd, h⟩ := operate_eq_ok.1 h
  exact ⟨fun e => hd ⟨rfl, e⟩, y, h⟩

theorem coordinates_congr (h : s.dim = t.dim) (n : Nested) : s.coordinates n = t.coordinates n := by
  rw [coordinates, coordinates, h]

theorem scalarOrVector_congr (h : s.dim = t.dim) (n : Nested) :
    s.scalarOrVector n = t.scalarOrVector n := by
  unfold scalarOrVector
  split
  · rfl
  · rw [coordinates_congr h]

end Shape

inductive Change where
  | translate (offset : Nested)
  | rotate (angle : Nested)
  | scaleEach (factors : Nested)
  | scale (factor : Nested)
  | mirror (normal : Nested)
  | color (c : Color)
  | linearExtrude (height : Scalar)
  | rotateExtrude (angle : Scalar)

def Change.apply (s : Shape) : Change → Except Fault Shape
  | translate offset => s.translate offset
  | rotate angle => s.rotate angle
  | scaleEach factors => s.scaleEach factors
  | scale factor => s.scale factor
  | mirror normal => s.mirror normal
  | color c => s.color c
  | linearExtrude height => s.linearExtrude height
  | rotateExtrude angle => s.rotateExtrude angle

end SolidScript
