import SolidScript.Proofs.Shape.Built

/-!
# Well-formed shapes

Every node of a built shape has the parameter that its operation takes, of the length that its
dimension asks for, and no turn or move stands directly on one that it would have been added to.
-/

set_option autoImplicit false

namespace SolidScript
open Binary

def Parameter.SameForm : Parameter → Parameter → Prop
  | scalar _, scalar _ => True
  | vector xs, vector ys => xs.length = ys.length
  | _, _ => False

def Fits (dim : Option Dimension) (xs : Coordinates) : Prop := ∀ d ∈ dim, xs.length = d.size

/-- The parameters that an operation takes on a shape of a dimension. -/
inductive Operation.Takes (dim : Option Dimension) : Operation → Parameter → Prop where
  | translate {xs : Coordinates} (h : Fits dim xs) : Takes dim translate (.vector xs)
  | mirror {xs : Coordinates} (h : Fits dim xs) : Takes dim mirror (.vector xs)
  | scale (x : Single) : Takes dim scale (.scalar (.single x))
  | scaleEach {xs : Coordinates} (h : Fits dim xs) : Takes dim scale (.vector xs)
  | rotate (x : Single) : Takes dim rotate (.scalar (.single x))
  | rotateEach {xs : Coordinates} (h : Fits dim xs) : Takes dim rotate (.vector xs)
  | color (c : Color) : Takes dim color (.color c)
  | linearExtrude (x : Single) : Takes dim linearExtrude (.scalar (.single x))
  | rotateExtrude (x : Single) : Takes dim rotateExtrude (.scalar (.single x))

namespace Shape

def Merges (o : Operation) (p : Parameter) : Shape → Prop
  | operator .translate _ _ => o = .translate
  | operator .rotate [q] _ => o = .rotate ∧ q.SameForm p
  | _ => False

inductive WellFormed : Shape → Prop where
  | circle (d : Single) : WellFormed (circle d)
  | square (side : Single) : WellFormed (square side)
  | rectangle {v : Coordinates} (h : v.length = 2) : WellFormed (rectangle v)
  | polygon {ps : List Coordinates} (h : ∀ p ∈ ps, p.length = 2) : WellFormed (polygon ps)
  | cube (side : Single) : WellFormed (cube side)
  | cuboid {v : Coordinates} (h : v.length = 3) : WellFormed (cuboid v)
  | sphere (r : Single) : WellFormed (sphere r)
  | cylinder (h r : Single) : WellFormed (cylinder h r)
  | polyhedron {ps : List Coordinates} (h : ∀ p ∈ ps, p.length = 3) (fs : List (List Int)) :
    WellFormed (polyhedron ps fs)
  | operator {o : Operation} {p : Parameter} {s : Shape} (ht : o.Takes s.dim p)
    (hm : ¬Merges o p s) (hs : WellFormed s) : WellFormed (operator o [p] s)
  | combination {k : Kind} {ss : List Shape} (hk : k.accepts ss.length = true)
    (hs : ∀ s ∈ ss, WellFormed s) : WellFormed (combination k ss)

end Shape

theorem Coordinates.add_of_length {xs ys : Coordinates} (h : xs.length = ys.length) :
    xs.add ys = .ok (xs.zipWith (· + ·) ys) := by
  unfold add
  split
  · obtain ⟨y, rfl⟩ := List.length_eq_one_iff.1 h.symm
    rfl
  · obtain ⟨x, rfl⟩ := List.length_eq_one_iff.1 h
    rfl
  · rw [if_pos h]

namespace Parameter

variable {p q turn : Parameter}

theorem extents_single (x : Single) : (scalar (.single x)).extents = .ok [] := by
  simp [extents, toNested, Nested.isEven, Nested.extents?]

theorem extents_vector (xs : Coordinates) : (vector xs).extents = .ok [xs.length] := by
  simp [extents, toNested, Nested.isEven, Nested.extents?, Nested.maxDepth]

theorem turn?_single (x y : Single) : (scalar (.single x)).turn? (scalar (.single y)) =
    .ok (some (scalar (.single (x + y)))) := by
  simp [turn?, extents_single, addNumber, Scalar.operand, Scalar.narrow, bind, Except.bind, pure,
    Except.pure]

theorem move_of_length {xs ys : Coordinates} (h : xs.length = ys.length) :
    (vector xs).move ys = .ok (vector (xs.zipWith (· + ·) ys)) := by
  rw [move, Coordinates.add_of_length h]
  rfl

theorem turn?_of_length {xs ys : Coordinates} (h : xs.length = ys.length) :
    (vector xs).turn? (vector ys) = .ok (some (vector (xs.zipWith (· + ·) ys))) := by
  simp [turn?, extents_vector, h, move_of_length h, bind, Except.bind, pure, Except.pure]

theorem turn?_of_length_ne {xs ys : Coordinates} (h : xs.length ≠ ys.length) :
    (vector xs).turn? (vector ys) = .ok none := by
  simp [turn?, extents_vector, h, bind, Except.bind, pure, Except.pure]

theorem turn?_single_vector (x : Single) (ys : Coordinates) :
    (scalar (.single x)).turn? (vector ys) = .ok none := by
  simp [turn?, extents_single, extents_vector, bind, Except.bind, pure, Except.pure]

theorem turn?_vector_single (xs : Coordinates) (y : Single) :
    (vector xs).turn? (scalar (.single y)) = .ok none := by
  simp [turn?, extents_single, extents_vector, bind, Except.bind, pure, Except.pure]

variable {dim : Option Dimension}

theorem takes_rotate (h : (∃ x, p = scalar (.single x)) ∨ ∃ xs, Fits dim xs ∧ p = vector xs) :
    Operation.rotate.Takes dim p := by
  obtain ⟨x, rfl⟩ | ⟨xs, hxs, rfl⟩ := h
  · exact .rotate x
  · exact .rotateEach hxs

theorem turn?_some (hp : Operation.rotate.Takes dim p) (ht : Operation.rotate.Takes dim turn)
    (h : p.turn? turn = .ok (some q)) :
    Operation.rotate.Takes dim q ∧ ∀ r : Parameter, r.SameForm q → r.SameForm p := by
  cases hp with
  | rotate x => cases ht with
    | rotate y =>
      rw [turn?_single] at h
      cases h
      exact ⟨.rotate _, fun r hr => by cases r <;> simp_all [SameForm]⟩
    | rotateEach => rw [turn?_single_vector] at h; cases h
  | rotateEach hxs => cases ht with
    | rotate y => rw [turn?_vector_single] at h; cases h
    | rotateEach hys =>
      rename_i xs ys
      by_cases hl : xs.length = ys.length
      · rw [turn?_of_length hl] at h
        cases h
        refine ⟨.rotateEach fun d hd => by simp [hl, hys d hd], fun r hr => ?_⟩
        cases r <;> simp_all [SameForm]
      · rw [turn?_of_length_ne hl] at h
        cases h

theorem turn?_none (hp : Operation.rotate.Takes dim p) (ht : Operation.rotate.Takes dim turn)
    (h : p.turn? turn = .ok none) : ¬p.SameForm turn := by
  cases hp with
  | rotate x => cases ht with
    | rotate y => rw [turn?_single] at h; cases h
    | rotateEach => simp [SameForm]
  | rotateEach hxs => cases ht with
    | rotate y => simp [SameForm]
    | rotateEach hys =>
      intro hl
      rw [turn?_of_length hl] at h
      cases h

end Parameter

namespace Shape

variable {s t : Shape}

theorem takes_turn {n : Nested} {p : Parameter} (h : s.scalarOrVector n = .ok p) :
    Operation.rotate.Takes s.dim p := by
  apply Parameter.takes_rotate
  obtain h | ⟨xs, hxs, rfl⟩ := scalarOrVector_eq_ok h
  · exact .inl h
  · exact .inr ⟨xs, length_of_coordinates hxs, rfl⟩

theorem merges_translate {p : Parameter} :
    Merges .translate p s ↔ ∃ ps child, s = .operator .translate ps child := by
  unfold Merges
  split <;> simp
  assumption

theorem merges_rotate {p : Parameter} :
    Merges .rotate p s ↔ ∃ q child, s = .operator .rotate [q] child ∧ q.SameForm p := by
  unfold Merges
  split <;> simp_all

theorem not_merges {o : Operation} (p : Parameter) (ht : o ≠ .translate) (hr : o ≠ .rotate) :
    ¬Merges o p s := by
  unfold Merges
  split <;> simp_all

namespace WellFormed

theorem translate {n : Nested} (hs : WellFormed s) (h : s.translate n = .ok t) : WellFormed t := by
  obtain ⟨xs, hxs, ⟨ps, child, p, q, rfl, hp, hq, rfl⟩ | ⟨hne, rfl⟩⟩ := of_translate h
  · -- the two offsets are vectors of the dimension, and what was moved is not moved again
    cases hs with
    | operator ht hm hc =>
      obtain rfl : _ = p := by simpa [firstParameter] using hp
      cases ht with
      | translate hys =>
        obtain ⟨zs, hzs, rfl⟩ := map_eq_ok.1 hq
        rw [merges_translate] at hm
        refine .operator (.translate fun d hd => ?_) (mt merges_translate.1 hm) hc
        have hl := length_of_coordinates hxs d hd
        have hlength := (hys d hd).trans hl.symm
        rw [Coordinates.add_of_length hlength] at hzs
        cases hzs
        simp [hlength, hl]
  · have hm : ¬Merges .translate (.vector xs) s := by
      rw [merges_translate]
      rintro ⟨ps, child, rfl⟩
      exact hne ps child rfl
    exact .operator (.translate (length_of_coordinates hxs)) hm hs

theorem rotate {n : Nested} (hs : WellFormed s) (h : s.rotate n = .ok t) : WellFormed t := by
  obtain ⟨turn, hturn, ⟨ps, child, p, sum, rfl, hp, hsum, rfl⟩ | ⟨hnone, rfl⟩⟩ := of_rotate h
  · -- the sum has the form of what was there, which no turn below has
    cases hs with
    | operator ht hm hc =>
      obtain rfl : _ = p := by simpa [firstParameter] using hp
      obtain ⟨hsum, hform⟩ := Parameter.turn?_some ht (takes_turn hturn) hsum
      refine .operator hsum ?_ hc
      rw [merges_rotate] at hm ⊢
      rintro ⟨r, child, rfl, hr⟩
      exact hm ⟨r, child, rfl, hform r hr⟩
  · have hm : ¬Merges .rotate turn s := by
      rw [merges_rotate]
      rintro ⟨q, child, rfl, hform⟩
      obtain ⟨p, hp, hnone⟩ := hnone _ _ rfl
      obtain rfl : q = p := by simpa [firstParameter] using hp
      cases hs with
      | operator ht => exact Parameter.turn?_none ht (takes_turn hturn) hnone hform
    exact .operator (takes_turn hturn) hm hs

end WellFormed

/-- A shape made without setting up an operation by hand is well-formed. -/
theorem Built.wellFormed (h : Built False s) : WellFormed s := by
  induction h with
  | circle d => exact .circle d
  | square side => exact .square side
  | rectangle h => exact .rectangle (by exact_mod_cast h.length)
  | polygon h => exact .polygon fun p hp => by exact_mod_cast (h p hp).length
  | cube side => exact .cube side
  | cuboid h => exact .cuboid (by exact_mod_cast h.length)
  | sphere r => exact .sphere r
  | cylinder h r => exact .cylinder h r
  | polyhedron h fs => exact .polyhedron (fun p hp => by exact_mod_cast (h p hp).length) fs
  | combine _ h ih =>
    obtain ⟨hk, -, rfl⟩ := combine_eq_ok.1 h
    exact .combination hk ih
  | translate _ h ih => exact ih.translate h
  | rotate _ h ih => exact ih.rotate h
  | scaleEach _ h ih =>
    obtain ⟨xs, hxs, rfl⟩ := of_scaleEach h
    exact .operator (.scaleEach (length_of_coordinates hxs)) (not_merges _ nofun nofun) ih
  | scale _ h ih =>
    obtain ⟨p, hp, rfl⟩ := of_scale h
    refine .operator ?_ (not_merges _ nofun nofun) ih
    cases takes_turn hp with
    | rotate x => exact .scale x
    | rotateEach hxs => exact .scaleEach hxs
  | mirror _ h ih =>
    obtain ⟨xs, hxs, rfl⟩ := of_mirror h
    exact .operator (.mirror (length_of_coordinates hxs)) (not_merges _ nofun nofun) ih
  | color _ h ih =>
    obtain rfl := of_color h
    exact .operator (.color _) (not_merges _ nofun nofun) ih
  | linearExtrude _ h ih =>
    obtain ⟨-, x, rfl⟩ := of_linearExtrude h
    exact .operator (.linearExtrude x) (not_merges _ nofun nofun) ih
  | rotateExtrude _ h ih =>
    obtain ⟨-, x, rfl⟩ := of_rotateExtrude h
    exact .operator (.rotateExtrude x) (not_merges _ nofun nofun) ih
  | operate hf => exact hf.elim

end Shape
end SolidScript
