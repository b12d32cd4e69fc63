import SolidScript.Proofs.Shape.WellFormed
import SolidScript.Shape.Array

/-!
# Moved and turned shapes

A shape that is moved has a move around it, or another one if it had been moved, and one that is
turned for the first time has a turn around it.
-/

set_option autoImplicit false

namespace SolidScript
open Binary

theorem Nested.toVector_triple {x y z : Scalar} {a b c : Single} (hx : x.narrow = .ok a)
    (hy : y.narrow = .ok b) (hz : z.narrow = .ok c) :
    (of [x, y, z]).toVector (some 3) = .ok [a, b, c] := by
  have hread : [x, y, z].mapM Scalar.narrow = .ok [a, b, c] :=
    mapM_eq_ok.2 (.cons hx (.cons hy (.cons hz .nil)))
  change (do checkLength (some 3) (promote (some 3) (← [x, y, z].mapM Scalar.narrow))) = _
  rw [hread]
  rfl

theorem Fits.scale {dim : Option Dimension} {xs : Coordinates} (h : Fits dim xs) (k : Single) :
    Fits dim (xs.scale k) := fun d hd => by rw [Coordinates.scale, List.length_map, h d hd]

namespace Shape

variable {s : Shape} {xs ys : Coordinates} {x y z : Scalar} {a b c : Single}

def moved (s : Shape) (offset : Coordinates) : Shape := operator .translate [.vector offset] s

@[simp] theorem dim_moved (s : Shape) (xs : Coordinates) : (s.moved xs).dim = s.dim := by
  simp [moved, dim, Operation.family]

theorem coordinates_vector (h : Fits s.dim xs) : s.coordinates (.vector xs) = .ok xs := by
  apply Nested.toVector_vector
  intro n hn
  obtain ⟨d, hd, rfl⟩ := Option.map_eq_some_iff.1 hn
  exact congrArg Nat.cast (h d hd)

theorem coordinates_triple (hd : s.dim = some .space) (hx : x.narrow = .ok a)
    (hy : y.narrow = .ok b) (hz : z.narrow = .ok c) :
    s.coordinates (.of [x, y, z]) = .ok [a, b, c] := by
  rw [coordinates, hd]
  exact Nested.toVector_triple hx hy hz

theorem translate_of_coordinates (hs : ∀ ps child, s ≠ operator .translate ps child) {n : Nested}
    (h : s.coordinates n = .ok xs) : s.translate n = .ok (s.moved xs) := by
  rw [translate_other hs, h]
  rfl

theorem moved_translate (h : Fits s.dim ys) (hlength : xs.length = ys.length) :
    (s.moved xs).translate (.vector ys) = .ok (s.moved (xs.zipWith (· + ·) ys)) := by
  rw [moved, translate_translate, coordinates_vector (by rwa [← dim_moved s xs] at h), ok_bind]
  simp only [firstParameter, ok_bind, Parameter.move_of_length hlength]
  rfl

theorem rotate_single (hs : ∀ ps child, s ≠ operator .rotate ps child) (x : Single) :
    s.rotate (.scalar (.single x)) = .ok (operator .rotate [.scalar (.single x)] s) := by
  rw [rotate_other hs]
  rfl

theorem rotate_vector (hs : ∀ ps child, s ≠ operator .rotate ps child) (h : Fits s.dim xs) :
    s.rotate (.vector xs) = .ok (operator .rotate [.vector xs] s) := by
  have hturn : s.scalarOrVector (.vector xs) =
      (do return .vector (← s.coordinates (.vector xs))) := rfl
  rw [rotate_other hs, hturn, coordinates_vector h]
  rfl

section
variable (hd : s.dim = some .space) (hx : x.narrow = .ok a) (hy : y.narrow = .ok b)
  (hz : z.narrow = .ok c)
include hd hx hy hz

theorem translate_triple (hs : ∀ ps child, s ≠ operator .translate ps child) :
    s.translate (.of [x, y, z]) = .ok (s.moved [a, b, c]) :=
  translate_of_coordinates hs (coordinates_triple hd hx hy hz)

theorem rotate_triple (hs : ∀ ps child, s ≠ operator .rotate ps child) :
    s.rotate (.of [x, y, z]) = .ok (operator .rotate [.vector [a, b, c]] s) := by
  have hturn : s.scalarOrVector (.of [x, y, z]) =
      (do return .vector (← s.coordinates (.of [x, y, z]))) := rfl
  rw [rotate_other hs, hturn, coordinates_triple hd hx hy hz]
  rfl

end

/-! Copies -/

section
variable {i : Int} {k : Single} (hk : (Scalar.whole i).narrow = .ok k)
include hk

theorem turnTimes_single (x : Single) :
    turnTimes (.scalar (.single x)) (.whole i) = .ok (.scalar (.single (x * k))) := by
  have hindex : (Index.number (.whole i)).narrow = .ok k := hk
  have hread : (Scalar.single x).narrow = .ok x := rfl
  simp only [turnTimes, Index.whole, hread, ok_bind, angleTimes, hindex]
  rfl

theorem turnTimes_vector (xs : Coordinates) :
    turnTimes (.vector xs) (.whole i) = .ok (.vector (xs.scale k)) := by
  have hindex : (Index.whole i).narrow = .ok k := hk
  rw [turnTimes, hindex]
  rfl

end

end Shape
end SolidScript
