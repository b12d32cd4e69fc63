import SolidScript.Proofs.Shape.Built

/-!
# Library shapes are built

The solids of the library and the demonstrations, put together from calls on primitives.
-/

set_option autoImplicit false

namespace SolidScript
open Binary Shape

variable {free : Prop}

namespace Shape.Built

theorem ofCuboid (n : Nested) : Yields (Built free) (Factory.cuboid n) := by
  simp only [Factory.cuboid, yields_bind, yields_pure]
  intro v hv
  exact .cuboid ⟨n, hv⟩

theorem ofBox (x y z : Scalar) : Yields (Built free) (Factory.box x y z) := by
  simp only [Factory.box, yields_bind, yields_pure]
  intro _ _ _ _ _ _
  exact .cuboid (isVector_of_length rfl)

theorem ofCircle (x : Scalar) : Yields (Built free) (Factory.circle x) := by
  simp only [Factory.circle, yields_bind, yields_pure]
  intro d _
  exact .circle d

theorem ofSquare (x : Scalar) : Yields (Built free) (Factory.square x) := by
  simp only [Factory.square, yields_bind, yields_pure]
  intro d _
  exact .square d

theorem ofCube (x : Scalar) : Yields (Built free) (Factory.cube x) := by
  simp only [Factory.cube, yields_bind, yields_pure]
  intro d _
  exact .cube d

theorem ofSphere (x : Scalar) : Yields (Built free) (Factory.sphere x) := by
  simp only [Factory.sphere, yields_bind, yields_pure]
  intro d _
  exact .sphere d

theorem ofCylinder (h r : Scalar) : Yields (Built free) (Factory.cylinder h r) := by
  simp only [Factory.cylinder, yields_bind, yields_pure]
  intro h _ r _
  exact .cylinder h r

theorem ofSpheroid (n : Nested) : Yields (Built free) (Factory.spheroid n) :=
  fun _ h => .scaleEach (.sphere _) h

theorem ofHalfPlane (aim : Aim) : Yields (Built free) (halfPlane aim) :=
  fun _ h => .translate (.square _) h

theorem ofHalfSpace (aim : Aim) : Yields (Built free) (halfSpace aim) :=
  fun _ h => .translate (.cube _) h

theorem ofBeveledBox (size : Nested) (bevel : Scalar) :
    Yields (Built free) (beveledBox size bevel) := by
  simp only [beveledBox, yields_bind]
  intro v _
  split
  · simp only [yields_bind]
    intro b _ s hs t ht u hu
    apply combines
    intro c hc
    have box : ∀ {xs : Coordinates}, xs.length = 3 → Built free (.cuboid xs) :=
      fun h => .cuboid (isVector_of_length h)
    simp only [List.mem_cons, List.not_mem_nil, or_false] at hc
    obtain rfl | rfl | rfl := hc
    · exact .translate (box rfl) hs
    · exact .translate (box rfl) ht
    · exact .translate (box rfl) hu
  · exact yields_error

theorem row {s : Shape} (hs : Built free s) (step : Coordinates) (n : Int) :
    Yields (Built free) (s.row step n) := by
  simp only [Shape.row, yields_bind]
  intro q hq
  exact Sequence.combine_yields (hs.iterTranslate _ _ q hq) _

theorem ofCore (nx ny nz : Int) (side inset : Single) :
    Yields (Built free) (core [nx, ny, nz] side inset) := by
  simp only [core, yields_bind]
  intro v hv
  rw [mapM_eq_ok] at hv
  have h3 : v.length = 3 := hv.length_eq.symm
  exact translates (.cuboid (isVector_of_length h3)) _

theorem ofBeveledCubeBlock (nx ny nz : Int) (side bevel gap : Scalar) :
    Yields (Built free) (beveledCubeBlock nx ny nz side bevel gap) := by
  simp only [beveledCubeBlock, yields_bind]
  intro _ _ _ _ _ _ box hbox cell hcell line hline sheet hsheet lattice hlattice c hc
  have cell : Built free cell := .translate (ofBeveledBox _ _ box hbox) hcell
  have line := cell.row _ _ line hline
  have sheet := line.row _ _ sheet hsheet
  have lattice := sheet.row _ _ lattice hlattice
  exact lattice.extend (by simpa using ofCore _ _ _ _ _ c hc) _

theorem ofRoundedCube (side : Scalar) : Yields (Built free) (roundedCube side) := by
  simp only [roundedCube, yields_bind]
  intro _ _ c hc
  exact (Built.translate (.cube _) hc).extend (by simp [Built.sphere]) _

theorem ofTurnedBox (extents offset : List Double) (angles : List Int) :
    Yields (Built free) (turnedBox extents offset angles) := by
  simp only [turnedBox, yields_bind]
  intro box hbox moved hmoved
  exact rotates (.translate (ofCuboid _ box hbox) hmoved) _

theorem ofTruncatedOctahedron (edge : Scalar) :
    Yields (Built free) (truncatedOctahedron edge) := by
  simp only [truncatedOctahedron, yields_bind]
  intro _ _ a ha b hb c hc
  exact combines (by simp [ofTurnedBox _ _ _ a ha, ofTurnedBox _ _ _ b hb,
    ofTurnedBox _ _ _ c hc]) .hull

theorem ofCentredCube (edge : Scalar) : Yields (Built free) (centredCube edge) := by
  simp only [centredCube, yields_bind]
  intro _ _ c hc
  exact translates (ofCube _ c hc) _

theorem invert {s : Shape} (hs : Built free s) (edge : Scalar) :
    Yields (Built free) (s.invert edge) := by
  simp only [Shape.invert, yields_bind]
  intro c hc
  exact (ofCentredCube edge c hc).difference hs

end Shape.Built

namespace Demo

theorem Puzzle.turned_built {s : Shape} (hs : Built free s) (step : List Int) (n : Int) :
    Yields (Built free) (turned s step n) := by
  simp only [turned, yields_bind]
  intro q hq
  exact Sequence.combine_yields (hs.iterRotate _ _ q hq) _

theorem Puzzle.frame_built (e s : Scalar) : Yields (Built free) (frame e s) := by
  simp only [frame, yields_bind]
  intro bar hbar _ _ _ _ _ _ _ _ moved hmoved four hfour eight height
  have bar : Built free bar := Built.ofBeveledBox _ _ bar hbar
  have four := turned_built (.translate bar hmoved) _ _ four hfour
  exact turned_built (turned_built four _ _ eight height) _ _

theorem Puzzle.tetra_built (e s : Scalar) : Yields (Built free) (tetra e s) := by
  simp only [tetra, yields_bind]
  intro _ _ _ _ _ _ rod hrod _ _ _ _ _ _ _ _ placed hplaced both hboth
  have placed : Built free placed := .translate (Built.ofBox _ _ _ rod hrod) hplaced
  exact (placed.addMap (placed.rotates _) both hboth).hull

theorem Puzzle.piece_built (e s : Scalar) : Yields (Built free) (piece e s) := by
  simp only [piece, yields_bind]
  intro frame hframe tetra htetra moved hmoved
  have moved : Built free moved := .translate (tetra_built e s tetra htetra) hmoved
  exact (frame_built e s frame hframe).extend (by simpa using moved) _

theorem racetrack_built (r : Scalar) : Yields (Built free) (racetrack r) := by
  simp only [racetrack, yields_bind]
  intro _ _ round hround _ _ _ _ moved hmoved q hq
  have moved : Built free moved := .translate (Built.ofCircle _ round hround) hmoved
  exact Sequence.combine_yields (moved.iterRotateEqual _ q hq) _

theorem Composition.all_built : ∀ d ∈ Composition.all, Yields (Built free) d.2 := by
  have hsquare : Yields (Built free) squareNine := Built.ofSquare _
  have hcircle : Yields (Built free) circleFive := Built.ofCircle _
  simp only [Composition.all, List.forall_mem_cons, union, difference, intersection, hull,
    minkowski, rosette, group, yields_bind]
  refine ⟨?_, ?_, ?_, ?_, ?_, ?_, ?_, by simp⟩
  · intro s hs c hc
    exact (hsquare s hs).extend (by simpa using hcircle c hc) _
  · intro s hs c hc
    exact (hsquare s hs).difference (hcircle c hc)
  · intro s hs c hc
    exact (Built.ofCube _ s hs).extend (by simpa using Built.ofSphere _ c hc) _
  · intro c hc m hm u hu
    have c : Built free c := Built.ofCircle _ c hc
    exact (c.extend (by simpa using c.translates _ m hm) _ u hu).hull
  · intro s hs c hc
    exact (hsquare s hs).extend (by simpa using Built.ofCircle _ c hc) _
  · intro s hs q hq u hu
    have u : Built free u :=
      Sequence.combine_yields ((hsquare s hs).iterRotate _ _ q hq) _ u hu
    exact u.addMap fun _ h => .mirror u h
  · intro c hc s hs s' hs' d hd d' hd'
    have s' : Built free s' := .translate (Built.ofSphere _ s hs) hs'
    have d' : Built free d' := .translate (Built.ofCube _ d hd) hd'
    exact Built.combines (by simp [Built.ofCube _ c hc, s', d']) _

theorem Transform.all_built : ∀ d ∈ Transform.all, Yields (Built free) d.2 := by
  simp only [Transform.all, List.forall_mem_cons, translation, rotation, mirror, color, extrude,
    lathe, yields_bind]
  refine ⟨?_, ?_, ?_, ?_, ?_, ?_, by simp⟩
  · intro s hs m hm
    have s : Built free s := Built.ofSquare _ s hs
    exact s.extend (by simpa using s.translates _ m hm) _
  · intro c hc s hs
    exact (Built.scale (Built.ofCube _ c hc) hs).rotates _
  · intro c hc m hm
    have m : Built free m := .translate (Built.ofCircle _ c hc) hm
    exact m.addMap fun _ h => .mirror m h
  · intro c hc s hs d hd t ht
    exact .color ((Built.ofCube _ c hc).difference (Built.ofSpheroid _ s hs) d hd) ht
  · intro s hs q hq u hu t ht
    have s : Built free s := Built.ofSquare _ s hs
    exact .linearExtrude (Sequence.combine_yields (s.iterRotateEqual _ q hq) _ u hu) ht
  · intro c hc m hm t ht
    exact .rotateExtrude (.translate (Built.ofCircle _ c hc) hm) ht

end Demo
end SolidScript
