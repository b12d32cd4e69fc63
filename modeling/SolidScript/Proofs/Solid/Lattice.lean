import Mathlib.Data.List.ProdSigma
import SolidScript.Proofs.Sequence
import SolidScript.Proofs.Shape.EqualTurns
import SolidScript.Proofs.Shape.Moved
import SolidScript.Script.Argument
import SolidScript.Script.Function

/-!
# The lattice of a block

A block of bevelled boxes is a union of unions of unions, each of which is moved as a whole. What
stands in it is told by its hulls, each with the operations around it: there is one for each cell of
the lattice, under three moves.
-/

set_option autoImplicit false

namespace SolidScript
open Binary

def index (i : Nat) : Single := (Number.ofInt i : Double).convert

theorem narrow_index {i : Nat} (h : (i : Int) < Sequence.lengthLimit) :
    (Scalar.whole i).narrow = .ok (index i) := by
  have hfinite : (Number.ofInt i : Double).isFinite = true := by
    apply FullTurn.isFinite_ofInt
    have : Sequence.lengthLimit = 2 ^ 63 := by decide
    omega
  rw [Scalar.narrow, Scalar.wholeToDouble, if_pos hfinite]
  rfl

namespace Shape

def rowCopies (s : Shape) (step : Coordinates) (n : Int) : Sequence Shape :=
  ⟨n, fun i => do s.translate (.vector (step.scale (← i.narrow)))⟩

variable {s : Shape} {step : Coordinates}

theorem row_eq_combine (h : Fits s.dim step) (n : Int) :
    s.row step n = (s.rowCopies step n).combine .union := by
  rw [row, iterTranslate, coordinates_vector h, ok_bind]
  rfl

theorem row_eq {n : Nat} (copy : Nat → Shape) (hfits : Fits s.dim step)
    (hn : (n : Int) < Sequence.lengthLimit)
    (hcopy : ∀ i, s.translate (.vector (step.scale (index i))) = .ok (copy i))
    (hdim : ∀ i, (copy i).dim ≠ some .plane) :
    s.row step n = .ok (combination .union ((List.range n).map copy)) := by
  have hcopies : (List.range n).mapM (fun i : Nat => (s.rowCopies step n).element (.whole i)) =
      .ok ((List.range n).map copy) := by
    rw [mapM_eq_ok, List.forall₂_map_right_iff, List.forall₂_same]
    intro i hi
    have hnarrow : (Index.whole i).narrow = .ok (index i) := by
      apply narrow_index
      rw [List.mem_range] at hi
      omega
    change (do s.translate (.vector (step.scale (← (Index.whole i).narrow)))) = _
    rw [hnarrow, ok_bind, hcopy]
  have hlist : (s.rowCopies step n).toList = (s.rowCopies step n).items :=
    Sequence.toList_of_bounds (Int.natCast_nonneg n) hn
  rw [row_eq_combine hfits, Sequence.combine, hlist, Sequence.items_eq]
  change (List.range n).mapM _ >>= _ = _
  rw [hcopies, ok_bind]
  exact combine_solids rfl (by simpa using fun i _ => hdim i)

theorem row_of_neg {n : Int} (hfits : Fits s.dim step) (hn : n < 0) :
    s.row step n = .error .negativeLength := by
  have hlength : (s.rowCopies step n).length = .error .negativeLength := if_pos hn
  rw [row_eq_combine hfits, Sequence.combine, Sequence.toList, hlength]
  rfl

end Shape

/-! The parts of a block -/

/-- The numbers that the boxes of a block are made with. -/
structure Block where
  side : Single
  bevel : Single
  gap : Single

namespace Block
open Shape

section
variable (B : Block)

def inset : Single := B.gap + B.bevel

def edge : Single := B.side - two * B.gap

def face : Single := B.edge - B.bevel * two

def cuboids : List Shape :=
  let o : Single := .zero false
  [(cuboid [B.edge, B.face, B.face]).moved [o, B.bevel, B.bevel],
    (cuboid [B.face, B.face, B.edge]).moved [B.bevel, B.bevel, o],
    (cuboid [B.face, B.edge, B.face]).moved [B.bevel, o, B.bevel]]

def box : Shape := combination .hull B.cuboids

def column (i : Nat) : Coordinates :=
  [B.gap + B.side * index i, B.gap + .zero false * index i, B.gap + .zero false * index i]

def row (j : Nat) : Coordinates := [.zero false * index j, B.side * index j, .zero false * index j]

def sheet (k : Nat) : Coordinates :=
  [.zero false * index k, .zero false * index k, B.side * index k]

def boxes (nx : Nat) : Shape :=
  combination .union ((List.range nx).map fun i => B.box.moved (B.column i))

def rows (nx ny : Nat) : Shape :=
  combination .union ((List.range ny).map fun j => (B.boxes nx).moved (B.row j))

def sheets (nx ny nz : Nat) : List Shape :=
  (List.range nz).map fun k => (B.rows nx ny).moved (B.sheet k)

def coreExtent (n : Nat) : Single := B.side * index n - two * B.inset

def core (nx ny nz : Nat) : Shape :=
  (cuboid [B.coreExtent nx, B.coreExtent ny, B.coreExtent nz]).moved [B.inset, B.inset, B.inset]

def shape (nx ny nz : Nat) : Shape :=
  combination .union (B.sheets nx ny nz ++ [B.core nx ny nz])

/-! No part is of the plane -/

theorem dim_combination {k : Kind} {ss : List Shape} (h : ∀ s ∈ ss, s.dim ≠ some .plane) :
    (combination k ss).dim ≠ some .plane := by
  rw [dim, firstDim_eq_findSome?, ne_eq]
  intro hd
  obtain ⟨s, hs, hd⟩ := List.exists_of_findSome?_eq_some hd
  exact h s hs hd

theorem dim_box : B.box.dim ≠ some .plane := dim_combination (by simp [cuboids, dim])

theorem dim_boxes (nx : Nat) : (B.boxes nx).dim ≠ some .plane :=
  dim_combination (by simpa using fun _ _ => B.dim_box)

theorem dim_rows (nx ny : Nat) : (B.rows nx ny).dim ≠ some .plane :=
  dim_combination (by simpa using fun _ _ => B.dim_boxes nx)

theorem dim_sheets (nx ny nz : Nat) : ∀ s ∈ B.sheets nx ny nz, s.dim ≠ some .plane := by
  simpa [sheets] using fun _ _ => B.dim_rows nx ny

theorem dim_core (nx ny nz : Nat) : (B.core nx ny nz).dim = some .space := by simp [core, dim]

/-! The calls that build a block -/

theorem fits_of_ne_plane {s : Shape} (h : s.dim ≠ some .plane) (x y z : Single) :
    Fits s.dim [x, y, z] := by
  rintro (_ | _) hd
  · exact absurd hd h
  · rfl

theorem cuboid_translate (xs : Coordinates) (x y z : Single) :
    (cuboid xs).translate (.vector [x, y, z]) = .ok ((cuboid xs).moved [x, y, z]) := rfl

theorem beveledBox_eq :
    beveledBox (.vector [B.edge, B.edge, B.edge]) (.single B.bevel) = .ok B.box := by
  have hread : (Nested.vector [B.edge, B.edge, B.edge]).toVector (some 3) =
      .ok [B.edge, B.edge, B.edge] := Nested.toVector_vector (by simp)
  have hbevel : (Scalar.single B.bevel).narrow = .ok B.bevel := rfl
  rw [beveledBox, hread, ok_bind]
  simp only [hbevel, ok_bind, cuboid_translate]
  exact combine_solids rfl (by simp [dim])

def firstBox : Shape := B.box.moved [B.gap, B.gap, B.gap]

theorem box_translate : B.box.translate (.vector [B.gap, B.gap, B.gap]) = .ok B.firstBox :=
  translate_of_coordinates (by simp [box]) (coordinates_vector (fits_of_ne_plane B.dim_box _ _ _))

theorem dim_firstBox : B.firstBox.dim ≠ some .plane := by
  simpa only [firstBox, dim_moved] using B.dim_box

theorem row_firstBox {nx : Nat} (h : (nx : Int) < Sequence.lengthLimit) :
    B.firstBox.row [B.side, .zero false, .zero false] nx = .ok (B.boxes nx) := by
  apply row_eq (fun i => B.box.moved (B.column i)) (fits_of_ne_plane B.dim_firstBox _ _ _) h
  · intro i
    have hsum : List.zipWith (· + ·) [B.gap, B.gap, B.gap]
        (Coordinates.scale [B.side, .zero false, .zero false] (index i)) = B.column i := by
      simp only [Coordinates.scale, column, List.map_cons, List.map_nil, List.zipWith_cons_cons,
        List.zipWith_nil_left]
    rw [← hsum]
    exact moved_translate ((fits_of_ne_plane B.dim_box _ _ _).scale _) (by simp [Coordinates.scale])
  · simpa only [dim_moved] using fun _ => B.dim_box

theorem row_boxes (nx : Nat) {ny : Nat} (h : (ny : Int) < Sequence.lengthLimit) :
    (B.boxes nx).row [.zero false, B.side, .zero false] ny = .ok (B.rows nx ny) := by
  have hfits := fits_of_ne_plane (B.dim_boxes nx)
  apply row_eq (fun j => (B.boxes nx).moved (B.row j)) (hfits _ _ _) h
  · intro j
    exact translate_of_coordinates (by simp [boxes]) (coordinates_vector (hfits _ _ _))
  · simpa only [dim_moved] using fun _ => B.dim_boxes nx

theorem row_rows (nx ny : Nat) {nz : Nat} (h : (nz : Int) < Sequence.lengthLimit) :
    (B.rows nx ny).row [.zero false, .zero false, B.side] nz =
      .ok (combination .union (B.sheets nx ny nz)) := by
  have hfits := fits_of_ne_plane (B.dim_rows nx ny)
  apply row_eq (fun k => (B.rows nx ny).moved (B.sheet k)) (hfits _ _ _) h
  · intro k
    exact translate_of_coordinates (by simp [rows]) (coordinates_vector (hfits _ _ _))
  · simpa only [dim_moved] using fun _ => B.dim_rows nx ny

end

variable {B : Block} {nx ny nz : Nat}

theorem core_eq (hx : (nx : Int) < Sequence.lengthLimit) (hy : (ny : Int) < Sequence.lengthLimit)
    (hz : (nz : Int) < Sequence.lengthLimit) :
    Shape.core [nx, ny, nz] B.side B.inset = .ok (B.core nx ny nz) := by
  simp only [Shape.core, List.mapM_cons, List.mapM_nil, narrow_index hx, narrow_index hy,
    narrow_index hz, ok_bind, pure_bind, cuboid_translate]
  rfl

section
variable {side bevel gap : Scalar} (hside : side.narrow = .ok B.side)
  (hbevel : bevel.narrow = .ok B.bevel) (hgap : gap.narrow = .ok B.gap)
include hside hbevel hgap

theorem beveledCubeBlock_eq_rows (nx ny nz : Int) :
    beveledCubeBlock nx ny nz side bevel gap = (do
      let boxes ← B.firstBox.row [B.side, .zero false, .zero false] nx
      let rows ← boxes.row [.zero false, B.side, .zero false] ny
      let lattice ← rows.row [.zero false, .zero false, B.side] nz
      lattice.union [← Shape.core [nx, ny, nz] B.side B.inset]) := by
  rw [beveledCubeBlock, hside, ok_bind, hbevel, ok_bind, hgap, ok_bind]
  change (do
    let cell ← (← beveledBox (.vector [B.edge, B.edge, B.edge]) (.single B.bevel)).translate
      (.vector [B.gap, B.gap, B.gap])
    let boxes ← cell.row _ nx
    let rows ← boxes.row _ ny
    let lattice ← rows.row _ nz
    lattice.union [← Shape.core [nx, ny, nz] B.side B.inset]) = _
  rw [B.beveledBox_eq, ok_bind, B.box_translate, ok_bind]

theorem beveledCubeBlock_eq (hx : (nx : Int) < Sequence.lengthLimit)
    (hy : (ny : Int) < Sequence.lengthLimit) (hz : (nz : Int) < Sequence.lengthLimit) :
    beveledCubeBlock nx ny nz side bevel gap = .ok (B.shape nx ny nz) := by
  rw [beveledCubeBlock_eq_rows hside hbevel hgap, B.row_firstBox hx, ok_bind, B.row_boxes nx hy,
    ok_bind, B.row_rows nx ny hz, ok_bind, core_eq hx hy hz, ok_bind]
  change combine .union (B.sheets nx ny nz ++ [B.core nx ny nz]) = _
  apply combine_solids rfl
  simpa [or_imp, forall_and, B.dim_core] using B.dim_sheets nx ny nz

theorem beveledCubeBlock_of_neg {nx ny nz : Int} (hx : nx < Sequence.lengthLimit)
    (hy : ny < Sequence.lengthLimit) (hneg : nx < 0 ∨ ny < 0 ∨ nz < 0) :
    beveledCubeBlock nx ny nz side bevel gap = .error .negativeLength := by
  rw [beveledCubeBlock_eq_rows hside hbevel hgap]
  rcases lt_or_ge nx 0 with hx0 | hx0
  · rw [row_of_neg (fits_of_ne_plane B.dim_firstBox _ _ _) hx0]
    rfl
  lift nx to Nat using hx0
  rw [B.row_firstBox hx, ok_bind]
  rcases lt_or_ge ny 0 with hy0 | hy0
  · rw [row_of_neg (fits_of_ne_plane (B.dim_boxes nx) _ _ _) hy0]
    rfl
  lift ny to Nat using hy0
  have hz0 : nz < 0 := by omega
  rw [B.row_boxes nx hy, ok_bind, row_of_neg (fits_of_ne_plane (B.dim_rows nx ny) _ _ _) hz0]
  rfl

end

end Block

/-! The hulls of a block -/

namespace Shape

mutual

/-- The hulls in a shape in order, each with the operations around it, the outermost first. -/
def hulls : Shape → List (List (Operation × List Parameter) × Shape)
  | operator o ps s => s.hulls.map fun h => ((o, ps) :: h.1, h.2)
  | combination .hull ss => ([], combination .hull ss) :: hullsOf ss
  | combination _ ss => hullsOf ss
  | _ => []

def hullsOf : List Shape → List (List (Operation × List Parameter) × Shape)
  | [] => []
  | s :: ss => s.hulls ++ hullsOf ss

end

theorem hullsOf_eq_flatMap (ss : List Shape) : hullsOf ss = ss.flatMap hulls := by
  induction ss with
  | nil => simp [hullsOf]
  | cons s ss ih => simp [hullsOf, ih]

theorem hulls_moved (s : Shape) (xs : Coordinates) :
    (s.moved xs).hulls = s.hulls.map fun h => ((.translate, [.vector xs]) :: h.1, h.2) := by
  rw [moved, hulls]

theorem hulls_union (ss : List Shape) : (combination .union ss).hulls = ss.flatMap hulls := by
  rw [hulls, hullsOf_eq_flatMap]
  nofun

end Shape

namespace Block
open Shape

variable (B : Block) (nx ny nz : Nat)

theorem hulls_box : B.box.hulls = [([], B.box)] := by
  rw [box, hulls, hullsOf_eq_flatMap]
  simp [cuboids, hulls_moved, hulls]

def moves (k j i : Nat) : List (Operation × List Parameter) :=
  [(.translate, [.vector (B.sheet k)]), (.translate, [.vector (B.row j)]),
    (.translate, [.vector (B.column i)])]

theorem hulls_boxes : (B.boxes nx).hulls =
    (List.range nx).map fun i => ([(.translate, [.vector (B.column i)])], B.box) := by
  rw [boxes, hulls_union, List.flatMap_map, List.map_eq_flatMap]
  simp only [hulls_moved, hulls_box, List.map_cons, List.map_nil]

theorem hulls_rows : (B.rows nx ny).hulls = (List.range ny ×ˢ List.range nx).map fun (j, i) =>
    ([(.translate, [.vector (B.row j)]), (.translate, [.vector (B.column i)])], B.box) := by
  rw [rows, hulls_union, List.flatMap_map]
  simp only [hulls_moved, hulls_boxes, SProd.sprod, List.product, List.map_flatMap, List.map_map,
    Function.comp_def]

theorem hulls_core : (B.core nx ny nz).hulls = [] := by
  rw [core, hulls_moved]
  simp [hulls]

theorem hulls_shape : (B.shape nx ny nz).hulls =
    (List.range nz ×ˢ List.range ny ×ˢ List.range nx).map
      fun (k, j, i) => (B.moves k j i, B.box) := by
  rw [shape, hulls_union, List.flatMap_append, List.flatMap_singleton, hulls_core, List.append_nil,
    sheets, List.flatMap_map]
  simp only [hulls_moved, hulls_rows, SProd.sprod, List.product, List.map_flatMap, List.map_map,
    Function.comp_def, moves]

theorem dim_shape : (B.shape nx ny nz).dim = some .space := by
  rw [shape, dim, firstDim_eq_findSome?, List.findSome?_append]
  cases h : (B.sheets nx ny nz).findSome? dim with
  | none => simp [dim_core]
  | some d =>
    obtain ⟨s, hs, hd⟩ := List.exists_of_findSome?_eq_some h
    cases d with
    | plane => exact absurd hd (B.dim_sheets nx ny nz s hs)
    | space => rfl

end Block

namespace Script
open Shape

variable {c : Context} {nx ny nz : Int} {s b g : Single}

theorem callFunction_block {dims : Item} (side bevel gap : Item)
    (hdims : dims.value.eachOfFirst c 4 (fun d => (d.toScalar c).toInt) = .ok [nx, ny, nz]) :
    callFunction c "beveled_cube_block" [.item dims, .item side, .item bevel, .item gap] =
      Command.made (do
        return .shape (← beveledCubeBlock nx ny nz (side.value.toScalar c)
          (bevel.value.toScalar c) (gap.value.toScalar c))) := by
  change Command.made (cubeBlock c dims.value side.value bevel.value gap.value) = _
  rw [cubeBlock, hdims]
  rfl

/-- A block of bevelled cubes is a union that ends with its core and has one hull for each cell of
the lattice, under a move of its sheet, one of its row and one of its own that took in the gap. -/
theorem block_lattice (dims side bevel gap : Item)
    (hdims : dims.value.eachOfFirst c 4 (fun d => (d.toScalar c).toInt) = .ok [nx, ny, nz])
    (hside : (side.value.toScalar c).narrow = .ok s)
    (hbevel : (bevel.value.toScalar c).narrow = .ok b)
    (hgap : (gap.value.toScalar c).narrow = .ok g) (hx : nx < Sequence.lengthLimit)
    (hy : ny < Sequence.lengthLimit) (hz : nz < Sequence.lengthLimit) :
    let call := callFunction c "beveled_cube_block"
      [.item dims, .item side, .item bevel, .item gap]
    let o : Single := .zero false
    let edge := s - two * g
    let core := (Shape.cuboid ([nx, ny, nz].map fun n => s * index n.toNat - two * (g + b))).moved
      [g + b, g + b, g + b]
    (nx < 0 ∨ ny < 0 ∨ nz < 0 → call = .error .negativeLength) ∧
    (0 ≤ nx ∧ 0 ≤ ny ∧ 0 ≤ nz → ∃ block sheets box,
      call = .ok (.new (.shape block)) ∧ block.dim = some .space ∧
      block = .combination .union (sheets ++ [core]) ∧
      sheets.length = nz ∧ beveledBox (.vector [edge, edge, edge]) (.single b) = .ok box ∧
      block.hulls = (List.range nz.toNat ×ˢ List.range ny.toNat ×ˢ List.range nx.toNat).map
        (fun (k, j, i) => ([
          (.translate, [.vector [o * index k, o * index k, s * index k]]),
          (.translate, [.vector [o * index j, s * index j, o * index j]]),
          (.translate, [.vector [g + s * index i, g + o * index i, g + o * index i]])], box)) ∧
      block.hulls.length = nx * ny * nz) := by
  intro call o edge core
  have hcall : call = _ := callFunction_block side bevel gap hdims
  let B : Block := ⟨s, b, g⟩
  constructor
  · intro hneg
    rw [hcall, Block.beveledCubeBlock_of_neg (B := B) hside hbevel hgap hx hy hneg]
    rfl
  · rintro ⟨hx0, hy0, hz0⟩
    lift nx to Nat using hx0
    lift ny to Nat using hy0
    lift nz to Nat using hz0
    refine ⟨B.shape nx ny nz, B.sheets nx ny nz, B.box, ?_, B.dim_shape nx ny nz, rfl, ?_,
      B.beveledBox_eq, B.hulls_shape nx ny nz, ?_⟩
    · rw [hcall, Block.beveledCubeBlock_eq (B := B) hside hbevel hgap hx hy hz]
      rfl
    · simp [Block.sheets]
    · rw [B.hulls_shape nx ny nz, List.length_map, List.length_product, List.length_product]
      simp only [List.length_range]
      push_cast
      ring

theorem block_lattice_six :
    let c := Context.of #[]
    let dims : Value := .listOf [.whole 2, .whole 3, .whole 1]
    ∃ block, callFunction c "beveled_cube_block" [.item (.new dims), .item (.new (.whole 10)),
        .item (.new (.whole 1)), .item (.new (.whole 0))] = .ok (.new (.shape block)) ∧
      block.dim = some .space ∧ block.hulls.length = 6 := by
  intro c dims
  have hread : dims.eachOfFirst c 4 (fun d => (d.toScalar c).toInt) = .ok [2, 3, 1] := rfl
  have hside : (Scalar.whole 10).narrow = .ok (.ofInt 10) := by decide +kernel
  have hbevel : (Scalar.whole 1).narrow = .ok (.ofInt 1) := by decide +kernel
  have hgap : (Scalar.whole 0).narrow = .ok (.ofInt 0) := by decide +kernel
  obtain ⟨-, hlattice⟩ := block_lattice (.new dims) (.new (.whole 10)) (.new (.whole 1))
    (.new (.whole 0)) hread hside hbevel hgap (by decide) (by decide) (by decide)
  obtain ⟨block, sheets, box, hcall, hdim, -, -, -, -, hlength⟩ := hlattice (by decide)
  exact ⟨block, hcall, hdim, by omega⟩

end Script
end SolidScript
