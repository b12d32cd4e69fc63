import SolidScript.Proofs.Binary.Real
import SolidScript.Proofs.Shape.Meaning
import SolidScript.Proofs.Solid.Lattice
import SolidScript.Proofs.Solid.Space

/-!
# A block is one piece

Read as a set of points, a block of bevelled boxes is joined by its core: the boxes keep apart from
one another by the gap, and each holds a box that lies in the core. This is said of numbers that are
computed without rounding.
-/

set_option autoImplicit false

namespace SolidScript
open Binary Shape
open scoped Pointwise

noncomputable def point? : Coordinates → Option Point
  | [x, y, z] => do return ![← x.toReal?, ← y.toReal?, ← z.toReal?]
  | _ => none

theorem point?_eq {x y z : Single} {a b c : ℝ} (hx : x.toReal? = some a) (hy : y.toReal? = some b)
    (hz : z.toReal? = some c) : point? [x, y, z] = some ![a, b, c] := by
  rw [point?, hx, hy, hz]
  rfl

def Shape.within (above : List (Operation × List Parameter)) (s : Shape) : Shape :=
  above.foldr (fun h s => operator h.1 h.2 s) s

/-! Solids as sets of points -/

/-- A reading of shapes as sets of points of space. A cuboid reaches from the origin to its extents,
a move adds its offset, and a hull is convex. -/
structure Interpretation.IsSolid (I : Interpretation Point) : Prop where
  cuboid : ∀ {xs v}, point? xs = some v → I.primitive (.cuboid xs) = Set.Icc 0 v
  translate : ∀ {xs v} A, point? xs = some v →
    I.operation .translate [.vector xs] A = (v + ·) '' A
  hull : ∀ A, I.hull A = convexHull ℝ A

namespace Interpretation

noncomputable def solid : Interpretation Point where
  primitive
    | .cuboid xs => (point? xs).elim ∅ (Set.Icc 0 ·)
    | _ => ∅
  operation
    | .translate, [.vector xs], A => (point? xs).elim A fun v => (v + ·) '' A
    | _, _, A => A
  hull := convexHull ℝ

theorem isSolid_solid : solid.IsSolid where
  cuboid h := by simp [solid, h]
  translate A h := by simp [solid, h]
  hull A := rfl

def Moves (I : Interpretation Point) (above : List (Operation × List Parameter)) (v : Point) :
    Prop := ∀ s, I.denote (s.within above) = (v + ·) '' I.denote s

variable {I : Interpretation Point} {xs ys : Coordinates} {v w p : Point} {ss : List Shape}
  {above : List (Operation × List Parameter)}

theorem mem_union : p ∈ I.denote (.combination .union ss) ↔ ∃ s ∈ ss, p ∈ I.denote s := by
  rw [I.denote_combination, join]
  simp

theorem moves_nil : I.Moves [] 0 := fun s => by simp [within]

theorem Moves.mem_union (h : I.Moves above v) :
    p ∈ I.denote ((combination .union ss).within above) ↔
      ∃ s ∈ ss, p ∈ I.denote (s.within above) := by
  rw [h]
  simp only [Set.mem_image, Interpretation.mem_union, h _]
  grind

variable (hI : I.IsSolid)
include hI

theorem IsSolid.moves_cons (hx : point? xs = some w) (h : I.Moves above v) :
    I.Moves ((.translate, [.vector xs]) :: above) (w + v) := by
  intro s
  change I.denote (operator .translate [.vector xs] (s.within above)) = _
  rw [I.denote_operator, hI.translate _ hx, h, Set.image_image]
  simp only [add_assoc]

theorem IsSolid.denote_cuboid (hx : point? xs = some v) (hy : point? ys = some w) :
    I.denote ((Shape.cuboid xs).moved ys) = Set.Icc w (w + v) := by
  have hcuboid : I.denote (.cuboid xs) = Set.Icc 0 v := by
    rw [denote, hI.cuboid hx] <;> simp
  rw [moved, I.denote_operator, hI.translate _ hy, hcuboid, Set.image_const_add_Icc, add_zero]

theorem IsSolid.denote_hull (h : I.Moves above v) :
    I.denote ((combination .hull ss).within above) =
      convexHull ℝ {p | ∃ s ∈ ss, p ∈ I.denote (s.within above)} := by
  have hparts : {p | ∃ s ∈ ss, p ∈ I.denote (s.within above)} =
      v +ᵥ {p | ∃ s ∈ ss, p ∈ I.denote s} := by
    ext p
    simp only [h _, Set.mem_ofPred_eq, Set.mem_vadd_set, Set.mem_image, vadd_eq_add]
    grind
  have hhull : I.denote (combination .hull ss) = convexHull ℝ {p | ∃ s ∈ ss, p ∈ I.denote s} := by
    rw [I.denote_combination, join, hI.hull]
    simp
  rw [h, hparts, convexHull_vadd, hhull]
  rfl

end Interpretation

/-! Numbers without rounding -/

theorem toReal?_two : two.toReal? = some (2 : ℝ) := by
  have hwhole : two.IsWhole 2 := Number.isWhole_ofInt Format.wide_single (by decide)
  exact_mod_cast hwhole.toReal?

namespace Block

/-- Whether no operation rounds when a block is made from three numbers. -/
structure IsExact (B : Block) (S b g : ℝ) (nx ny nz : Nat) : Prop where
  side : B.side.toReal? = some S
  bevel : B.bevel.toReal? = some b
  gap : B.gap.toReal? = some g
  gaps : Exactly (· * ·) two B.gap (two * B.gap)
  edge : Exactly (· - ·) B.side (two * B.gap) B.edge
  bevels : Exactly (· * ·) B.bevel two (B.bevel * two)
  face : Exactly (· - ·) B.edge (B.bevel * two) B.face
  inset : Exactly (· + ·) B.gap B.bevel B.inset
  insets : Exactly (· * ·) two B.inset (two * B.inset)
  whole : ∀ n ∈ [nx, ny, nz], ∀ i ≤ n, (index i).toReal? = some (i : ℝ)
  multiple : ∀ n ∈ [nx, ny, nz], ∀ i ≤ n, Exactly (· * ·) B.side (index i) (B.side * index i)
  offset : ∀ i < nx, Exactly (· + ·) B.gap (B.side * index i) (B.gap + B.side * index i)
  extent : ∀ n ∈ [nx, ny, nz],
    Exactly (· - ·) (B.side * index n) (two * B.inset) (B.coreExtent n)

section
variable {B : Block} {S b g : ℝ} {nx ny nz i j k n : Nat} (h : B.IsExact S b g nx ny nz)
include h

namespace IsExact

theorem count_lt (hn : n ∈ [nx, ny, nz]) : (n : Int) < Sequence.lengthLimit := by
  by_contra hlimit
  have hlimit' : Sequence.lengthLimit = 2 ^ 63 := by decide
  have hvalue := h.whole n hn (2 ^ 24 + 1) (by omega)
  have hrounded : index (2 ^ 24 + 1) = .ofInt (2 ^ 24) := by decide +kernel
  have hwhole : (Number.ofInt (2 ^ 24) : Single).IsWhole (2 ^ 24) :=
    Number.isWhole_ofInt Format.wide_single (by decide)
  rw [hrounded, hwhole.toReal?] at hvalue
  have := Option.some.inj hvalue
  norm_num at this

theorem value_edge : B.edge.toReal? = some (S - 2 * g) :=
  h.edge.value h.side (h.gaps.value toReal?_two h.gap)

theorem value_face : B.face.toReal? = some (S - 2 * g - b * 2) :=
  h.face.value h.value_edge (h.bevels.value h.bevel toReal?_two)

theorem value_inset : B.inset.toReal? = some (g + b) := h.inset.value h.gap h.bevel

theorem value_multiple (hn : n ∈ [nx, ny, nz]) (hi : i ≤ n) :
    (B.side * index i).toReal? = some (S * i) :=
  (h.multiple n hn i hi).value h.side (h.whole n hn i hi)

theorem value_zero (hn : n ∈ [nx, ny, nz]) (hi : i ≤ n) :
    (.zero false * index i : Single).toReal? = some 0 :=
  Number.toReal?_zero_mul false (h.whole n hn i hi)

theorem value_extent (hn : n ∈ [nx, ny, nz]) :
    (B.coreExtent n).toReal? = some (S * n - 2 * (g + b)) :=
  (h.extent n hn).value (h.value_multiple hn le_rfl) (h.insets.value toReal?_two h.value_inset)

theorem point_column (hi : i < nx) : point? (B.column i) = some ![g + S * i, g, g] := by
  have hzero := Number.toReal?_add_zero h.gap (h.value_zero (n := nx) (by simp) hi.le)
  exact point?_eq ((h.offset i hi).value h.gap (h.value_multiple (n := nx) (by simp) hi.le))
    hzero hzero

theorem point_row (hj : j < ny) : point? (B.row j) = some ![0, S * j, 0] := by
  have hzero := h.value_zero (n := ny) (by simp) hj.le
  exact point?_eq hzero (h.value_multiple (n := ny) (by simp) hj.le) hzero

theorem point_sheet (hk : k < nz) : point? (B.sheet k) = some ![0, 0, S * k] := by
  have hzero := h.value_zero (n := nz) (by simp) hk.le
  exact point?_eq hzero hzero (h.value_multiple (n := nz) (by simp) hk.le)

end IsExact

/-! The parts of a block as sets -/

variable {I : Interpretation Point} (hI : I.IsSolid) {cell : Cell}
  (hcell : ∀ d, cell d < (![nx, ny, nz] : Cell) d)
include hI

theorem denote_core : I.denote (B.core nx ny nz) = blockBox S (g + b) ![nx, ny, nz] := by
  rw [core, hI.denote_cuboid
    (point?_eq (h.value_extent (by simp)) (h.value_extent (by simp)) (h.value_extent (by simp)))
    (point?_eq h.value_inset h.value_inset h.value_inset)]
  refine congrArg₂ Set.Icc ?_ ?_ <;> ext d <;> fin_cases d <;> simp [blockUpper] <;> ring

include hcell

theorem moves_cell : I.Moves (B.moves (cell 2) (cell 1) (cell 0)) (lower S g cell) := by
  have hmoves := hI.moves_cons (h.point_sheet (hcell 2)) (hI.moves_cons (h.point_row (hcell 1))
    (hI.moves_cons (h.point_column (hcell 0)) Interpretation.moves_nil))
  have hcorner : ![0, 0, S * cell 2] + (![0, S * cell 1, 0] + (![g + S * cell 0, g, g] + 0)) =
      lower S g cell := by
    ext d
    fin_cases d <;> simp [lower] <;> ring
  rwa [hcorner] at hmoves

theorem denote_cuboids :
    B.cuboids.map (fun s => I.denote (s.within (B.moves (cell 2) (cell 1) (cell 0)))) =
      [0, 2, 1].map (bar S g (g + b) cell) := by
  have hzero : (Number.zero false : Single).toReal? = some 0 := Number.toReal?_zero false
  simp only [cuboids, List.map_cons, List.map_nil, moves_cell h hI hcell _,
    hI.denote_cuboid (point?_eq h.value_edge h.value_face h.value_face)
      (point?_eq hzero h.bevel h.bevel),
    hI.denote_cuboid (point?_eq h.value_face h.value_face h.value_edge)
      (point?_eq h.bevel h.bevel hzero),
    hI.denote_cuboid (point?_eq h.value_face h.value_edge h.value_face)
      (point?_eq h.bevel hzero h.bevel), Set.image_const_add_Icc, List.cons.injEq, and_true]
  refine ⟨Icc_eq_bar ?_ ?_, Icc_eq_bar ?_ ?_, Icc_eq_bar ?_ ?_⟩ <;> intro d <;> fin_cases d <;>
    simp [lower, upper] <;> ring

theorem exists_bar {s : Shape} (hs : s ∈ B.cuboids) :
    ∃ axis, I.denote (s.within (B.moves (cell 2) (cell 1) (cell 0))) =
      bar S g (g + b) cell axis := by
  have hmem : I.denote (s.within (B.moves (cell 2) (cell 1) (cell 0))) ∈
      B.cuboids.map fun s => I.denote (s.within (B.moves (cell 2) (cell 1) (cell 0))) :=
    List.mem_map_of_mem hs
  rw [denote_cuboids h hI hcell] at hmem
  obtain ⟨axis, -, haxis⟩ := List.mem_map.1 hmem
  exact ⟨axis, haxis.symm⟩

theorem parts_eq_bars :
    {p | ∃ s ∈ B.cuboids, p ∈ I.denote (s.within (B.moves (cell 2) (cell 1) (cell 0)))} =
      {p | ∃ axis, p ∈ bar S g (g + b) cell axis} := by
  ext p
  have hsets := congrArg (fun sets : List (Set Point) => ∃ A ∈ sets, p ∈ A)
    (denote_cuboids h hI hcell)
  simp only [List.mem_map, exists_exists_and_eq_and] at hsets
  rw [Set.mem_ofPred_eq, hsets, Set.mem_ofPred_eq]
  simp [Fin.exists_fin_succ, or_comm]

theorem denote_box : I.denote (B.box.within (B.moves (cell 2) (cell 1) (cell 0))) =
    convexHull ℝ {p | ∃ axis, p ∈ bar S g (g + b) cell axis} := by
  rw [box, hI.denote_hull (moves_cell h hI hcell), parts_eq_bars h hI hcell]

omit hcell

theorem denote_sheets : I.denote (combination .union (B.sheets nx ny nz)) =
    {p | ∃ cell : Cell, (∀ d, cell d < (![nx, ny, nz] : Cell) d) ∧
      p ∈ I.denote (B.box.within (B.moves (cell 2) (cell 1) (cell 0)))} := by
  have hsheet : ∀ k < nz, ∀ p, p ∈ I.denote ((B.rows nx ny).moved (B.sheet k)) ↔
      ∃ j < ny, ∃ i < nx, p ∈ I.denote (B.box.within (B.moves k j i)) := by
    intro k hk p
    have hsheetMoves := hI.moves_cons (h.point_sheet hk) Interpretation.moves_nil
    change p ∈ I.denote ((B.rows nx ny).within [(.translate, [.vector (B.sheet k)])]) ↔ _
    rw [rows, hsheetMoves.mem_union]
    simp only [List.mem_map, List.mem_range, exists_exists_and_eq_and]
    refine exists_congr fun j => and_congr_right fun hj => ?_
    have hrowMoves := hI.moves_cons (h.point_sheet hk)
      (hI.moves_cons (h.point_row hj) Interpretation.moves_nil)
    change p ∈ I.denote ((B.boxes nx).within
      [(.translate, [.vector (B.sheet k)]), (.translate, [.vector (B.row j)])]) ↔ _
    rw [boxes, hrowMoves.mem_union]
    simp only [List.mem_map, List.mem_range, exists_exists_and_eq_and]
    rfl
  ext p
  rw [Interpretation.mem_union, Set.mem_ofPred_eq]
  simp only [sheets, List.mem_map, List.mem_range, exists_exists_and_eq_and]
  constructor
  · rintro ⟨k, hk, hp⟩
    obtain ⟨j, hj, i, hi, hp⟩ := (hsheet k hk p).1 hp
    exact ⟨![i, j, k], by simp [Fin.forall_fin_succ, hi, hj, hk], hp⟩
  · rintro ⟨cell, hcell, hp⟩
    exact ⟨cell 2, hcell 2, (hsheet _ (hcell 2) p).2 ⟨_, hcell 1, _, hcell 0, hp⟩⟩

omit h hI in
theorem denote_shape : I.denote (B.shape nx ny nz) =
    I.denote (combination .union (B.sheets nx ny nz)) ∪ I.denote (B.core nx ny nz) := by
  ext p
  simp only [shape, Interpretation.mem_union, Set.mem_union, List.mem_append, List.mem_singleton,
    or_and_right, exists_or, exists_eq_left]

/-! What holds the parts together -/

variable (hb : 0 ≤ b) (hg : 0 ≤ g) (hwide : 2 * (g + b) ≤ S)
include hb hwide

theorem isBoundingBox_box (hcell : ∀ d, cell d < (![nx, ny, nz] : Cell) d) :
    IsBoundingBox (lower S g cell) (upper S g cell)
      (I.denote (B.box.within (B.moves (cell 2) (cell 1) (cell 0)))) := by
  rw [denote_box h hI hcell]
  exact (isBoundingBox_bars (by linarith) hwide).convexHull

include hg

theorem box_inter_core (hcell : ∀ d, cell d < (![nx, ny, nz] : Cell) d) :
    cellBox S (g + b) cell ⊆
      I.denote (B.box.within (B.moves (cell 2) (cell 1) (cell 0))) ∩
        I.denote (B.core nx ny nz) := by
  apply Set.subset_inter
  · rw [denote_box h hI hcell]
    exact fun p hp => subset_convexHull ℝ _ ⟨0, cellBox_subset_bar (by linarith) hp⟩
  · rw [denote_core h hI]
    exact cellBox_subset_blockBox (by linarith) hcell

theorem isConnected_shape (hcounts : ∀ d, 0 < (![nx, ny, nz] : Cell) d) :
    IsConnected (I.denote (B.shape nx ny nz)) := by
  have hmeet : ∀ cell : Cell, (∀ d, cell d < (![nx, ny, nz] : Cell) d) →
      (I.denote (B.box.within (B.moves (cell 2) (cell 1) (cell 0))) ∩
        I.denote (B.core nx ny nz)).Nonempty :=
    fun cell hcell => (nonempty_cellBox hwide).mono (box_inter_core h hI hb hg hwide hcell)
  rw [denote_shape, denote_sheets h hI]
  apply isConnected_of_meets
  · refine ⟨(hmeet _ hcounts).mono Set.inter_subset_right, ?_⟩
    rw [denote_core h hI]
    exact (convex_Icc _ _).isPreconnected
  · intro cell hcell
    refine ⟨?_, hmeet cell hcell⟩
    rw [denote_box h hI hcell]
    exact (convex_convexHull ℝ _).isPreconnected

end

end Block

namespace Script

variable {c : Context} {I : Interpretation Point} {B : Block} {S b g : ℝ} {nx ny nz : Nat}

/-- A block of bevelled cubes is one connected piece. The cuboids of each box span its cell inside
the gap, and each holds the box inside the bevel, as does the core; the core keeps within the block
and the boxes do not overlap. -/
theorem block_one_piece (dims side bevel gap : Item) (hI : I.IsSolid)
    (hdims : dims.value.eachOfFirst c 4 (fun d => (d.toScalar c).toInt) =
      .ok [(nx : Int), (ny : Int), (nz : Int)])
    (hside : (side.value.toScalar c).narrow = .ok B.side)
    (hbevel : (bevel.value.toScalar c).narrow = .ok B.bevel)
    (hgap : (gap.value.toScalar c).narrow = .ok B.gap) (hexact : B.IsExact S b g nx ny nz)
    (hx : 1 ≤ nx) (hy : 1 ≤ ny) (hz : 1 ≤ nz) (hb : 0 ≤ b) (hg : 0 ≤ g)
    (hwide : 2 * (g + b) < S) :
    let counts : Cell := ![nx, ny, nz]
    let block := B.shape nx ny nz
    let moves := fun cell : Cell => B.moves (cell 2) (cell 1) (cell 0)
    let core := I.denote (B.core nx ny nz)
    callFunction c "beveled_cube_block" [.item dims, .item side, .item bevel, .item gap] =
      .ok (.new (.shape block)) ∧
    (∀ cell : Cell, (∀ d, cell d < counts d) →
      (moves cell, .combination .hull B.cuboids) ∈ block.hulls ∧
      IsBoundingBox (lower S g cell) (upper S g cell)
        {p | ∃ s ∈ B.cuboids, p ∈ I.denote (s.within (moves cell))} ∧
      (∀ d, lower S (g + b) cell d < upper S (g + b) cell d) ∧
      (∀ s ∈ B.cuboids, cellBox S (g + b) cell ⊆ I.denote (s.within (moves cell))) ∧
      cellBox S (g + b) cell ⊆ core) ∧
    (∀ cell cell' : Cell, (∀ d, cell d < counts d) → (∀ d, cell' d < counts d) → cell ≠ cell' →
      Disjoint (interior (I.denote (B.box.within (moves cell))))
        (interior (I.denote (B.box.within (moves cell'))))) ∧
    IsBoundingBox (fun _ => g) (blockUpper S g counts)
      (I.denote (.combination .union (B.sheets nx ny nz))) ∧
    core ⊆ blockBox S g counts ∧
    IsConnected (I.denote block) := by
  intro counts block moves core
  have hcounts : ∀ d, 0 < counts d := by simp [counts, Fin.forall_fin_succ]; omega
  have hfar : g ≤ g + b := by linarith
  have hS : 0 ≤ S := by linarith
  have hcore : core = blockBox S (g + b) counts := Block.denote_core hexact hI
  have hbox : ∀ cell : Cell, (∀ d, cell d < counts d) →
      IsBoundingBox (lower S g cell) (upper S g cell) (I.denote (B.box.within (moves cell))) :=
    fun cell hcell => Block.isBoundingBox_box hexact hI hb hwide.le hcell
  refine ⟨?_, ?_, ?_, ?_, ?_, Block.isConnected_shape hexact hI hb hg hwide.le hcounts⟩
  · rw [callFunction_block side bevel gap hdims, Block.beveledCubeBlock_eq hside hbevel hgap
      (hexact.count_lt (by simp)) (hexact.count_lt (by simp)) (hexact.count_lt (by simp))]
    rfl
  · intro cell hcell
    have hinner := Block.box_inter_core hexact hI hb hg hwide.le hcell
    refine ⟨?_, ?_, lower_lt_upper hwide, ?_, hinner.trans Set.inter_subset_right⟩
    · rw [B.hulls_shape]
      exact List.mem_map.2 ⟨(cell 2, cell 1, cell 0), by
        simpa using ⟨hcell 2, hcell 1, hcell 0⟩, rfl⟩
    · rw [Block.parts_eq_bars hexact hI hcell]
      exact isBoundingBox_bars hfar hwide.le
    · intro s hs
      obtain ⟨axis, haxis⟩ := Block.exists_bar hexact hI hcell hs
      rw [haxis]
      exact cellBox_subset_bar hfar
  · intro cell cell' hcell hcell' hne
    exact disjoint_interior_of_ne hS hg hne (hbox cell hcell).subset (hbox cell' hcell').subset
  · rw [Block.denote_sheets hexact hI]
    exact isBoundingBox_block hS hcounts hbox
  · rw [hcore]
    exact blockBox_subset hfar

theorem block_one_piece_two :
    let c := Context.of #[]
    let dims : Value := .listOf [.whole 2, .whole 1, .whole 1]
    let B : Block := ⟨.ofInt 10, .ofInt 1, .ofInt 1⟩
    let I := Interpretation.solid
    callFunction c "beveled_cube_block" [.item (.new dims), .item (.new (.whole 10)),
        .item (.new (.whole 1)), .item (.new (.whole 1))] = .ok (.new (.shape (B.shape 2 1 1))) ∧
      Disjoint (interior (I.denote (B.box.within (B.moves 0 0 0))))
        (interior (I.denote (B.box.within (B.moves 0 0 1)))) ∧
      IsConnected (I.denote (B.shape 2 1 1)) := by
  intro c dims B I
  have hread : dims.eachOfFirst c 4 (fun d => (d.toScalar c).toInt) = .ok [2, 1, 1] := rfl
  have hside : (Scalar.whole 10).narrow = .ok B.side := by decide +kernel
  have hbevel : (Scalar.whole 1).narrow = .ok B.bevel := by decide +kernel
  have hgap : (Scalar.whole 1).narrow = .ok B.gap := by decide +kernel
  have hside' : B.side.IsWhole 10 := by decide +kernel
  have hone : B.gap.IsWhole 1 := by decide +kernel
  have htwo : two.IsWhole 2 := by decide +kernel
  have htwo' : (two * B.gap).IsWhole 2 := by decide +kernel
  have hedge : B.edge.IsWhole 8 := by decide +kernel
  have hinset : B.inset.IsWhole 2 := by decide +kernel
  have hinsets : (two * B.inset).IsWhole 4 := by decide +kernel
  have hindex : ∀ i ≤ 2, (index i).IsWhole i := by decide +kernel
  have hmultiple : ∀ i ≤ 2, (B.side * index i).IsWhole (10 * i) := by decide +kernel
  have hcount : ∀ n ∈ [2, 1, 1], ∀ i ≤ n, i ≤ 2 := by decide
  have hexact : B.IsExact 10 1 1 2 1 1 := {
    side := by simpa using hside'.toReal?
    bevel := by simpa using hone.toReal?
    gap := by simpa using hone.toReal?
    gaps := exactly_of_isWhole htwo hone htwo' (by norm_num)
    edge := exactly_of_isWhole hside' htwo' hedge (by norm_num)
    bevels := exactly_of_isWhole hone htwo (k := 2) (by decide +kernel) (by norm_num)
    face := exactly_of_isWhole hedge (j := 2) (k := 6) (by decide +kernel) (by decide +kernel)
      (by norm_num)
    inset := exactly_of_isWhole hone hone hinset (by norm_num)
    insets := exactly_of_isWhole htwo hinset hinsets (by norm_num)
    whole := fun n hn i hi => by simpa using (hindex i (hcount n hn i hi)).toReal?
    multiple := fun n hn i hi => exactly_of_isWhole hside' (hindex i (hcount n hn i hi))
      (hmultiple i (hcount n hn i hi)) (by push_cast; ring)
    offset := fun i hi => exactly_of_isWhole hone (hmultiple i hi.le) (k := 1 + 10 * i)
      (by revert i; decide +kernel) (by push_cast; ring)
    extent := fun n hn => exactly_of_isWhole (hmultiple n (hcount n hn n le_rfl)) hinsets
      (k := 10 * n - 4) (by revert n; decide +kernel) (by push_cast; ring) }
  obtain ⟨hcall, -, hapart, -, -, hconnected⟩ := block_one_piece (.new dims)
    (.new (.whole 10)) (.new (.whole 1)) (.new (.whole 1)) Interpretation.isSolid_solid hread hside
    hbevel hgap hexact (by decide) (by decide) (by decide) (by norm_num) (by norm_num)
    (by norm_num)
  exact ⟨hcall, hapart ![0, 0, 0] ![1, 0, 0] (by decide) (by decide) (by decide), hconnected⟩

end Script
end SolidScript
