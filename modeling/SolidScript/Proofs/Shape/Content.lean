import Mathlib.Data.Finset.Option
import SolidScript.Proofs.Script.Run
import SolidScript.Proofs.Shape.Merging

/-!
# Dimensions and contents

The content of a shape are the dimensions of the primitives and extrusions in it. A built shape has
at most one of them, and `dim` finds it. What would have two is refused, and nothing else is.
-/

set_option autoImplicit false

namespace SolidScript
namespace Shape

mutual

def content : Shape → Finset Dimension
  | circle _ | square _ | rectangle _ | polygon _ => {.plane}
  | cube _ | cuboid _ | sphere _ | cylinder _ _ | polyhedron _ _ => {.space}
  | operator o _ child => match o.family with
    | .extrude => {.space}
    | .transform | .color => content child
  | combination _ ss => contentOf ss

/-- What shapes contain together. -/
def contentOf : List Shape → Finset Dimension
  | [] => ∅
  | s :: ss => content s ∪ contentOf ss

end

theorem mem_contentOf {d : Dimension} {ss : List Shape} :
    d ∈ contentOf ss ↔ ∃ s ∈ ss, d ∈ s.content := by
  induction ss with
  | nil => simp [contentOf]
  | cons s ss ih => simp [contentOf, ih]

def Measured (s : Shape) : Prop := s.content = s.dim.toFinset

variable {free : Prop} {s t : Shape} {ss : List Shape} {k : Kind}

namespace Measured

theorem mem_contentOf_iff (hs : ∀ s ∈ ss, Measured s) {d : Dimension} :
    d ∈ contentOf ss ↔ some d ∈ ss.map dim := by
  rw [mem_contentOf, List.mem_map]
  constructor
  · rintro ⟨s, hm, hd⟩
    rw [hs s hm, Option.mem_toFinset] at hd
    exact ⟨s, hm, hd⟩
  · rintro ⟨s, hm, hd⟩
    refine ⟨s, hm, ?_⟩
    rw [hs s hm, Option.mem_toFinset]
    exact hd

theorem mixes_iff_card (hs : ∀ s ∈ ss, Measured s) :
    mixes ss = true ↔ (contentOf ss).card = 2 := by
  rw [mixes_iff, ← mem_contentOf_iff hs, ← mem_contentOf_iff hs]
  constructor
  · rintro ⟨hplane, hspace⟩
    have hall : contentOf ss = {.plane, .space} := by
      ext d
      cases d <;> simp [hplane, hspace]
    rw [hall]
    rfl
  · intro h
    obtain ⟨d, e, hne, hall⟩ := Finset.card_eq_two.1 h
    rw [hall]
    cases d <;> cases e <;> simp_all

theorem combination (hs : ∀ s ∈ ss, Measured s) (h : mixes ss = false) :
    Measured (.combination k ss) := by
  rw [Measured, content, dim]
  ext d
  rw [mem_contentOf_iff hs, mem_dims h, Option.mem_toFinset, Option.mem_def]

theorem operator (hs : Measured s) (o : Operation) (ps : List Parameter) :
    Measured (.operator o ps s) := by
  rw [Measured, content, dim]
  cases o.family with
  | extrude => rfl
  | transform => exact hs
  | color => exact hs

theorem child {o : Operation} {ps : List Parameter} (ho : o.family ≠ .extrude)
    (hs : Measured (.operator o ps s)) : Measured s := by
  rw [Measured, content, dim] at hs
  cases hf : o.family with
  | extrude => exact absurd hf ho
  | transform => rwa [hf] at hs
  | color => rwa [hf] at hs

end Measured

theorem Built.measured (h : Built free s) : Measured s := by
  induction h with
  | combine _ h ih =>
    obtain ⟨-, hm, rfl⟩ := combine_eq_ok.1 h
    exact .combination ih hm
  | translate _ h ih =>
    obtain ⟨xs, -, ⟨ps, child, p, q, rfl, -, -, rfl⟩ | ⟨-, rfl⟩⟩ := of_translate h
    · exact (ih.child (by simp [Operation.family])).operator _ _
    · exact ih.operator _ _
  | rotate _ h ih =>
    obtain ⟨turn, -, ⟨ps, child, p, sum, rfl, -, -, rfl⟩ | ⟨-, rfl⟩⟩ := of_rotate h
    · exact (ih.child (by simp [Operation.family])).operator _ _
    · exact ih.operator _ _
  | scaleEach _ h ih =>
    obtain ⟨_, -, rfl⟩ := of_scaleEach h
    exact ih.operator _ _
  | scale _ h ih =>
    obtain ⟨_, -, rfl⟩ := of_scale h
    exact ih.operator _ _
  | mirror _ h ih =>
    obtain ⟨_, -, rfl⟩ := of_mirror h
    exact ih.operator _ _
  | color _ h ih =>
    obtain rfl := of_color h
    exact ih.operator _ _
  | linearExtrude _ h ih =>
    obtain ⟨-, _, rfl⟩ := of_linearExtrude h
    exact ih.operator _ _
  | rotateExtrude _ h ih =>
    obtain ⟨-, _, rfl⟩ := of_rotateExtrude h
    exact ih.operator _ _
  | operate _ _ h ih =>
    obtain ⟨-, rfl⟩ := operate_eq_ok.1 h
    exact ih.operator _ _
  | _ => rfl

/-! What is refused -/

theorem combine_eq (hs : ∀ s ∈ ss, Measured s) (hk : k.accepts ss.length = true) :
    combine k ss = if (contentOf ss).card = 2 then .error (.mixedDimensions k)
      else .ok (.combination k ss) := by
  have hm := Measured.mixes_iff_card hs
  by_cases h : mixes ss = true
  · rw [if_pos (hm.1 h)]
    simp [combine, hk, h]
  · rw [if_neg (mt hm.2 h)]
    simp [combine, hk, h]

theorem operate_eq (hs : Measured s) {o : Operation} (ho : o.family = .extrude)
    (ps : List Parameter) : s.operate o ps =
      if s.content = {.space} then .error (.solidExtrusion o) else .ok (.operator o ps s) := by
  have hd : s.content = {.space} ↔ s.dim = some .space := by
    rw [hs]
    cases s.dim with
    | none => simp
    | some d => simp
  simp only [operate, ho, hd, true_and]

/-- At most one dimension is in a shape, and it is the dimension of the shape. -/
structure Dimensioned (s : Shape) : Prop where
  card_le_one : s.content.card ≤ 1
  dim_eq_some : ∀ d, s.dim = some d ↔ d ∈ s.content
  dim_eq_none : s.dim = none ↔ s.content = ∅

theorem Measured.dimensioned (hs : Measured s) : s.Dimensioned := by
  rw [Measured] at hs
  constructor
  · rw [hs, Option.card_toFinset]
    cases s.dim <;> simp
  · intro d
    rw [hs, Option.mem_toFinset, Option.mem_def]
  · rw [hs]
    cases s.dim <;> simp

end Shape

namespace Script
open Shape

/-- The dimension of a shape that calls make is its content, operations made by hand included. A
combination of such shapes is refused if and only if they contain both dimensions, and an extrusion
if and only if it is one of a shape of space. -/
theorem dim_sound_and_complete :
    (∀ s, Built True s → s.Dimensioned) ∧
    (∀ steps : List Step, (∀ step ∈ steps, step.Holds (Built True)) →
      ∀ o ∈ run steps, o.Holds Dimensioned) ∧
    (∀ ss : List Shape, (∀ s ∈ ss, Built True s) → ∀ k : Kind, k.accepts ss.length = true →
      (combine k ss = if (contentOf ss).card = 2 then .error (.mixedDimensions k)
        else .ok (.combination k ss)) ∧
      ∀ name, Kind.read name = .ok k → Shape.compose name ss = combine k ss) ∧
    ∀ s, Built True s → ∀ x y, Scalar.narrow x = .ok y →
      (s.linearExtrude x = if s.content = {.space} then .error (.solidExtrusion .linearExtrude)
        else .ok (.operator .linearExtrude [.scalar (.single y)] s)) ∧
      s.rotateExtrude x = if s.content = {.space} then .error (.solidExtrusion .rotateExtrude)
        else .ok (.operator .rotateExtrude [.scalar (.single y)] s) := by
  refine ⟨fun s hs => hs.measured.dimensioned, fun steps hs o ho => ?_, fun ss hs k hk => ⟨?_, ?_⟩,
    fun s hs x y hx => ⟨?_, ?_⟩⟩
  · exact (run_holds (fun step h => ⟨hs step h, .inl trivial⟩) o ho).mono
      fun s hs => hs.measured.dimensioned
  · exact combine_eq (fun s h => (hs s h).measured) hk
  · intro name hn
    rw [Shape.compose, hn]
    rfl
  · rw [linearExtrude, hx]
    exact operate_eq hs.measured rfl _
  · rw [rotateExtrude, hx]
    exact operate_eq hs.measured rfl _

def nothingExtruded : List Step :=
  [.function "Group" [],
    .function "Operator" [.step 0, .literal (.new (.text "extrude".toList)),
      .literal (.new (.text "linear_extrude".toList)), .list []],
    .method "tree" (.step 1) []]

theorem dim_sound_and_complete_nothingExtruded :
    ∃ s, (run nothingExtruded)[2]? = some (.tree s) ∧ s.Dimensioned ∧ s.content = {.space} ∧
      Shape.compose "Hull" [.polygon [], s] = .error (.mixedDimensions .hull) ∧
      s.rotateExtrude .absent = .error (.solidExtrusion .rotateExtrude) := by
  obtain ⟨-, hrun, hcombine, hextrude⟩ := dim_sound_and_complete
  have hsteps : ∀ step ∈ nothingExtruded, step.Holds (Built True) := by
    simp [nothingExtruded, Step.Holds, Value.text]
  let s : Shape := .operator .linearExtrude [] (.combination .union [])
  have hs : (run nothingExtruded)[2]? = some (.tree s) := rfl
  have hunion : combine .union [] = .ok (.combination .union []) := rfl
  have hnothing : Built True (.combination .union []) := .combine (by simp) hunion
  have hextruded : Built True s :=
    .operate trivial hnothing (operate_eq_ok.2 ⟨by simp [dim, firstDim], rfl⟩)
  have hpolygon : Built True (polygon []) := .polygon (by simp)
  have hbuilt : ∀ t ∈ [polygon [], s], Built True t := by
    simpa using ⟨hpolygon, hextruded⟩
  have hcard : (contentOf [polygon [], s]).card = 2 := rfl
  have hcontent : s.content = {.space} := rfl
  obtain ⟨hmixed, hread⟩ := hcombine _ hbuilt .hull rfl
  refine ⟨s, hs, hrun _ hsteps _ (List.mem_of_getElem? hs), hcontent, ?_, ?_⟩
  · rw [hread "Hull" rfl, hmixed, if_pos hcard]
  · rw [(hextrude s hextruded .absent .nan rfl).2, if_pos hcontent]

end Script
end SolidScript
