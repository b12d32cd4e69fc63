import SolidScript.Proofs.Script.Context
import SolidScript.Proofs.Solid.Built

/-!
# Commands make built shapes

Each command, given values whose shapes are built, gives such a value. Only `Operator` sets up
operations by hand.
-/

set_option autoImplicit false

namespace SolidScript.Script
open Binary Command Shape

variable {P : Shape → Prop} {free : Prop} {c : Context}

namespace Command

/-- What a command makes of operands that hold, holds. -/
def Keeps (P : Shape → Prop) (command : Command) : Prop :=
  ∀ os : List Operand, (∀ o ∈ os, o.Holds P) → Yields (Item.Holds P) (command os)

theorem made_holds {r : Except Fault Value} (h : Yields (Value.Holds P) r) :
    Yields (Item.Holds P) (made r) := by
  simp only [made, yields_bind, yields_pure, Item.holds_new]
  exact h

theorem variadic_keeps {f : List Value → Except Fault Value}
    (h : ∀ vs : List Value, (∀ v ∈ vs, v.Holds P) → Yields (Value.Holds P) (f vs)) :
    Keeps P (variadic f) := fun os hos => made_holds (h _ (by
  simpa using fun o ho => Operand.toValue_holds (hos o ho)))

theorem nullary_keeps {f : Unit → Except Fault Value} (h : Yields (Value.Holds P) (f ())) :
    Keeps P (nullary f) := by
  intro os _
  unfold nullary
  split
  · exact made_holds h
  · exact yields_error

theorem unary_keeps {f : Value → Except Fault Value}
    (h : ∀ v, v.Holds P → Yields (Value.Holds P) (f v)) : Keeps P (unary f) := by
  intro os hos
  unfold unary
  split
  · exact made_holds (h _ (Operand.toValue_holds (hos _ (by simp))))
  · exact yields_error

theorem unaryOr_keeps {default : Value} {f : Value → Except Fault Value} (hd : default.Holds P)
    (h : ∀ v, v.Holds P → Yields (Value.Holds P) (f v)) : Keeps P (unaryOr default f) := by
  intro os hos
  unfold unaryOr
  split
  · exact made_holds (h _ hd)
  · exact made_holds (h _ (Operand.toValue_holds (hos _ (by simp))))
  · exact yields_error

theorem binary_keeps {f : Value → Value → Except Fault Value}
    (h : ∀ v w, v.Holds P → w.Holds P → Yields (Value.Holds P) (f v w)) :
    Keeps P (binary f) := by
  intro os hos
  unfold binary
  split
  · exact made_holds (h _ _ (Operand.toValue_holds (hos _ (by simp)))
      (Operand.toValue_holds (hos _ (by simp))))
  · exact yields_error

theorem binaryOr_keeps {default : Value} {f : Value → Value → Except Fault Value}
    (hd : default.Holds P) (h : ∀ v w, v.Holds P → w.Holds P → Yields (Value.Holds P) (f v w)) :
    Keeps P (binaryOr default f) := by
  intro os hos
  unfold binaryOr
  split
  · exact made_holds (h _ _ (Operand.toValue_holds (hos _ (by simp))) hd)
  · exact made_holds (h _ _ (Operand.toValue_holds (hos _ (by simp)))
      (Operand.toValue_holds (hos _ (by simp))))
  · exact yields_error

theorem binaryOrBoth_keeps {first second : Value} {f : Value → Value → Except Fault Value}
    (h : ∀ v w, Yields (Value.Holds P) (f v w)) : Keeps P (binaryOrBoth first second f) := by
  intro os _
  unfold binaryOrBoth
  split
  · exact made_holds (h _ _)
  · exact made_holds (h _ _)
  · exact made_holds (h _ _)
  · exact yields_error

theorem ternary_keeps {f : Value → Value → Value → Except Fault Value}
    (h : ∀ u v w, Yields (Value.Holds P) (f u v w)) : Keeps P (ternary f) := by
  intro os _
  unfold ternary
  split
  · exact made_holds (h _ _ _)
  · exact yields_error

theorem ternaryOr_keeps {second third : Value} {f : Value → Value → Value → Except Fault Value}
    (h : ∀ u v w, Yields (Value.Holds P) (f u v w)) : Keeps P (ternaryOr second third f) := by
  intro os _
  unfold ternaryOr
  split
  · exact made_holds (h _ _ _)
  · exact made_holds (h _ _ _)
  · exact made_holds (h _ _ _)
  · exact yields_error

theorem quaternary_keeps {f : Value → Value → Value → Value → Except Fault Value}
    (h : ∀ u v w x, u.Holds P → Yields (Value.Holds P) (f u v w x)) :
    Keeps P (quaternary f) := by
  intro os hos
  unfold quaternary
  split
  · exact made_holds (h _ _ _ _ (Operand.toValue_holds (hos _ (by simp))))
  · exact yields_error

theorem direct_keeps {f : Operand → Except Fault Item}
    (h : ∀ o, o.Holds P → Yields (Item.Holds P) (f o)) : Keeps P (direct f) := by
  intro os hos
  unfold direct
  split
  · exact h _ (hos _ (by simp))
  · exact yields_error

end Command

theorem toShape_holds {v : Value} (h : v.Holds P) : Yields P v.toShape := by
  unfold Value.toShape
  split
  · simpa using h
  · exact yields_error

theorem toShapes_holds {vs : List Value} (h : ∀ v ∈ vs, v.Holds P) :
    Yields (fun ss => ∀ s ∈ ss, P s) (vs.mapM Value.toShape) :=
  yields_mapM fun v hv => toShape_holds (h v hv)

theorem shape_holds {r : Except Fault Shape} (h : Yields P r) :
    Yields (Value.Holds P) (do return .shape (← r)) := by
  simp only [yields_bind, yields_pure, Value.Holds]
  exact h

theorem compose_holds {kind : Value} {vs : List Value} (h : ∀ v ∈ vs, v.Holds (Built free)) :
    Yields (Value.Holds (Built free)) (Script.compose kind vs) := by
  unfold Script.compose
  split
  · split
    · exact shape_holds (Built.compose (toShapes_holds h _ ‹_›) _)
    · simp only [yields_bind]
      intro k _
      split <;> exact yields_error
  · exact yields_error

theorem reduce_holds (hc : c.Keeps (Built free)) {v kind : Value} (h : v.Holds (Built free)) :
    Yields (Value.Holds (Built free)) (Script.reduce c v kind) := by
  simp only [Script.reduce, yields_bind]
  intro _ _ vs hvs
  exact compose_holds (Value.toValues_holds hc h vs hvs)

theorem narrow_holds (v : Value) : Yields (Value.Holds P) (narrow c v) := by
  unfold narrow
  split <;> simp [Value.single]

theorem product_holds (v w : Value) : Yields (Value.Holds P) (product c v w) := by
  simp only [product, yields_bind]
  intro _ _ _ _
  split <;> simp

theorem vectorOf_holds (v size : Value) : Yields (Value.Holds P) (vectorOf c v size) := by
  simp only [vectorOf, yields_bind]
  intro xs _ _ _
  split
  · simp
  · simp only [yields_bind]
    intro b _
    cases b <;> simp

/-! Functions -/

theorem numberFunctions_keep : ∀ e ∈ numberFunctions c, Keeps P e.2 := by
  simp only [numberFunctions, List.forall_mem_cons]
  refine ⟨?_, ?_, ?_, ?_, ?_, ?_, ?_, ?_, ?_, ?_, ?_, by simp⟩
  · exact unary_keeps fun v _ => narrow_holds v
  · exact unary_keeps (by simp [Value.single])
  · exact unary_keeps (by simp [Value.single])
  · exact binary_keeps (by simp [vectorOfComponents])
  · exact ternary_keeps (by simp [vectorOfComponents])
  · exact binary_keeps fun v w _ _ => product_holds v w
  · exact binaryOr_keeps (by simp [Value.absent]) fun v w _ _ => vectorOf_holds v w
  · apply unary_keeps
    intro v _
    split <;> simp [Value.truth]
  · exact unary_keeps (by simp [Value.text])
  · exact unary_keeps (by simp [Value.text])
  · exact unary_keeps (by simp [Value.text])

theorem toVector_isVector {v : Value} {size : Int} {xs : Coordinates}
    (h : v.toVector c (some size) = .ok xs) : IsVector size xs := by
  obtain ⟨n, -, h⟩ := bind_eq_ok.1 h
  exact ⟨n, h⟩

theorem each_yields {α : Type} {Q : α → Prop} {f : Value → Except Fault α} (v : Value)
    (h : ∀ w, Yields Q (f w)) : Yields (fun as => ∀ a ∈ as, Q a) (v.each c f) := by
  unfold Value.each
  split
  · apply Sequence.items_yields
    intro i
    simp only [Sequence.map, yields_bind]
    intro a _
    exact h a.value
  · simp only [yields_bind]
    intro items _
    exact yields_mapM fun a _ => h a.value

theorem points_built {size : Int} (v : Value) :
    Yields (fun ps => ∀ p ∈ ps, IsVector size p) (v.each c (Value.toVector c (some size))) :=
  each_yields v fun _ _ h => toVector_isVector h

theorem cuboid_built (x y z : Value) : Yields (Built free) (Script.cuboid c x y z) := by
  unfold Script.cuboid
  split
  · simp only [yields_bind]
    intro n _
    exact Built.ofCuboid n
  · simp only [yields_bind, yields_pure]
    intro v hv
    exact .cuboid (toVector_isVector hv)

theorem polyhedron_built (points faces : Value) :
    Yields (Built free) (Script.polyhedron c points faces) := by
  simp only [Script.polyhedron, yields_bind]
  intro ps hps
  have hps : ∀ p ∈ ps, IsVector 3 p := points_built points ps hps
  split
  · simpa using Built.polyhedron hps _
  · simp only [yields_bind, yields_pure]
    intro fs _
    exact .polyhedron hps fs

theorem primitiveFunctions_keep : ∀ e ∈ primitiveFunctions c, Keeps (Built free) e.2 := by
  simp only [primitiveFunctions, List.forall_mem_cons]
  refine ⟨?_, ?_, ?_, ?_, ?_, ?_, ?_, ?_, ?_, ?_, ?_, ?_, ?_, by simp⟩
  · exact unaryOr_keeps trivial fun _ _ => shape_holds (Built.ofCircle _)
  · exact unaryOr_keeps trivial fun _ _ => shape_holds (Built.ofSquare _)
  · refine binaryOrBoth_keeps fun x y => shape_holds ?_
    simp only [Script.rectangle, yields_bind, yields_pure]
    intro v hv
    exact .rectangle (toVector_isVector hv)
  · apply unary_keeps
    intro v _
    simp only [yields_bind, yields_pure, Value.Holds]
    intro ps hps
    exact .polygon (points_built v ps hps)
  · apply ternary_keeps
    intro p q r
    simp only [yields_bind, yields_pure, Value.Holds]
    intro ps hps
    exact .polygon (yields_mapM (fun _ _ _ h => toVector_isVector h) ps hps)
  · exact unaryOr_keeps trivial fun _ _ => shape_holds (Built.ofCube _)
  · exact ternaryOr_keeps fun x y z => shape_holds (cuboid_built x y z)
  · exact unaryOr_keeps trivial fun _ _ => shape_holds (Built.ofSphere _)
  · apply unary_keeps
    intro v _
    simp only [yields_bind, yields_pure, Value.Holds]
    intro n _ s hs
    exact Built.ofSpheroid n s hs
  · exact binaryOrBoth_keeps fun _ _ => shape_holds (Built.ofCylinder _ _)
  · exact binaryOr_keeps trivial fun v w _ _ => shape_holds (polyhedron_built v w)
  · apply unary_keeps
    intro v _
    simp only [yields_bind, yields_pure, Value.Holds]
    intro a _ s hs
    exact Built.ofHalfPlane a s hs
  · apply unary_keeps
    intro v _
    simp only [yields_bind, yields_pure, Value.Holds]
    intro a _ s hs
    exact Built.ofHalfSpace a s hs

theorem cubeBlock_holds (dims side bevel gap : Value) :
    Yields (Value.Holds (Built free)) (cubeBlock c dims side bevel gap) := by
  simp only [cubeBlock, yields_bind]
  intro ns _
  split
  · exact shape_holds (Built.ofBeveledCubeBlock _ _ _ _ _ _)
  · exact yields_error

theorem solidFunctions_keep : ∀ e ∈ solidFunctions c, Keeps (Built free) e.2 := by
  simp only [solidFunctions, List.forall_mem_cons]
  refine ⟨?_, ?_, ?_, ?_, ?_, by simp⟩
  · apply binary_keeps
    intro v w _ _
    simp only [yields_bind, yields_pure, Value.Holds]
    intro n _ s hs
    exact Built.ofBeveledBox n _ s hs
  · exact quaternary_keeps fun u v w x _ => cubeBlock_holds u v w x
  · exact unary_keeps fun _ _ => shape_holds (Built.ofRoundedCube _)
  · exact unary_keeps fun _ _ => shape_holds (Built.ofTruncatedOctahedron _)
  · apply binary_keeps
    intro v w hv _
    simp only [Script.invert, yields_bind, yields_pure, Value.Holds]
    intro cube hcube s hs t ht
    exact (Built.ofCentredCube _ cube hcube).difference (toShape_holds hv s hs) t ht

theorem operator_holds (hf : free) {child family name parameters : Value}
    (h : child.Holds (Built free)) :
    Yields (Value.Holds (Built free)) (Script.operator c child family name parameters) := by
  simp only [Script.operator, yields_bind, yields_pure, Value.Holds]
  intro _ _ o _ s hs t ht
  exact .operate hf (toShape_holds h s hs) ht

theorem combinationFunctions_keep (hc : c.Keeps (Built free)) :
    ∀ e ∈ combinationFunctions c, free ∨ e.1 ≠ "Operator" → Keeps (Built free) e.2 := by
  simp only [combinationFunctions, List.forall_mem_cons]
  refine ⟨?_, ?_, ?_, ?_, ?_, ?_, ?_, ?_, ?_, by simp⟩ <;> intro hf
  · exact variadic_keeps fun vs hvs => compose_holds hvs
  · refine binaryOr_keeps trivial fun v w hv _ => ?_
    simp only [yields_bind]
    intro vs hvs
    exact compose_holds (Value.toValues_holds hc hv vs hvs)
  · exact quaternary_keeps fun u v w x hu => operator_holds (by simpa using hf) hu
  · exact binaryOr_keeps trivial fun v w hv _ => reduce_holds hc hv
  · exact unary_keeps fun v hv => reduce_holds hc hv
  · exact unary_keeps fun v hv => reduce_holds hc hv
  · exact unary_keeps (by simp [Value.text])
  · exact binary_keeps (by simp [Value.text])
  · exact direct_keeps fun o ho => by simpa using Operand.toItem_holds ho

theorem callFunction_holds (hc : c.Keeps (Built free)) {name : String}
    (hf : free ∨ name ≠ "Operator") {os : List Operand} (hos : ∀ o ∈ os, o.Holds (Built free)) :
    Yields (Item.Holds (Built free)) (callFunction c name os) := by
  unfold callFunction
  split
  · rename_i command h
    obtain ⟨_, _, h, -⟩ := List.lookup_eq_some_iff.1 h
    have hm : (name, command) ∈ functions c := by simp [h]
    simp only [functions, List.mem_append] at hm
    obtain ((h | h) | h) | h := hm
    · exact numberFunctions_keep _ h os hos
    · exact primitiveFunctions_keep _ h os hos
    · exact solidFunctions_keep _ h os hos
    · exact combinationFunctions_keep hc _ h hf os hos
  · exact yields_error

end SolidScript.Script
