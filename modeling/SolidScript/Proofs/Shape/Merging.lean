import Mathlib.Algebra.Group.Int.Defs
import SolidScript.Proofs.Shape.Meaning

/-!
# Merging keeps the meaning

A construction is a program of calls that combine shapes. Built with the calls of the library it
gives flat combinations, and built without ever merging it gives nested ones. Both describe one set,
have one dimension, and fail for the same reason.
-/

set_option autoImplicit false

namespace SolidScript

namespace Shape

/-- What `combine` makes sure of, and so what every built shape has. -/
def Checked : Shape → Prop
  | combination _ ss => mixes ss = false
  | _ => True

theorem Built.checked {free : Prop} {s : Shape} (h : Built free s) : s.Checked := by
  cases s with
  | combination k ss =>
    obtain ⟨-, hm, -⟩ := combine_eq_ok.1 h.of_combination.2
    exact hm
  | _ => trivial

/-! Dimensions -/

variable {ss ts : List Shape}

theorem mixes_iff : mixes ss = true ↔
    some Dimension.plane ∈ ss.map dim ∧ some Dimension.space ∈ ss.map dim := by
  simp [mixes]

theorem mixes_congr (h : ss.map dim = ts.map dim) : mixes ss = mixes ts := by
  rw [Bool.eq_iff_iff, mixes_iff, mixes_iff, h]

theorem firstDim_eq (ss : List Shape) : firstDim ss = (ss.map dim).findSome? id := by
  rw [firstDim_eq_findSome?, List.findSome?_map]
  rfl

theorem firstDim_congr (h : ss.map dim = ts.map dim) : firstDim ss = firstDim ts := by
  rw [firstDim_eq, firstDim_eq, h]

theorem firstDim_cons (s : Shape) (ss : List Shape) :
    firstDim (s :: ss) = s.dim.or (firstDim ss) := by
  rw [firstDim]
  cases s.dim <;> rfl

theorem firstDim_append (ss ts : List Shape) :
    firstDim (ss ++ ts) = (firstDim ss).or (firstDim ts) := by
  simp only [firstDim_eq_findSome?, List.findSome?_append]

theorem mem_dims (h : mixes ss = false) (d : Dimension) :
    some d ∈ ss.map dim ↔ firstDim ss = some d := by
  have hfirst : ∀ e, firstDim ss = some e → some e ∈ ss.map dim := by
    intro e he
    rw [firstDim_eq_findSome?] at he
    obtain ⟨s, hs, hd⟩ := List.exists_of_findSome?_eq_some he
    exact List.mem_map.2 ⟨s, hs, hd⟩
  constructor
  · intro hd
    cases he : firstDim ss with
    | none =>
      rw [firstDim_eq, List.findSome?_eq_none_iff] at he
      cases he _ hd
    | some e =>
      have hmix : ¬mixes ss = true := by simp [h]
      rw [mixes_iff] at hmix
      have he := hfirst e he
      cases d <;> cases e <;> simp_all
  · exact hfirst d

theorem mixes_append (k : Kind) (h : mixes ss = false) (ts : List Shape) :
    mixes (ss ++ ts) = mixes (combination k ss :: ts) := by
  rw [Bool.eq_iff_iff, mixes_iff, mixes_iff]
  simp only [List.map_append, List.map_cons, List.mem_append, List.mem_cons, mem_dims h, dim,
    eq_comm]

theorem mixes_singleton (s : Shape) : mixes [s] = false := by
  simp only [Bool.eq_false_iff, ne_eq, mixes_iff, List.map_cons, List.map_nil,
    List.mem_singleton]
  rintro ⟨hp, hs⟩
  cases hp.trans hs.symm

end Shape

/-! Results that correspond -/

/-- Two results, or one fault. -/
def Agree {α β : Type} (R : α → β → Prop) : Except Fault α → Except Fault β → Prop
  | .ok a, .ok b => R a b
  | .error e, .error f => e = f
  | _, _ => False

section
variable {α β γ δ : Type} {R : α → β → Prop} {S : γ → δ → Prop} {x : Except Fault α}
  {y : Except Fault β}

theorem Agree.bind (h : Agree R x y) {f : α → Except Fault γ} {g : β → Except Fault δ}
    (hf : ∀ a b, R a b → Agree S (f a) (g b)) : Agree S (x >>= f) (y >>= g) := by
  cases x <;> cases y
  · exact h
  · exact h.elim
  · exact h.elim
  · exact hf _ _ h

theorem Agree.map_eq (h : Agree R x y) {f : α → γ} {g : β → γ} (hf : ∀ a b, R a b → f a = g b) :
    x.map f = y.map g := by
  cases x <;> cases y
  · exact congrArg _ h
  · exact h.elim
  · exact h.elim
  · exact congrArg _ (hf _ _ h)

theorem Agree.bind_same (x : Except Fault α) {f : α → Except Fault γ} {g : α → Except Fault δ}
    (hf : ∀ a, Agree S (f a) (g a)) : Agree S (x >>= f) (x >>= g) := by
  cases x
  · exact rfl
  · exact hf _

end

/-! Shapes that mean the same -/

/-- Of one meaning and one dimension, the first with children that do not mix, and either both the
same operation on what has one meaning and one dimension, or neither an operation. -/
structure Alike {P : Type} [AddCommMonoid P] (I : Interpretation P) (s t : Shape) : Prop where
  denote : I.denote s = I.denote t
  dim : s.dim = t.dim
  checked : s.Checked
  head : (∃ o ps c d, s = .operator o ps c ∧ t = .operator o ps d ∧ I.denote c = I.denote d ∧
      c.dim = d.dim) ∨ ((∀ o ps c, s ≠ .operator o ps c) ∧ ∀ o ps d, t ≠ .operator o ps d)

section
variable {P : Type} [AddCommMonoid P] {I : Interpretation P} {s t : Shape} {ss ts : List Shape}

theorem Alike.refl (h : s.Checked) : Alike I s s := by
  refine ⟨rfl, rfl, h, ?_⟩
  cases s with
  | operator o ps c => exact .inl ⟨o, ps, c, c, rfl, rfl, rfl, rfl⟩
  | _ => exact .inr ⟨nofun, nofun⟩

/-! Changes -/

theorem operator_alike (o : Operation) (ps : List Parameter) (hm : I.denote s = I.denote t)
    (hd : s.dim = t.dim) : Alike I (.operator o ps s) (.operator o ps t) := by
  refine ⟨?_, ?_, trivial, .inl ⟨o, ps, s, t, rfl, rfl, hm, hd⟩⟩
  · rw [I.denote_operator, I.denote_operator, hm]
  · simp only [Shape.dim, hd]

theorem operate_alike (hs : Alike I s t) (o : Operation) (ps : List Parameter) :
    Agree (Alike I) (s.operate o ps) (t.operate o ps) := by
  unfold Shape.operate
  rw [hs.dim]
  split
  · exact rfl
  · exact operator_alike o ps hs.denote hs.dim

theorem translate_alike (hs : Alike I s t) (n : Nested) :
    Agree (Alike I) (s.translate n) (t.translate n) := by
  have hother (hs' : ∀ ps c, s ≠ .operator .translate ps c)
      (ht' : ∀ ps c, t ≠ .operator .translate ps c) :
      Agree (Alike I) (s.translate n) (t.translate n) := by
    rw [Shape.translate_other hs', Shape.translate_other ht', Shape.coordinates_congr hs.dim]
    exact .bind_same _ fun xs => operator_alike .translate _ hs.denote hs.dim
  obtain ⟨o, ps, c, d, rfl, rfl, hm, hd⟩ | ⟨hs', ht'⟩ := hs.head
  · by_cases ho : o = .translate
    · subst ho
      rw [Shape.translate_translate, Shape.translate_translate, Shape.coordinates_congr hs.dim]
      exact .bind_same _ fun _ => .bind_same _ fun _ => .bind_same _ fun _ =>
        operator_alike .translate _ hm hd
    · exact hother (by simp [ho]) (by simp [ho])
  · exact hother (hs' _) (ht' _)

theorem rotate_alike (hs : Alike I s t) (n : Nested) :
    Agree (Alike I) (s.rotate n) (t.rotate n) := by
  have hother (hs' : ∀ ps c, s ≠ .operator .rotate ps c)
      (ht' : ∀ ps c, t ≠ .operator .rotate ps c) :
      Agree (Alike I) (s.rotate n) (t.rotate n) := by
    rw [Shape.rotate_other hs', Shape.rotate_other ht', Shape.scalarOrVector_congr hs.dim]
    exact .bind_same _ fun turn => operator_alike .rotate _ hs.denote hs.dim
  obtain ⟨o, ps, c, d, rfl, rfl, hm, hd⟩ | ⟨hs', ht'⟩ := hs.head
  · by_cases ho : o = .rotate
    · subst ho
      rw [Shape.rotate_rotate, Shape.rotate_rotate, Shape.scalarOrVector_congr hs.dim]
      refine .bind_same _ fun _ => .bind_same _ fun _ => .bind_same _ fun sum => ?_
      cases sum with
      | some sum => exact operator_alike .rotate _ hm hd
      | none => exact operator_alike .rotate _ hs.denote hs.dim
    · exact hother (by simp [ho]) (by simp [ho])
  · exact hother (hs' _) (ht' _)

theorem change_alike (hs : Alike I s t) (f : Change) :
    Agree (Alike I) (f.apply s) (f.apply t) := by
  have wrap (o : Operation) (p : Parameter) :
      Alike I (.operator o [p] s) (.operator o [p] t) :=
    operator_alike o [p] hs.denote hs.dim
  cases f with
  | translate n => exact translate_alike hs n
  | rotate n => exact rotate_alike hs n
  | scaleEach n =>
    simp only [Change.apply, Shape.scaleEach, Shape.coordinates_congr hs.dim]
    exact .bind_same _ fun _ => wrap _ _
  | scale n =>
    simp only [Change.apply, Shape.scale, Shape.scalarOrVector_congr hs.dim]
    exact .bind_same _ fun _ => wrap _ _
  | mirror n =>
    simp only [Change.apply, Shape.mirror, Shape.coordinates_congr hs.dim]
    exact .bind_same _ fun _ => wrap _ _
  | color c => exact operate_alike hs .color _
  | linearExtrude x => exact .bind_same _ fun _ => operate_alike hs .linearExtrude _
  | rotateExtrude x => exact .bind_same _ fun _ => operate_alike hs .rotateExtrude _

/-! Combinations -/

theorem map_denote_of_alike (h : List.Forall₂ (Alike I) ss ts) :
    ss.map I.denote = ts.map I.denote := by
  induction h with
  | nil => rfl
  | cons hst _ ih => rw [List.map_cons, List.map_cons, hst.denote, ih]

theorem map_dim_of_alike (h : List.Forall₂ (Alike I) ss ts) :
    ss.map Shape.dim = ts.map Shape.dim := by
  induction h with
  | nil => rfl
  | cons hst _ ih => rw [List.map_cons, List.map_cons, hst.dim, ih]

theorem combine_agree (k : Kind) (ha : k.accepts ss.length = k.accepts ts.length)
    (hm : Shape.mixes ss = Shape.mixes ts) (hd : Shape.firstDim ss = Shape.firstDim ts)
    (hj : I.join k (ss.map I.denote) = I.join k (ts.map I.denote)) :
    Agree (Alike I) (Shape.combine k ss) (Shape.combine k ts) := by
  unfold Shape.combine
  rw [ha, hm]
  split
  · exact rfl
  · split
    · exact rfl
    · rename_i hmix
      refine ⟨?_, hd, hm.trans (Bool.eq_false_iff.2 hmix), .inr ⟨nofun, nofun⟩⟩
      rw [I.denote_combination, I.denote_combination, hj]

theorem combine_alike (k : Kind) (h : List.Forall₂ (Alike I) ss ts) :
    Agree (Alike I) (Shape.combine k ss) (Shape.combine k ts) :=
  combine_agree k (by rw [h.length_eq]) (Shape.mixes_congr (map_dim_of_alike h))
    (Shape.firstDim_congr (map_dim_of_alike h)) (by rw [map_denote_of_alike h])

theorem extend_alike (e : Extension) (hs : Alike I s t) (h : List.Forall₂ (Alike I) ss ts) :
    Agree (Alike I) (s.extend e.kind ss) (Shape.combine e.kind (t :: ts)) := by
  have hwhole := combine_alike e.kind (.cons hs h)
  unfold Shape.extend Shape.operands
  split
  · split
    · rename_i k cs hk
      subst hk
      refine combine_agree e.kind ?_ ?_ ?_ ?_
      · cases e <;> rfl
      · rw [Shape.mixes_append e.kind hs.checked]
        exact Shape.mixes_congr (map_dim_of_alike (.cons hs h))
      · rw [← Shape.firstDim_congr (map_dim_of_alike (.cons hs h)), Shape.firstDim_append,
          Shape.firstDim_cons]
        rfl
      · rw [List.map_append, I.join_append, ← I.denote_combination,
          ← map_denote_of_alike (.cons hs h)]
        rfl
    · exact hwhole
  · exact hwhole

theorem hull_alike (hs : Alike I s t) : Agree (Alike I) s.hull (Shape.combine .hull [t]) := by
  have hwhole := combine_alike .hull (.cons hs .nil)
  unfold Shape.hull Shape.operands
  split
  · split
    · rename_i k cs hk
      subst hk
      refine combine_agree .hull rfl ?_ ?_ ?_
      · rw [Shape.mixes_singleton]
        exact hs.checked
      · rw [Shape.firstDim_cons, ← hs.dim]
        simp [Shape.dim, Shape.firstDim]
      · rw [I.join_hull, ← I.denote_combination, List.map_singleton, hs.denote]
    · exact hwhole
  · exact hwhole

end

/-! Constructions -/

/-- Programs of calls that combine the shapes in scope. Sums and alternatives of two shapes are
unions with one operand, their conjunction is an intersection with one. -/
inductive Construction where
  | shape (i : Nat)
  | extend (e : Extension) (s : Construction) (others : List Construction)
  | difference (s other : Construction)
  | hull (s : Construction)
  /-- A shape together with its image, for which it is in scope. -/
  | addMap (s image : Construction)
  | compose (kind : String) (children : List Construction)
  | group (children : List Construction)
  | reduce (kind : String) (shapes : List Construction)
  | change (f : Change) (s : Construction)
  /-- A shape that is in scope for the rest. -/
  | define (s rest : Construction)

structure Builder where
  extend : Extension → Shape → List Shape → Except Fault Shape
  difference : Shape → Shape → Except Fault Shape
  hull : Shape → Except Fault Shape
  addMap : Shape → (Shape → Except Fault Shape) → Except Fault Shape
  compose : String → List Shape → Except Fault Shape
  group : List Shape → Except Fault Shape
  reduce : String → List Shape → Except Fault Shape

namespace Builder

def merging : Builder where
  extend
    | .union => Shape.union
    | .intersection => Shape.intersection
    | .minkowski => Shape.minkowski
  difference := Shape.difference
  hull := Shape.hull
  addMap := Shape.addMap
  compose := Shape.compose
  group := Shape.compose Kind.union.name
  reduce := Shape.reduce

/-- A new combination around the receiver and the operands of every call. -/
def wrapping : Builder where
  extend e s others := Shape.combine e.kind (s :: others)
  difference s other := Shape.combine .difference [s, other]
  hull s := Shape.combine .hull [s]
  addMap s f := do Shape.combine .union [s, ← f s]
  compose kind children := do Shape.combine (← Kind.read kind) children
  group children := Shape.combine .union children
  reduce kind shapes :=
    if kind = "difference" then .error .differenceReduction
    else do Shape.combine (← Kind.read kind) shapes

end Builder

namespace Construction

def find : List Shape → Nat → Except Fault Shape
  | [], _ => .error .absentStep
  | s :: _, 0 => .ok s
  | _ :: scope, i + 1 => find scope i

mutual

def build (b : Builder) : Construction → List Shape → Except Fault Shape
  | shape i, scope => find scope i
  | extend e s others, scope => do b.extend e (← s.build b scope) (← buildAll b others scope)
  | difference s other, scope => do b.difference (← s.build b scope) (← other.build b scope)
  | hull s, scope => do b.hull (← s.build b scope)
  | addMap s image, scope => do b.addMap (← s.build b scope) fun x => image.build b (x :: scope)
  | compose kind children, scope => do b.compose kind (← buildAll b children scope)
  | group children, scope => do b.group (← buildAll b children scope)
  | reduce kind shapes, scope => do b.reduce kind (← buildAll b shapes scope)
  | change f s, scope => do f.apply (← s.build b scope)
  | define s rest, scope => do rest.build b ((← s.build b scope) :: scope)

def buildAll (b : Builder) : List Construction → List Shape → Except Fault (List Shape)
  | [], _ => .ok []
  | c :: cs, scope => do return (← c.build b scope) :: (← buildAll b cs scope)

end

end Construction

section
variable {P : Type} [AddCommMonoid P] {I : Interpretation P} {s t : Shape} {ss ts : List Shape}

theorem compose_alike (kind : String) (h : List.Forall₂ (Alike I) ss ts) :
    Agree (Alike I) (Builder.merging.compose kind ss) (Builder.wrapping.compose kind ts) :=
  .bind_same _ fun k => combine_alike k h

theorem reduce_alike (kind : String) (h : List.Forall₂ (Alike I) ss ts) :
    Agree (Alike I) (Builder.merging.reduce kind ss) (Builder.wrapping.reduce kind ts) := by
  change Agree _ (Shape.reducible kind >>= fun _ => Shape.compose kind ss)
    (if kind = "difference" then _ else _)
  unfold Shape.reducible
  split
  · exact rfl
  · exact compose_alike kind h

theorem merging_alike (e : Extension) (hs : Alike I s t) (h : List.Forall₂ (Alike I) ss ts) :
    Agree (Alike I) (Builder.merging.extend e s ss) (Builder.wrapping.extend e t ts) := by
  cases e with
  | union => exact extend_alike .union hs h
  | intersection => exact extend_alike .intersection hs h
  | minkowski => exact extend_alike .minkowski hs h

namespace Construction

theorem find_alike (h : List.Forall₂ (Alike I) ss ts) (i : Nat) :
    Agree (Alike I) (find ss i) (find ts i) := by
  induction h generalizing i with
  | nil => exact rfl
  | cons hst _ ih => cases i with
    | zero => exact hst
    | succ i => exact ih i

mutual

theorem build_alike : ∀ (c : Construction) {ss ts : List Shape},
    List.Forall₂ (Alike I) ss ts → Agree (Alike I) (c.build .merging ss) (c.build .wrapping ts)
  | shape i, _, _, h => find_alike h i
  | extend e s others, _, _, h => by
    simp only [build]
    exact (s.build_alike h).bind fun _ _ hs => (buildAll_alike others h).bind fun _ _ hos =>
      merging_alike e hs hos
  | difference s other, _, _, h => by
    simp only [build]
    exact (s.build_alike h).bind fun _ _ hs => (other.build_alike h).bind fun _ _ ht =>
      combine_alike .difference (.cons hs (.cons ht .nil))
  | hull s, _, _, h => by
    simp only [build]
    exact (s.build_alike h).bind fun _ _ hs => hull_alike hs
  | addMap s image, _, _, h => by
    simp only [build]
    apply (s.build_alike h).bind
    intro _ _ hs
    exact (image.build_alike (.cons hs h)).bind fun _ _ ht => extend_alike .union hs (.cons ht .nil)
  | compose kind children, _, _, h => by
    simp only [build]
    exact (buildAll_alike children h).bind fun _ _ hcs => compose_alike kind hcs
  | group children, _, _, h => by
    simp only [build]
    exact (buildAll_alike children h).bind fun _ _ hcs => combine_alike .union hcs
  | reduce kind shapes, _, _, h => by
    simp only [build]
    exact (buildAll_alike shapes h).bind fun _ _ hcs => reduce_alike kind hcs
  | change f s, _, _, h => by
    simp only [build]
    exact (s.build_alike h).bind fun _ _ hs => change_alike hs f
  | define s rest, _, _, h => by
    simp only [build]
    exact (s.build_alike h).bind fun _ _ hs => rest.build_alike (.cons hs h)

theorem buildAll_alike : ∀ (cs : List Construction) {ss ts : List Shape},
    List.Forall₂ (Alike I) ss ts →
      Agree (List.Forall₂ (Alike I)) (buildAll .merging cs ss) (buildAll .wrapping cs ts)
  | [], _, _, _ => .nil
  | c :: cs, _, _, h => by
    simp only [buildAll]
    exact (c.build_alike h).bind fun _ _ hc => (buildAll_alike cs h).bind fun _ _ hcs =>
      .cons hc hcs

end

/-- Merging or not, a construction from shapes whose combinations do not mix dimensions describes
one set of points and has one dimension, or fails for one reason. -/
theorem denote_build {P : Type} [AddCommMonoid P] (I : Interpretation P) (c : Construction)
    {shapes : List Shape} (h : ∀ s ∈ shapes, s.Checked) :
    (c.build .merging shapes).map (fun s => (I.denote s, s.dim)) =
      (c.build .wrapping shapes).map fun s => (I.denote s, s.dim) := by
  have hrefl : List.Forall₂ (Alike I) shapes shapes :=
    List.forall₂_same.2 fun s hs => .refl (h s hs)
  exact (c.build_alike hrefl).map_eq fun s t hst => by rw [hst.denote, hst.dim]

end Construction
end

namespace Construction

def segments : Interpretation ℤ where
  primitive s := if s.dim = some .plane then {0, 2} else ∅
  operation _ _ A := A
  hull A := {p | ∃ a ∈ A, ∃ b ∈ A, a ≤ p ∧ p ≤ b}

theorem denote_build_hull :
    (hull (extend .union (shape 0) [shape 1])).build .merging
        [.combination .union [.circle .nan], .square .nan] =
      .ok (.combination .hull [.circle .nan, .square .nan]) ∧
    (hull (extend .union (shape 0) [shape 1])).build .wrapping
        [.combination .union [.circle .nan], .square .nan] =
      .ok (.combination .hull [.combination .union
        [.combination .union [.circle .nan], .square .nan]]) ∧
    segments.denote (.combination .hull [.circle .nan, .square .nan]) =
      segments.denote (.combination .hull [.combination .union
        [.combination .union [.circle .nan], .square .nan]]) := by
  have hm : ∀ s ∈ [Shape.combination .union [.circle .nan], .square .nan], s.Checked := by
    simp [Shape.Checked, Shape.mixes, Shape.dim]
  have h := denote_build segments (hull (extend .union (shape 0) [shape 1])) hm
  refine ⟨rfl, rfl, ?_⟩
  exact congrArg Prod.fst (Except.ok.inj h)

end Construction
end SolidScript
