import SolidScript.Proofs.Script.Reducing
import SolidScript.Proofs.Sequence

/-!
# The views of a sequence

A sequence can be iterated, indexed, listed and reduced, and every map on top of it is another one.
All of these show the same elements.
-/

set_option autoImplicit false

namespace SolidScript.Script
open Command

variable {c : Context} {a : Item} {s : Sequence Item}

namespace Value

variable {v : Value}

theorem items_of_sequence (h : v.sequence? c = some s) : v.items c = s.items := by
  unfold items
  rw [h]

theorem toList_of_sequence (h : v.sequence? c = some s) : v.toList c = s.toList := by
  unfold toList
  rw [h]

theorem length_of_sequence (h : v.sequence? c = some s) : v.length c = s.length := by
  unfold length
  rw [h]

end Value

/-! What a sequence is asked for -/

theorem made_map {α : Type} (f : α → Value) (r : Except Fault α) :
    made (do return f (← r)) = (fun x => .new (f x)) <$> r := by
  cases r <;> rfl

theorem callMethod_map (h : a.value.sequence? c = some s) (f : Operand) :
    callMethod c a "map" [f] = .ok (.new (.image a f)) := by
  rw [callMethod, methods_of_sequence h]
  rfl

theorem callMethod_get (h : a.value.sequence? c = some s) (i : Int) :
    callMethod c a "get" [.item (.new (.whole i))] = s.get (.whole i) := by
  rw [callMethod, methods_of_sequence h]
  change item c a.value (.whole i) = _
  unfold item
  rw [h]
  rfl

theorem callMethod_items (h : a.value.sequence? c = some s) :
    callMethod c a "items" [] = (fun as => .new (.list as)) <$> s.items := by
  rw [callMethod, methods_of_sequence h, ← Value.items_of_sequence h]
  exact made_map Value.list _

theorem callMethod_list (h : a.value.sequence? c = some s) :
    callMethod c a "list" [] = (fun as => .new (.list as)) <$> s.toList := by
  rw [callMethod, methods_of_sequence h, ← Value.toList_of_sequence h]
  exact made_map Value.list _

theorem callMethod_len (h : a.value.sequence? c = some s) :
    callMethod c a "len" [] = (fun n => .new (.whole n)) <$> s.length := by
  rw [callMethod, methods_of_sequence h, ← Value.length_of_sequence h]
  exact made_map Value.whole _

/-- The ways to reduce a sequence: by the method of a kind, as a sum or product, and by a kind as
the operand, which is the union if left out. -/
inductive Reduction where
  | kind (k : Kind)
  | sum
  | product
  | reduce (k : Option Kind)

namespace Reduction

def method : Reduction → String
  | kind k => k.name
  | sum => "sum"
  | product => "product"
  | reduce _ => "reduce"

def operands : Reduction → List Operand
  | reduce (some k) => [.item (.new (kindValue k))]
  | _ => []

def result : Reduction → Kind
  | kind k | reduce (some k) => k
  | sum | reduce none => .union
  | product => .intersection

end Reduction

theorem callMethod_reduction (h : a.value.sequence? c = some s) (r : Reduction)
    (hr : r.result ≠ .difference) :
    callMethod c a r.method r.operands = made (reduce c a.value (kindValue r.result)) := by
  rw [callMethod, methods_of_sequence h]
  cases r with
  | kind k =>
    cases k with
    | difference => exact absurd rfl hr
    | _ => rfl
  | reduce k =>
    cases k with
    | none => rfl
    | some k => rfl
  | _ => rfl

section
variable (h : a.value.sequence? c = some s) (h0 : 0 ≤ s.count)
  (hlimit : s.count < Sequence.lengthLimit)
include h h0 hlimit

theorem toValues_eq : a.value.toValues c =
    (List.range s.count.toNat).mapM fun i : Nat => Item.value <$> s.element (.whole i) := by
  rw [← map_mapM, ← Sequence.items_eq, Value.toValues, Value.toList_of_sequence h,
    Sequence.toList_of_bounds h0 hlimit]
  cases s.items <;> rfl

variable {r : Reduction} (hr : r.result ≠ .difference)
include hr

theorem reduction_shapes {ss : List Shape} (hn : ss.length = s.count)
    (hss : ∀ i (h : i < ss.length), Item.value <$> s.element (.whole i) = .ok (.shape ss[i])) :
    callMethod c a r.method r.operands =
      if Shape.mixes ss then .error (.mixedDimensions r.result)
        else .ok (.new (.shape (.combination r.result ss))) := by
  have hvalues : a.value.toValues c = .ok (ss.map .shape) := by
    rw [toValues_eq h h0 hlimit, mapM_range_eq_ok]
    refine ⟨by rw [List.length_map]; omega, fun i hi => ?_⟩
    rw [hss i (by simpa using hi), List.getElem_map]
  rw [callMethod_reduction h r hr, reduce_shapes hr hvalues, Shape.combine_of_ne hr]
  split <;> rfl

theorem reduction_fault {j : Nat} {e : Fault} (hj : j < s.count)
    (hbefore : ∀ i < j, ∃ b, s.element (.whole i) = .ok b) (he : s.element (.whole j) = .error e) :
    callMethod c a r.method r.operands = .error e := by
  have hvalues : a.value.toValues c = .error e := by
    rw [toValues_eq h h0 hlimit, mapM_range_eq_error]
    exact ⟨j, Int.lt_toNat.2 hj, fun i hi => isOk_map.2 (hbefore i hi), map_eq_error.2 he⟩
  rw [callMethod_reduction h r hr, reduce_kind hr, hvalues]
  rfl

theorem reduction_other (hok : ∀ i : Nat, i < s.count → ∃ b, s.element (.whole i) = .ok b)
    {j : Nat} {b : Item} (hj : j < s.count) (hb : s.element (.whole j) = .ok b)
    (hother : ∀ t, b.value ≠ .shape t) :
    callMethod c a r.method r.operands = .error .noSuchMember := by
  rw [callMethod_reduction h r hr, reduce_kind hr]
  cases hvalues : a.value.toValues c with
  | error e =>
    rw [toValues_eq h h0 hlimit] at hvalues
    obtain ⟨i, hi, -, he⟩ := mapM_range_eq_error.1 hvalues
    obtain ⟨w, hw⟩ := hok i (Int.lt_toNat.1 hi)
    cases hw.symm.trans (map_eq_error.1 he)
  | ok vs =>
    rw [toValues_eq h h0 hlimit] at hvalues
    obtain ⟨hlength, hvs⟩ := mapM_range_eq_ok.1 hvalues
    have hj : j < vs.length := hlength ▸ Int.lt_toNat.2 hj
    obtain ⟨w, hw, hvalue⟩ := map_eq_ok.1 (hvs j hj)
    cases hw.symm.trans hb
    have hmem : b.value ∈ vs := hvalue ▸ List.getElem_mem hj
    simp only [bind, Except.bind, toShapes_of_other hmem hother]
    rfl

end

/-! The views -/

/-- What a sequence of `n` elements, each made by `f`, shows of them. -/
structure Views (c : Context) (a : Item) (n : Int) (f : Int → Except Fault Item) : Prop where
  /-- An iteration hands over the elements in order. It may end early, and whatever is done with an
  element is done before the next is made. -/
  first : ∀ {α : Type} (k : Nat) (g : Value → Except Fault α), a.value.eachOfFirst c k g =
    (List.range (min k n.toNat)).mapM fun i : Nat => do g (← f i).value
  items : callMethod c a "items" [] =
    (fun as => .new (.list as)) <$> (List.range n.toNat).mapM fun i : Nat => f i
  stops : ∀ e, callMethod c a "items" [] = .error e ↔
    ∃ j : Nat, j < n ∧ (∀ i < j, ∃ b, f i = .ok b) ∧ f j = .error e
  /-- To make an element changes nothing that another one is made from, and every iteration counts
  from zero on its own, so there is no state that a second iteration could find changed. -/
  again : (do return (← callMethod c a "items" [], ← callMethod c a "items" [])) =
    (fun b => (b, b)) <$> callMethod c a "items" []
  get : ∀ i, 0 ≤ i → i < n → callMethod c a "get" [.item (.new (.whole i))] = f i
  get_neg : ∀ i, -n ≤ i → i < 0 → callMethod c a "get" [.item (.new (.whole i))] = f (n + i)
  get_outside : ∀ i, ¬(-n ≤ i ∧ i < n) →
    callMethod c a "get" [.item (.new (.whole i))] = .error (.index (toString i))
  list : 0 ≤ n → n < Sequence.lengthLimit →
    callMethod c a "len" [] = .ok (.new (.whole n)) ∧
      callMethod c a "list" [] = callMethod c a "items" []
  /-- Shapes become the children of one combination as they are, if they do not mix dimensions. -/
  reduce : 0 ≤ n → n < Sequence.lengthLimit → ∀ r : Reduction, r.result ≠ .difference →
    ∀ ss : List Shape, ss.length = n →
    (∀ i (h : i < ss.length), Item.value <$> f i = .ok (.shape ss[i])) →
    callMethod c a r.method r.operands =
      if Shape.mixes ss then .error (.mixedDimensions r.result)
        else .ok (.new (.shape (.combination r.result ss)))
  reduce_fault : 0 ≤ n → n < Sequence.lengthLimit → ∀ r : Reduction, r.result ≠ .difference →
    ∀ (j : Nat) e, j < n → (∀ i < j, ∃ b, f i = .ok b) → f j = .error e →
    callMethod c a r.method r.operands = .error e
  reduce_other : 0 ≤ n → n < Sequence.lengthLimit → ∀ r : Reduction, r.result ≠ .difference →
    (∀ i : Nat, i < n → ∃ b, f i = .ok b) →
    ∀ (j : Nat) b, j < n → f j = .ok b → (∀ s, b.value ≠ .shape s) →
    callMethod c a r.method r.operands = .error .noSuchMember

theorem views_of_sequence (h : a.value.sequence? c = some s) :
    Views c a s.count fun i => s.element (.whole i) where
  first k g := by
    unfold Value.eachOfFirst
    rw [h]
    simp only [Sequence.take_eq, Int.zero_add]
    rfl
  items := by rw [callMethod_items h, Sequence.items_eq]
  stops e := by
    rw [callMethod_items h, map_eq_error, Sequence.items_eq, mapM_range_eq_error]
    simp only [Int.lt_toNat]
  again := by cases callMethod c a "items" [] <;> rfl
  get i h0 hi := by rw [callMethod_get h, s.get_nonneg h0 hi]
  get_neg i hi h0 := by rw [callMethod_get h, s.get_neg h0 hi]
  get_outside i hi := by rw [callMethod_get h, s.get_outside hi]
  list h0 hlimit := by
    rw [callMethod_len h, callMethod_list h, callMethod_items h, Sequence.length_of_bounds h0 hlimit,
      Sequence.toList_of_bounds h0 hlimit]
    exact ⟨rfl, rfl⟩
  reduce h0 hlimit _ hr _ hn hss := reduction_shapes h h0 hlimit hr hn hss
  reduce_fault h0 hlimit _ hr _ _ hj hbefore he := reduction_fault h h0 hlimit hr hj hbefore he
  reduce_other h0 hlimit _ hr hok _ _ hj hb hother :=
    reduction_other h h0 hlimit hr hok hj hb hother

/-! Maps -/

def mapped (c : Context) (s : Sequence Item) (fs : List Operand) (i : Int) : Except Fault Item := do
  fs.foldlM (fun a f => f.apply c a) (← s.element (.whole i))

theorem sequence?_image (h : a.value.sequence? c = some s) (f : Operand) :
    (Value.image a f).sequence? c = some (s.map (f.apply c)) := by
  obtain ⟨o, v⟩ := a
  rw [Value.sequence?]
  exact congrArg (Option.map _) h

theorem mapped_cons (f : Operand) (fs : List Operand) (i : Int) :
    mapped c s (f :: fs) i = mapped c (s.map (f.apply c)) fs i := by
  simp only [mapped, List.foldlM_cons, Sequence.map, bind_assoc]

theorem maps_sequence (h : a.value.sequence? c = some s) (fs : List Operand) :
    ∃ b t, fs.foldlM (fun b f => callMethod c b "map" [f]) a = .ok b ∧
      b.value.sequence? c = some t ∧ t.count = s.count ∧
      ∀ i, t.element (.whole i) = mapped c s fs i := by
  induction fs generalizing a s with
  | nil => exact ⟨a, s, rfl, h, rfl, fun i => (bind_pure _).symm⟩
  | cons f fs ih =>
    obtain ⟨b, t, hb, ht, hcount, helement⟩ := ih (a := .new (.image a f)) (sequence?_image h f)
    refine ⟨b, t, ?_, ht, hcount, fun i => ?_⟩
    · rw [List.foldlM_cons, callMethod_map h]
      exact hb
    · rw [helement, mapped_cons]

/-! Copies of a shape -/

def copies (n : Int) (element : Index → Except Fault Shape) : Except Fault Item :=
  .ok (.new (.copies ⟨n, element⟩))

section
variable {x : Operand} {step : Nested}

theorem moving_eq {t : Shape} {xs : Coordinates} (hstep : x.toValue.nest c = .ok step)
    (hxs : t.coordinates step = .ok xs) (n : Int) : moving c t [x, .item (.new (.whole n))] =
      copies n (fun i => do t.translate (.vector (xs.scale (← i.narrow)))) := by
  change made (do return .copies (← t.iterTranslate (← x.toValue.nest c) (.whole n))) = _
  rw [hstep]
  change made (do return .copies (← t.iterTranslate step (.whole n))) = _
  rw [Shape.iterTranslate, hxs]
  rfl

theorem turning_eq {t : Shape} {turn : Parameter} (hstep : scalarOrList c x.toValue = .ok step)
    (hturn : t.scalarOrVector step = .ok turn) (n : Int) :
    turning c t [x, .item (.new (.whole n))] =
      copies n (fun i => do t.rotate (← Shape.turnTimes turn i)) := by
  change made (do return .copies (← t.iterRotate (← scalarOrList c x.toValue) (.whole n))) = _
  rw [hstep]
  change made (do return .copies (← t.iterRotate step (.whole n))) = _
  rw [Shape.iterRotate, hturn]
  rfl

theorem iterSquareEdge_eq (t : Shape) {d : Scalar} {y : Binary.Single} (hd : d.narrow = .ok y) :
    made (do return .copies (← t.iterSquareEdge d)) =
      copies 4 (fun i => do t.translate (← Shape.edgeOffset y i)) := by
  rw [Shape.iterSquareEdge, hd]
  rfl

end

/-- Maps on top of a sequence leave a sequence of as many elements, and all its views show the
elements after the routines, which are applied in the order of the maps. A shape moved or turned in
equal steps is such a sequence: `n` copies, each made when it is asked for, or four at the edges of
a square. -/
theorem views_of_maps (c : Context) :
    (∀ (a : Item) s, a.value.sequence? c = some s → ∀ fs : List Operand,
      ∃ b, fs.foldlM (fun b f => callMethod c b "map" [f]) a = .ok b ∧
        Views c b s.count (mapped c s fs)) ∧
    ∀ o t (x : Operand) (n : Int),
      let call := callMethod c (.mk o (.shape t))
      let count := Operand.item (.new (.whole n))
      (∀ name ∈ ["iter_translate", "iterate"], ∀ step xs,
        x.toValue.nest c = .ok step → t.coordinates step = .ok xs →
        call name [x, count] = copies n fun i => do t.translate (.vector (xs.scale (← i.narrow)))) ∧
      (∀ name ∈ ["iter_rotate", "iterate_rotate"], ∀ step turn,
        scalarOrList c x.toValue = .ok step → t.scalarOrVector step = .ok turn →
        call name [x, count] = copies n fun i => do t.rotate (← Shape.turnTimes turn i)) ∧
      (∀ name ∈ ["iter_rotate_equal", "iterate_equal_angle"],
        call name [count] = copies n fun i => do t.rotate (← Shape.equalTurn (.whole n) i)) ∧
      ∀ y, (x.toValue.toScalar c).narrow = .ok y →
        call "iter_square_edge" [x] =
          copies 4 (fun i => do t.translate (← Shape.edgeOffset y i)) := by
  constructor
  · intro a s h fs
    obtain ⟨b, t, hb, ht, hcount, helement⟩ := maps_sequence h fs
    have hviews := views_of_sequence ht
    rw [hcount, funext helement] at hviews
    exact ⟨b, hb, hviews⟩
  · intro o t x n call count
    simp only [List.forall_mem_cons, List.not_mem_nil, false_implies, implies_true, and_true]
    exact ⟨⟨fun _ _ h h' => moving_eq h h' n, fun _ _ h h' => moving_eq h h' n⟩,
      ⟨fun _ _ h h' => turning_eq h h' n, fun _ _ h h' => turning_eq h h' n⟩, ⟨rfl, rfl⟩,
      fun _ h => iterSquareEdge_eq t h⟩

def brokenCircles : Sequence Shape :=
  ⟨3, fun i => if i = .whole 1 then .error .textForNumber else .ok (.circle .nan)⟩

theorem views_of_maps_broken :
    let c := Context.of #[]
    let hull := Operand.routine [.mk "hull" []] 1 none
    let circle : Item := .new (.shape (.circle .nan))
    (∃ b, [hull].foldlM (fun b f => callMethod c b "map" [f]) (.new (.copies brokenCircles)) =
        .ok b ∧
      callMethod c b "get" [.item (.new (.whole (-1)))] =
        .ok (.new (.shape (.combination .hull [.circle .nan]))) ∧
      callMethod c b "get" [.item (.new (.whole (-4)))] = .error (.index "-4") ∧
      callMethod c b "items" [] = .error .textForNumber ∧
      callMethod c b "product" [] = .error .textForNumber) ∧
    callMethod c circle "iter_rotate_equal" [.item (.new (.whole 2))] =
      copies 2 (fun i => do Shape.rotate (.circle .nan) (← Shape.equalTurn (.whole 2) i)) := by
  intro c hull circle
  obtain ⟨hmaps, hcopies⟩ := views_of_maps c
  constructor
  · obtain ⟨b, hb, hviews⟩ := hmaps (.new (.copies brokenCircles)) _ rfl [hull]
    have hfirst : ∀ i : Nat, i < 1 → ∃ a, mapped c
        (brokenCircles.map fun u => .ok (.new (.shape u))) [hull] i = .ok a := by
      intro i hi
      obtain rfl : i = 0 := by omega
      exact ⟨_, rfl⟩
    refine ⟨b, hb, hviews.get_neg (-1) (by decide) (by decide),
      hviews.get_outside (-4) (by decide), ?_, ?_⟩
    · exact (hviews.stops _).2 ⟨1, by decide, hfirst, rfl⟩
    · exact hviews.reduce_fault (by decide) (by decide) .product nofun 1 _ (by decide) hfirst rfl
  · obtain ⟨-, -, hequal, -⟩ := hcopies none (.circle .nan) (.item circle) 2
    exact hequal "iter_rotate_equal" (by decide)

end SolidScript.Script
