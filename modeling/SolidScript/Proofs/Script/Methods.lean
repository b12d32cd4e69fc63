import SolidScript.Proofs.Script.Commands

/-!
# Methods make built shapes
-/

set_option autoImplicit false

namespace SolidScript.Script
open Binary Command Shape

variable {P : Shape → Prop} {free : Prop} {c : Context}

theorem copies_holds {r : Except Fault (Sequence Shape)}
    (h : Yields (fun q => ∀ i, Yields P (q.element i)) r) :
    Yields (Value.Holds P) (do return .copies (← r)) := by
  simp only [yields_bind, yields_pure, Value.Holds]
  exact h

theorem extending_holds {k : Kind} {s : Shape} {vs : List Value} (hs : Built free s)
    (hvs : ∀ v ∈ vs, v.Holds (Built free)) :
    Yields (Value.Holds (Built free)) (extending k s vs) := by
  simp only [extending, yields_bind, yields_pure, Value.Holds]
  intro ss hss t ht
  exact hs.extend (toShapes_holds hvs ss hss) k t ht

theorem subtracting_holds {s : Shape} {v : Value} (hs : Built free s)
    (hv : v.Holds (Built free)) : Yields (Value.Holds (Built free)) (subtracting s v) := by
  simp only [subtracting, yields_bind, yields_pure, Value.Holds]
  intro t ht u hu
  exact hs.difference (toShape_holds hv t ht) u hu

theorem combiningMethods_keep (hc : c.Keeps (Built free)) {a : Item} {s : Shape}
    (ha : a.Holds (Built free)) (hs : Built free s) :
    ∀ e ∈ combiningMethods c a s, Keeps (Built free) e.2 := by
  simp only [combiningMethods, List.forall_mem_cons]
  refine ⟨?_, ?_, ?_, ?_, ?_, ?_, ?_, ?_, ?_, ?_, ?_, ?_, by simp⟩
  · exact variadic_keeps fun vs hvs => extending_holds hs hvs
  · exact unary_keeps fun v hv => extending_holds hs (by simpa using hv)
  · exact variadic_keeps fun vs hvs => extending_holds hs hvs
  · exact unary_keeps fun v hv => extending_holds hs (by simpa using hv)
  · exact variadic_keeps fun vs hvs => extending_holds hs hvs
  · exact unary_keeps fun v hv => subtracting_holds hs hv
  · exact unary_keeps fun v hv => subtracting_holds hs hv
  · exact nullary_keeps (shape_holds hs.hull)
  · apply direct_keeps
    intro o ho
    simp only [yields_bind]
    intro b hb
    have hb := apply_holds hc ho ha b hb
    exact made_holds (extending_holds hs (by simpa using Item.holds_value.2 hb))
  · exact direct_keeps fun o ho => apply_holds hc ho ha
  · exact unary_keeps fun _ _ => shape_holds (hs.invert _)
  · exact nullary_keeps (by simp [Value.text])

theorem transformMethods_keep {s : Shape} (hs : Built free s) :
    ∀ e ∈ transformMethods c s, Keeps (Built free) e.2 := by
  simp only [transformMethods, List.forall_mem_cons]
  refine ⟨?_, ?_, ?_, ?_, ?_, ?_, ?_, ?_, by simp⟩ <;> refine unary_keeps fun v _ => ?_ <;>
    simp only [yields_bind, yields_pure, Value.Holds]
  · intro n _ t ht
    exact .translate hs ht
  · intro n _ t ht
    exact .rotate hs ht
  · intro n _ t ht
    exact .scale hs ht
  · intro n _ t ht
    exact .scaleEach hs ht
  · intro n _ t ht
    exact .mirror hs ht
  · intro k _ t ht
    exact .color hs ht
  · intro t ht
    exact .linearExtrude hs ht
  · intro t ht
    exact .rotateExtrude hs ht

theorem moving_keeps {s : Shape} (hs : Built free s) : Keeps (Built free) (moving c s) := by
  apply binary_keeps
  intro v w _ _
  rw [yields_bind]
  intro n _
  exact copies_holds (hs.iterTranslate n _)

theorem turning_keeps {s : Shape} (hs : Built free s) : Keeps (Built free) (turning c s) := by
  apply binary_keeps
  intro v w _ _
  rw [yields_bind]
  intro n _
  exact copies_holds (hs.iterRotate n _)

theorem turningEqually_keeps {s : Shape} (hs : Built free s) :
    Keeps (Built free) (turningEqually c s) :=
  unary_keeps fun _ _ => copies_holds (hs.iterRotateEqual _)

theorem arrayMethods_keep {s : Shape} (hs : Built free s) :
    ∀ e ∈ arrayMethods c s, Keeps (Built free) e.2 := by
  simp only [arrayMethods, List.forall_mem_cons]
  refine ⟨moving_keeps hs, moving_keeps hs, turning_keeps hs, turning_keeps hs,
    turningEqually_keeps hs, turningEqually_keeps hs, ?_, ?_, by simp⟩
  · exact unary_keeps fun _ _ => copies_holds (hs.iterSquareEdge _)
  · apply binary_keeps
    intro v w _ _
    simp only [yields_bind, yields_pure, Value.listOf, Value.Holds, itemsHold_iff,
      List.forall_mem_map, Item.holds_new]
    intro n _ ss hss
    exact hs.translateList n _ ss hss

theorem sequenceMethods_keep (hc : c.Keeps (Built free)) {a : Item} (ha : a.Holds (Built free)) :
    ∀ e ∈ sequenceMethods c a, Keeps (Built free) e.2 := by
  have hv : a.value.Holds (Built free) := Item.holds_value.2 ha
  have reducing_keeps : ∀ k, Keeps (Built free) (reducing c a.value k) := fun k =>
    nullary_keeps (reduce_holds hc hv)
  simp only [sequenceMethods, List.forall_mem_cons]
  refine ⟨?_, ?_, reducing_keeps _, reducing_keeps _, reducing_keeps _, reducing_keeps _,
    reducing_keeps _, reducing_keeps _, by simp⟩
  · exact direct_keeps fun o ho => by simpa using ⟨ha, ho⟩
  · exact unaryOr_keeps trivial fun _ _ => reduce_holds hc hv

mutual

theorem ofRow_holds : ∀ n : Nested, Yields (Value.Holds P) (ofRow n)
  | .scalar s => by simp [ofRow, Value.single]
  | .vector xs => by simp [ofRow]
  | .list rows => by
    simp only [ofRow]
    split
    · simp only [yields_map, Value.listOf, Value.Holds, itemsHold_iff, List.forall_mem_map,
        Item.holds_new]
      exact ofEachRow_holds rows
    · simp

theorem ofEachRow_holds : ∀ ns : List Nested,
    Yields (fun vs => ∀ v ∈ vs, Value.Holds P v) (ofEachRow ns)
  | [] => by simp [ofEachRow]
  | n :: ns => by
    simp only [ofEachRow, yields_bind, yields_pure, List.forall_mem_cons]
    intro v hv vs hvs
    exact ⟨ofRow_holds n v hv, ofEachRow_holds ns vs hvs⟩

end

theorem ofSum_holds (p : Parameter) : Yields (Value.Holds P) (ofSum p) := by
  unfold ofSum
  split
  · simp
  · exact ofRow_holds _
  all_goals exact yields_error

theorem joinComponents_holds (j : Join) (xs : Coordinates) (w : Value) :
    Yields (Value.Holds P) (joinComponents c j xs w) := by
  simp only [joinComponents, yields_bind]
  intro p _
  split
  · exact ofSum_holds _
  all_goals exact yields_error

theorem joinScalars_holds (j : Join) (x y : Scalar) :
    Yields (Value.Holds P) (joinScalars j x y) := by
  unfold joinScalars
  split <;> try split
  all_goals simp [Value.truth, Value.whole]

theorem join_holds (j : Join) {v w : Value} (hv : v.Holds P) (hw : w.Holds P) :
    Yields (Value.Holds P) (join c j v w) := by
  unfold join
  split
  · simp only [joinSingle, yields_bind]
    intro p _
    split
    · exact yields_error
    · simp [Value.single]
    · exact joinComponents_holds _ _ _
  · exact joinComponents_holds _ _ _
  · split
    · simp only [Value.Holds, itemsHold_iff, yields_ok, List.mem_append] at hv hw ⊢
      rintro a (h | h)
      · exact hv a h
      · exact hw a h
    all_goals exact yields_error
  · split <;> exact joinScalars_holds _ _ _
  · exact yields_error

theorem joining_holds {s : Shape} (j : Join) {v : Value} (hs : Built free s)
    (hv : v.Holds (Built free)) : Yields (Value.Holds (Built free)) (joining s j v) := by
  unfold joining
  split
  · exact extending_holds hs (by simpa using hv)
  · exact extending_holds hs (by simpa using hv)
  · exact extending_holds hs (by simpa using hv)
  · exact subtracting_holds hs hv

theorem joins_keep {v : Value} (hv : v.Holds (Built free)) :
    ∀ e ∈ joins c v, Keeps (Built free) e.2 := by
  intro e he
  obtain ⟨j, -, rfl⟩ := List.mem_map.1 he
  apply unary_keeps
  intro w hw
  split
  · exact joining_holds j hv hw
  · exact join_holds j hv hw

theorem itemAt_yields {α : Type} {Q : α → Prop} {as : List α} (h : ∀ a ∈ as, Q a) (i : Int) :
    Yields Q (itemAt as i) := by
  unfold itemAt
  extract_lets place
  split
  · exact yields_error
  · split
    · exact yields_ok.2 (h _ (List.mem_of_getElem? ‹_›))
    · exact yields_error

theorem listItem_yields {α : Type} {Q : α → Prop} {as : List α} (h : ∀ a ∈ as, Q a)
    (index : Value) : Yields Q (listItem as index) := by
  unfold listItem
  split
  · exact itemAt_yields h _
  · exact itemAt_yields h _
  · exact yields_error

theorem item_holds (hc : c.Keeps P) {v : Value} (hv : v.Holds P) (index : Value) :
    Yields (Item.Holds P) (item c v index) := by
  unfold item
  split
  · simp only [yields_bind]
    intro i _
    exact Sequence.get_yields (Value.sequence?_holds hc hv _ ‹_›) i
  · split
    · exact listItem_yields (by simpa using hv) index
    · exact made_holds (listItem_yields (by simp [Value.text]) index)
    · apply made_holds
      unfold component
      split <;> simp [Value.single]
    · apply made_holds
      unfold selection
      split <;> simp
    · exact yields_error

theorem probes_keep (hc : c.Keeps P) {v : Value} (hv : v.Holds P) :
    ∀ e ∈ probes c v, Keeps P e.2 := by
  simp only [probes, List.forall_mem_cons]
  refine ⟨?_, ?_, ?_, ?_, by simp⟩
  · exact direct_keeps fun o _ => item_holds hc hv o.toValue
  · apply nullary_keeps
    simp only [yields_bind, yields_pure, Value.Holds, itemsHold_iff]
    exact Value.items_holds hc hv
  · apply nullary_keeps
    simp only [yields_bind, yields_pure, Value.Holds, itemsHold_iff]
    exact Value.toList_holds hc hv
  · exact nullary_keeps (by simp [Value.whole])

theorem vectorMethods_keep (xs : Coordinates) : ∀ e ∈ vectorMethods xs, Keeps P e.2 := by
  simp only [vectorMethods, List.forall_mem_singleton]
  exact nullary_keeps (by simp [Value.single])

theorem methods_keep (hc : c.Keeps (Built free)) {a : Item} (ha : a.Holds (Built free)) :
    ∀ e ∈ methods c a, Keeps (Built free) e.2 := by
  have hv : a.value.Holds (Built free) := Item.holds_value.2 ha
  simp only [methods, List.mem_append]
  rintro e ((h | h) | h)
  · split at h
    · rename_i s hs
      rw [hs] at hv
      simp only [shapeMethods, List.mem_append] at h
      obtain (h | h) | h := h
      · exact combiningMethods_keep hc ha hv e h
      · exact transformMethods_keep hv e h
      · exact arrayMethods_keep hv e h
    · exact sequenceMethods_keep hc ha e h
    · exact sequenceMethods_keep hc ha e h
    · exact sequenceMethods_keep hc ha e h
    · simp only [List.mem_singleton] at h
      subst h
      dsimp only
      exact nullary_keeps (by simp [Value.text])
    · exact vectorMethods_keep _ e h
    · exact vectorMethods_keep _ e h
    all_goals cases h
  · exact joins_keep hv e h
  · exact probes_keep hc hv e h

theorem callMethod_holds (hc : c.Keeps (Built free)) {a : Item} (ha : a.Holds (Built free))
    {name : String} {os : List Operand} (hos : ∀ o ∈ os, o.Holds (Built free)) :
    Yields (Item.Holds (Built free)) (callMethod c a name os) := by
  unfold callMethod
  split
  · rename_i command h
    obtain ⟨_, _, h, -⟩ := List.lookup_eq_some_iff.1 h
    exact methods_keep hc ha (name, command) (by simp [h]) os hos
  · exact yields_error

end SolidScript.Script
