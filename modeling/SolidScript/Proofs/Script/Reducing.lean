import SolidScript.Proofs.Shape.Calls
import SolidScript.Proofs.Text.LowerCase
import SolidScript.Script.Argument
import SolidScript.Script.Function

/-!
# Reductions by name

A kind given by name is read in lower case, but compared as it is written with the one that cannot
be reduced.
-/

set_option autoImplicit false

namespace SolidScript

theorem Kind.read_lower (name : String) : Kind.read (Text.lower name) = Kind.read name := by
  rw [Kind.read, Text.lower_lower]
  rfl

theorem Kind.read_eq_ok {name : String} {k : Kind} :
    Kind.read name = .ok k ↔ k.name = Text.lower name := by
  unfold Kind.read
  constructor
  · intro h
    split at h
    case h_1 j hj =>
      cases h
      simpa using List.find?_some hj
    case h_2 => cases h
  · intro h
    rw [← h, Kind.ofName?_name]

namespace Script
open Command

variable {c : Context} {a : Item} {name : String} {k : Kind} {vs : List Value} {v : Value}

theorem toShapes_eq_ok {ss : List Shape} :
    vs.mapM Value.toShape = .ok ss ↔ vs = ss.map .shape := by
  have hone : ∀ {v : Value} {s : Shape}, v.toShape = .ok s ↔ v = .shape s := by
    intro v s
    cases v <;> simp [Value.toShape]
  rw [mapM_eq_ok]
  simp only [hone]
  constructor
  · intro h
    induction h with
    | nil => rfl
    | cons hv _ ih => rw [hv, ih, List.map_cons]
  · rintro rfl
    induction ss with
    | nil => exact .nil
    | cons s ss ih => exact .cons rfl ih

theorem toShapes_shapes (ss : List Shape) : (ss.map Value.shape).mapM Value.toShape = .ok ss :=
  toShapes_eq_ok.2 rfl

theorem toShapes_of_other {v : Value} (hv : v ∈ vs) (h : ∀ s, v ≠ .shape s) :
    vs.mapM Value.toShape = .error .noSuchMember := by
  have hone : ∀ {w : Value} {e : Fault}, w.toShape = .error e → e = .noSuchMember := by
    intro w e hw
    cases w <;> cases hw <;> rfl
  have hother : v.toShape = .error .noSuchMember := by
    cases v with
    | shape s => exact absurd rfl (h s)
    | _ => rfl
  obtain ⟨e, he⟩ := exists_mapM_eq_error.2 ⟨v, hv, _, hother⟩
  obtain ⟨-, w, -, -, -, hw⟩ := mapM_eq_error.1 he
  rw [he, hone hw]

theorem compose_shapes (h : Kind.read name = .ok k) (ss : List Shape) :
    compose (.scalar (.text name)) (ss.map .shape) = .shape <$> Shape.combine k ss := by
  simp only [compose, toShapes_shapes, Shape.compose, h]
  rfl

theorem compose_kind (hk : k ≠ .difference) (vs : List Value) : compose (kindValue k) vs = do
    return .shape (← Shape.combine k (← vs.mapM Value.toShape)) := by
  have hread : Kind.read k.name = .ok k := by cases k <;> rfl
  simp only [compose, kindValue, Shape.compose, hread]
  cases vs.mapM Value.toShape with
  | ok ss => rfl
  | error e => simp only [bind, Except.bind, Kind.accepts_of_ne hk, if_true]

theorem reduce_kind (hk : k ≠ .difference) (v : Value) : reduce c v (kindValue k) = do
    let vs ← v.toValues c
    let ss ← vs.mapM Value.toShape
    return .shape (← Shape.combine k ss) := by
  have hreducible : reducible (kindValue k) = .ok () := by
    cases k with
    | difference => exact absurd rfl hk
    | _ => rfl
  rw [reduce, hreducible]
  cases v.toValues c with
  | error e => rfl
  | ok vs => exact compose_kind hk vs

theorem reduce_shapes (hk : k ≠ .difference) {ss : List Shape}
    (h : v.toValues c = .ok (ss.map .shape)) :
    reduce c v (kindValue k) = .shape <$> Shape.combine k ss := by
  rw [reduce_kind hk, h]
  simp only [bind, Except.bind, toShapes_shapes]
  rfl

theorem compose_lower (name : String) (vs : List Value) :
    compose (.scalar (.text (Text.lower name))) vs = compose (.scalar (.text name)) vs := by
  simp only [compose, Shape.compose, Kind.read_lower]

theorem shapes_of_compose (h : compose (.scalar (.text name)) vs = .ok v) :
    ∃ k ss, Kind.read name = .ok k ∧ vs = ss.map .shape ∧ v = .shape (.combination k ss) := by
  cases hss : vs.mapM Value.toShape with
  | ok ss =>
    simp only [compose, hss] at h
    obtain ⟨s, hs, h⟩ := bind_eq_ok.1 h
    obtain ⟨k, hk, hs⟩ := bind_eq_ok.1 hs
    obtain ⟨-, -, rfl⟩ := Shape.combine_eq_ok.1 hs
    exact ⟨k, ss, hk, toShapes_eq_ok.1 hss, (pure_eq_ok.1 h).symm⟩
  | error e =>
    simp only [compose, hss] at h
    obtain ⟨k, -, h⟩ := bind_eq_ok.1 h
    split at h <;> cases h

def reduced (c : Context) (a : Item) (name : String) : Except Fault Item :=
  callFunction c "reduce_shapes" [.item a, .item (.new (.scalar (.text name)))]

theorem reduced_difference (c : Context) (a : Item) :
    reduced c a "difference" = .error .differenceReduction := rfl

theorem reduced_of_ne (h : name ≠ "difference") (c : Context) (a : Item) :
    reduced c a name = made (do compose (.scalar (.text name)) (← a.value.toValues c)) := by
  change made (reduce c a.value (.scalar (.text name))) = _
  rw [reduce, reducible, Shape.reducible, if_neg h]
  rfl

theorem methods_of_sequence {s : Sequence Item} (h : a.value.sequence? c = some s) :
    methods c a = sequenceMethods c a ++ joins c a.value ++ probes c a.value := by
  obtain ⟨o, v⟩ := a
  cases v with
  | copies | calls | image => rfl
  | _ => cases h

theorem callMethod_reduce {s : Sequence Item} (h : a.value.sequence? c = some s)
    (name : String) :
    callMethod c a "reduce" [.item (.new (.scalar (.text name)))] = reduced c a name := by
  rw [callMethod, methods_of_sequence h]
  rfl

theorem lower_difference : Text.lower "difference" = "difference" := by decide +kernel

theorem reduced_shapes (h : name ≠ "difference") (hk : k.name = Text.lower name) {ss : List Shape}
    (hss : a.value.toValues c = .ok (ss.map .shape)) :
    reduced c a name = (fun s => .new (.shape s)) <$> Shape.combine k ss := by
  rw [reduced_of_ne h, hss]
  change made (compose (.scalar (.text name)) (ss.map .shape)) = _
  rw [compose_shapes (Kind.read_eq_ok.2 hk)]
  cases Shape.combine k ss <;> rfl

/-- A reduction is the one by the name in lower case, whatever the spelling, and never a difference.
The spellings of `difference` in capitals are the exception: the name itself is refused, and they
combine shapes as the names of other kinds do. -/
theorem reduced_spelling (c : Context) (a : Item) :
    (∀ s name, a.value.sequence? c = some s →
      callMethod c a "reduce" [.item (.new (.scalar (.text name)))] = reduced c a name) ∧
    (∀ name, Text.lower name ≠ "difference" ∨ name = "difference" →
      reduced c a name = reduced c a (Text.lower name) ∧
      Yields (fun b => ∃ k ss, k ≠ .difference ∧ k.name = Text.lower name ∧
        a.value.toValues c = .ok (ss.map .shape) ∧ b = .new (.shape (.combination k ss)))
        (reduced c a name)) ∧
    (∀ name, Text.lower name = "difference" →
      reduced c a (Text.lower name) = .error .differenceReduction) ∧
    ∀ name (k : Kind) ss, name ≠ "difference" → k.name = Text.lower name →
      a.value.toValues c = .ok (ss.map .shape) →
      reduced c a name = (fun s => .new (.shape s)) <$> Shape.combine k ss := by
  refine ⟨fun s name hs => callMethod_reduce hs name, ?_, fun name hlower => ?_,
    fun name k ss h hk hss => reduced_shapes h hk hss⟩
  · rintro name (hlower | rfl)
    · have hne : name ≠ "difference" := by
        rintro rfl
        exact hlower lower_difference
      constructor
      · simp only [reduced_of_ne hne, reduced_of_ne hlower, compose_lower]
      · rw [reduced_of_ne hne]
        simp only [made, yields_bind, yields_pure]
        rintro v hv
        obtain ⟨vs, hvs, hv⟩ := bind_eq_ok.1 hv
        obtain ⟨k, ss, hk, rfl, rfl⟩ := shapes_of_compose hv
        refine ⟨k, ss, ?_, Kind.read_eq_ok.1 hk, hvs, rfl⟩
        rintro rfl
        exact hlower (Kind.read_eq_ok.1 hk).symm
    · rw [lower_difference]
      exact ⟨rfl, yields_error⟩
  · rw [hlower, reduced_difference]

theorem reduced_spelling_capitals :
    let c := Context.of #[]
    let circles := [Shape.circle .nan, .circle .nan]
    let a : Item := .new (.list (circles.map fun s => .new (.shape s)))
    reduced c a "Union" = reduced c a "union" ∧
      reduced c a "DIFFERENCE" = .ok (.new (.shape (.combination .difference circles))) ∧
      reduced c a (Text.lower "DIFFERENCE") = .error .differenceReduction := by
  intro c circles a
  have hunion : Text.lower "Union" = "union" := by decide +kernel
  have hdifference : Text.lower "DIFFERENCE" = "difference" := by decide +kernel
  obtain ⟨-, hsame, hrefused, hshapes⟩ := reduced_spelling c a
  refine ⟨?_, ?_, hrefused _ hdifference⟩
  · rw [(hsame "Union" (.inl (by rw [hunion]; decide))).1, hunion]
  · exact hshapes "DIFFERENCE" .difference circles (by decide) hdifference.symm rfl

/-- A square and a circle reduced to a "Difference" make one, though the name in lower case is
refused. -/
theorem reduced_capital_difference :
    let c := Context.of #[]
    let shapes := [Shape.square (.ofInt 1), .circle (.ofInt 1)]
    let a : Item := .new (.list (shapes.map fun s => .new (.shape s)))
    reduced c a "Difference" = .ok (.new (.shape (.combination .difference shapes))) ∧
      reduced c a (Text.lower "Difference") = .error .differenceReduction := by
  intro c shapes a
  have hlower : Text.lower "Difference" = "difference" := by decide +kernel
  have hvalues : a.value.toValues c = .ok (shapes.map .shape) := rfl
  constructor
  · have hname : "Difference" ≠ "difference" := by decide
    exact reduced_shapes (k := .difference) hname hlower.symm hvalues
  · rw [hlower, reduced_difference]

end Script
end SolidScript
