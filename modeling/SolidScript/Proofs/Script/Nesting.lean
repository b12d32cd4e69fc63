import SolidScript.Proofs.Shape.Rectangular
import SolidScript.Script.Argument
import SolidScript.Script.Function

/-!
# Vectors read from values

A number, a vector or a list of such stands for a nested list. It is read as a vector exactly if
that is rectangular and has as many leaves as the size asks for, of which two may stand for three.
-/

set_option autoImplicit false

namespace SolidScript.Script

/-! Reading values -/

mutual

/-- The nested list that a number, a vector or a list of such stands for. -/
def Value.nested? : Value → Option Nested
  | .scalar s => some (.scalar s)
  | .vector xs => some (.vector xs)
  | .list items => do return .list (← nestedItems? items)
  | _ => none

def nestedItems? : List Item → Option (List Nested)
  | [] => some []
  | .mk _ v :: items => do return (← v.nested?) :: (← nestedItems? items)

end

theorem nested?_list {items : List Item} {n : Nested} :
    (Value.list items).nested? = some n ↔
      ∃ ns, nestedItems? items = some ns ∧ n = .list ns := by
  simp [Value.nested?, Option.bind_eq_some_iff, @eq_comm _ n]

theorem nestedItems?_cons {o : Option Origin} {v : Value} {items : List Item}
    {ns : List Nested} : nestedItems? (.mk o v :: items) = some ns ↔
      ∃ m ms, v.nested? = some m ∧ nestedItems? items = some ms ∧ ns = m :: ms := by
  simp [nestedItems?, Option.bind_eq_some_iff, @eq_comm _ ns]

theorem exists_cons_of_nestedItems? {item : Item} {items : List Item} {ns : List Nested}
    (h : nestedItems? (item :: items) = some ns) : ∃ m ms, ns = m :: ms := by
  obtain ⟨o, v⟩ := item
  obtain ⟨m, ms, -, -, hns⟩ := nestedItems?_cons.1 h
  exact ⟨m, ms, hns⟩

variable {c : Context}

mutual

theorem nestWithin_of_nested? : ∀ (v : Value) {fuel room : Nat} {n : Nested},
    v.nested? = some n → room < fuel → v.nestWithin c fuel room = .ok (n.cut room)
  | v, 0, _, _, _, hfuel => absurd hfuel (Nat.not_lt_zero _)
  | .scalar s, fuel + 1, room, n, h, _ => by
    obtain rfl := Option.some.inj h
    rfl
  | .vector xs, fuel + 1, room, n, h, _ => by
    obtain rfl := Option.some.inj h
    rfl
  | .list items, fuel + 1, 0, n, h, _ => by
    obtain ⟨ns, -, rfl⟩ := nested?_list.1 h
    rw [Nested.cut]
    rfl
  | .list [], fuel + 1, room + 1, n, h, _ => by
    obtain rfl := Option.some.inj h
    rfl
  | .list (item :: items), fuel + 1, room + 1, n, h, hfuel => by
    -- a list takes one level of both, so the fuel outlasts the room
    obtain ⟨ns, hns, rfl⟩ := nested?_list.1 h
    have hitems := nestItems_of_nestedItems? (item :: items) hns (Nat.lt_of_succ_lt_succ hfuel)
    obtain ⟨m, ms, rfl⟩ := exists_cons_of_nestedItems? hns
    change Value.nestItems (Value.nestWithin c fuel) room _ >>= _ = _
    rw [hitems]
    rfl

theorem nestItems_of_nestedItems? : ∀ (items : List Item) {fuel room : Nat} {ns : List Nested},
    nestedItems? items = some ns → room < fuel →
    Value.nestItems (Value.nestWithin c fuel) room (items.map (·.value)) =
      .ok (Nested.cutAll room ns)
  | [], _, _, _, h, _ => by
    obtain rfl := Option.some.inj h
    rfl
  | .mk o v :: items, fuel, room, ns, h, hfuel => by
    obtain ⟨m, ms, hm, hms, rfl⟩ := nestedItems?_cons.1 h
    have hrest := nestItems_of_nestedItems? items hms (Nat.lt_of_le_of_lt (m.cut_le room) hfuel)
    change Value.nestWithin c fuel room v >>= _ = _
    rw [nestWithin_of_nested? v hm hfuel, ok_bind]
    change Value.nestItems (Value.nestWithin c fuel) (m.cut room).2 _ >>= _ = _
    rw [hrest]
    rfl

end

theorem toVector_of_nested? {v : Value} {n : Nested} (h : v.nested? = some n)
    (size : Option Int) : v.toVector c size = n.toVector size := by
  have hnest : v.nest c = .ok (n.cut Nested.maxDepth).1 := by
    rw [Value.nest, nestWithin_of_nested? v h (Nat.lt_succ_self _)]
    rfl
  rw [Value.toVector, hnest, ok_bind, n.toVector_cut]

theorem Value.toVector_vector {size : Option Int} {xs : Coordinates}
    (h : ∀ n ∈ size, (xs.length : Int) = n) : Value.toVector c size (.vector xs) = .ok xs :=
  (toVector_of_nested? rfl size).trans (Nested.toVector_vector h)

/-! Sizes -/

def sizeValue : Option Int → Value
  | none => .absent
  | some n => .whole n

theorem isSize_sizeValue (size : Option Int) (n : Nat) :
    isSize c (sizeValue size) n = .ok (decide (size = some (n : Int))) := by
  rw [isSize]
  cases size with
  | none =>
    simp only [sizeValue, Value.absent, Value.whole, compareValues, sameScalar, sameWide]
    rfl
  | some k =>
    simp only [sizeValue, Value.whole, compareValues, sameScalar, sameWide, sameWide.sameWhole,
      Option.some.injEq]
    rfl

theorem toVector_eq_bind (v : Value) (size : Option Int) : v.toVector c size =
    (do Nested.checkLength size (Nested.promote size (← v.toVector c none))) := by
  rw [Value.toVector, Value.toVector]
  cases v.nest c with
  | error e => rfl
  | ok n =>
    rw [ok_bind, ok_bind, Nested.toVector, Nested.toVector]
    cases n.isEven with
    | false => rfl
    | true => cases n.leaves.mapM Scalar.narrow <;> rfl

theorem vectorOf_sizeValue (v : Value) (size : Option Int) :
    vectorOf c v (sizeValue size) = Value.vector <$> v.toVector c size := by
  rw [toVector_eq_bind, vectorOf]
  cases v.toVector c none with
  | error e => rfl
  | ok xs =>
    rw [ok_bind, ok_bind, isSize_sizeValue, ok_bind]
    cases size with
    | none => rfl
    | some k =>
      have hpromote : (if decide (some k = some 3) then Nested.promote (some 3) xs else xs) =
          Nested.promote (some k) xs := by
        by_cases hk : k = 3 <;> simp [Nested.promote, hk]
      change (do
        let ys := if decide (some k = some 3) then Nested.promote (some 3) xs else xs
        if ← isSize c (sizeValue (some k)) ys.length then return Value.vector ys
        else .error (.vectorLength (toString k) ys.length)) = _
      rw [hpromote]
      simp only [isSize_sizeValue, ok_bind, Nested.checkLength, Option.some.injEq,
        decide_eq_true_eq]
      split <;> rfl

def asVector (c : Context) (size : Option Int) (v : Item) : Except Fault Item :=
  callFunction c "as_vector" [.item v, .item (.new (sizeValue size))]

theorem asVector_eq (size : Option Int) (v : Item) :
    asVector c size v = (fun xs => .new (.vector xs)) <$> v.value.toVector c size := by
  change Command.made (vectorOf c v.value (sizeValue size)) = _
  rw [vectorOf_sizeValue]
  cases v.value.toVector c size <;> rfl

theorem asVector_asVector (size : Option Int) (v : Item) :
    (do asVector c size (← asVector c size v)) = asVector c size v := by
  rw [asVector_eq size v]
  cases h : v.value.toVector c size with
  | error e => rfl
  | ok xs =>
    obtain ⟨n, -, hn⟩ := bind_eq_ok.1 h
    have hread : Value.toVector c size (.vector xs) = .ok xs := by
      apply Value.toVector_vector
      rintro k rfl
      exact length_of_toVector hn
    change asVector c size (.new (.vector xs)) = _
    rw [asVector_eq]
    change _ <$> Value.toVector c size (.vector xs) = _
    rw [hread]

variable {v w : Item} {m n : Nested} {xs : Coordinates}

theorem asVector_of_not_rectangular (hv : v.value.nested? = some n)
    (hdepth : n.depth ≤ Nested.maxDepth) (h : ¬∃ e, n.Rectangular e) (size : Option Int) :
    asVector c size v = .error .uneven := by
  rw [← Nested.isEven_iff_rectangular hdepth] at h
  rw [asVector_eq, toVector_of_nested? hv, Nested.toVector, if_neg h]
  rfl

theorem asVector_of_rectangular (hv : v.value.nested? = some n)
    (hdepth : n.depth ≤ Nested.maxDepth) (h : ∃ e, n.Rectangular e)
    (hxs : n.leaves.mapM Scalar.narrow = .ok xs) (size : Option Int) :
    asVector c size v =
      (fun ys => .new (.vector ys)) <$> Nested.checkLength size (Nested.promote size xs) := by
  rw [← Nested.isEven_iff_rectangular hdepth] at h
  rw [asVector_eq, toVector_of_nested? hv, Nested.toVector, if_pos h, hxs]
  rfl

/-- Nested lists of numbers are read as a vector exactly if they are rectangular and their leaves
are as many as the size asks for, or are two where it asks for three. Only the leaves matter, and
what has been read once is read again as it is. -/
theorem vector_of_rectangle (c : Context) (hv : v.value.nested? = some n)
    (hdepth : n.depth ≤ Nested.maxDepth) (hxs : n.leaves.mapM Scalar.narrow = .ok xs)
    (size : Option Int) :
    callFunction c "as_vector" [.item v] = asVector c none v ∧
    ((¬∃ e, n.Rectangular e) → asVector c size v = .error .uneven) ∧
    ((∃ e, n.Rectangular e) →
      (size = none ∨ size = some (xs.length : Int) →
        asVector c size v = .ok (.new (.vector xs))) ∧
      (size = some 3 → xs.length = 2 →
        asVector c size v = .ok (.new (.vector (xs ++ [.zero false])))) ∧
      (∀ k, size = some k → k ≠ xs.length → ¬(k = 3 ∧ xs.length = 2) →
        asVector c size v = .error (.vectorLength (toString k) xs.length) ∧
        (Fault.vectorLength (toString k) xs.length).message? =
          some s!"Expected a vector of length {k}, got {xs.length}")) ∧
    (∀ w m, w.value.nested? = some m → m.depth ≤ Nested.maxDepth → m.leaves = n.leaves →
      (∃ e, n.Rectangular e) → (∃ e, m.Rectangular e) → asVector c size w = asVector c size v) ∧
    (do asVector c size (← asVector c size v)) = asVector c size v := by
  refine ⟨rfl, fun h => asVector_of_not_rectangular hv hdepth h size, fun h => ?_,
    fun w m hw hm hleaves hn h => ?_, asVector_asVector size v⟩
  · rw [asVector_of_rectangular hv hdepth h hxs]
    refine ⟨fun hsize => ?_, ?_, ?_⟩
    · rw [Nested.checkLength_promote_of_eq hsize]
      rfl
    · rintro rfl hlength
      rw [Nested.checkLength_promote_plane hlength]
      rfl
    · rintro k rfl hk hplane
      rw [Nested.checkLength_promote_of_ne hk hplane]
      exact ⟨rfl, rfl⟩
  · rw [asVector_of_rectangular hv hdepth hn hxs,
      asVector_of_rectangular hw hm h (hleaves ▸ hxs)]

theorem vector_of_rectangle_column :
    let v : Item := .new (.listOf [.listOf [.whole 1], .listOf [.single (.ofInt 2)]])
    asVector (.of #[]) (some 3) v =
      .ok (.new (.vector ([.ofInt 1, .ofInt 2] ++ [.zero false]))) := by
  intro v
  let n : Nested := .list [.of [.whole 1], .of [.single (.ofInt 2)]]
  have hv : v.value.nested? = some n := rfl
  have hleaves : n.leaves.mapM Scalar.narrow = .ok [.ofInt 1, .ofInt 2] := by
    simp only [n]
    decide +kernel
  have hrectangular : n.Rectangular [2, 1] := n.rectangular_of_extents? rfl
  obtain ⟨-, -, h, -⟩ := vector_of_rectangle (.of #[]) hv (by decide) hleaves (some 3)
  exact (h ⟨_, hrectangular⟩).2.1 rfl rfl

end SolidScript.Script
