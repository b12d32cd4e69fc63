import SolidScript.Proofs.Binary.Multiples
import SolidScript.Proofs.Script.EqualTurns
import SolidScript.Proofs.Shape.Injective
import SolidScript.Proofs.Shape.Moved

/-!
# Copies that do not coincide

The offsets of moved copies, and the angles of turned ones, are multiples of a step, each rounded.
Among no more than `2 ^ 23` copies no two multiples of a number that is not zero are rounded to one,
and as different numbers have different texts no two copies have one script.
-/

set_option autoImplicit false

attribute [local instance (10000)] instPowNat

namespace SolidScript
open Binary

namespace Parameter

def components : Parameter → Coordinates
  | scalar (.single x) => [x]
  | vector xs => xs
  | _ => []

def times (k : Single) : Parameter → Parameter
  | scalar (.single x) => scalar (.single (x * k))
  | vector xs => vector (Coordinates.scale xs k)
  | p => p

theorem components_times (p : Parameter) (k : Single) :
    (p.times k).components = p.components.map (· * k) := by
  unfold times
  split
  · rfl
  · rfl
  · rename_i hscalar hvector
    unfold components
    split
    · exact absurd rfl (hscalar _)
    · exact absurd rfl (hvector _)
    · rfl

end Parameter

/-! Texts -/

namespace Shape

variable {o : Operation} {p q : Parameter} {s : Shape}

theorem render_operator_ne (hp : o.Takes s.dim p) (hq : o.Takes s.dim q) (hpq : p ≠ q)
    {text : List Char} (h : s.render = .ok text) :
    ∃ t u, (operator o [p] s).render = .ok t ∧ (operator o [q] s).render = .ok u ∧ t ≠ u := by
  have hs : s.render = .ok s.text := by rw [h, text_eq h]
  refine ⟨_, _, render_operator hp hs, render_operator hq hs, fun heq => hpq ?_⟩
  have hheader : o.header p.text = o.header q.text := by
    simpa only [block, List.append_assoc, List.append_cancel_right_eq] using heq
  change call o.name (argument o p) = call o.name (argument o q) at hheader
  have hargument : argument o p ++ [')'] = argument o q ++ [')'] := by
    simpa only [call, List.append_assoc, List.cons_append, List.append_cancel_left_eq,
      List.cons.injEq, true_and] using hheader
  exact (arguments_inj hp hq hargument).1

end Shape

namespace Script
open Shape

/-- The arrays of moved and of turned copies. -/
inductive Spread where
  | moves
  | turns

namespace Spread

def operation : Spread → Operation
  | moves => .translate
  | turns => .rotate

def method : Spread → String
  | moves => "iter_translate"
  | turns => "iter_rotate"

def read (c : Context) (s : Shape) (v : Value) : Spread → Except Fault Parameter
  | moves => do return .vector (← s.coordinates (← v.nest c))
  | turns => do s.scalarOrVector (← scalarOrList c v)

def copy (r : Spread) (s : Shape) (step : Parameter) (i : Int) : Shape :=
  .operator r.operation [step.times (.ofInt i)] s

variable {r : Spread} {c : Context} {o : Option Origin} {s : Shape} {step count : Item}
  {p : Parameter} {m : Int}

theorem takes {v : Value} (h : r.read c s v = .ok p) (k : Single) :
    r.operation.Takes s.dim (p.times k) := by
  cases r with
  | moves =>
    obtain ⟨n, -, h⟩ := bind_eq_ok.1 h
    obtain ⟨xs, hxs, h⟩ := bind_eq_ok.1 h
    obtain rfl := pure_eq_ok.1 h
    exact .translate (Fits.scale (length_of_coordinates hxs) k)
  | turns =>
    obtain ⟨n, -, h⟩ := bind_eq_ok.1 h
    obtain ⟨x, rfl⟩ | ⟨xs, hxs, rfl⟩ := scalarOrVector_eq_ok h
    · exact .rotate _
    · exact .rotateEach (Fits.scale (length_of_coordinates hxs) k)

theorem exists_copies (hs : ∀ ps child, s ≠ .operator r.operation ps child)
    (hp : r.read c s step.value = .ok p) (hm : (count.value.toScalar c).toInt = .ok m) :
    ∃ q : Sequence Shape, q.count = m ∧
      callMethod c (.mk o (.shape s)) r.method [.item step, .item count] =
        .ok (.new (.copies q)) ∧
      ∀ i : Nat, i ≤ 2 ^ 24 → q.element (.whole i) = .ok (r.copy s p i) := by
  have hfits := takes hp
  cases r with
  | moves =>
    obtain ⟨n, hn, h⟩ := bind_eq_ok.1 hp
    obtain ⟨xs, hxs, h⟩ := bind_eq_ok.1 h
    obtain rfl := pure_eq_ok.1 h
    refine ⟨⟨m, fun i => do s.translate (.vector (xs.scale (← i.narrow)))⟩, rfl, ?_, ?_⟩
    · change Command.made (do
        return .copies (← s.iterTranslate (← step.value.nest c) (count.value.toScalar c))) = _
      rw [hn, ok_bind, iterTranslate, hxs, ok_bind, hm]
      rfl
    · intro i hi
      change (do s.translate (.vector (xs.scale (← (Scalar.whole i).narrow)))) = _
      rw [Scalar.narrow_whole hi, ok_bind]
      cases hfits (.ofInt i) with
      | translate hfit => exact translate_of_coordinates hs (coordinates_vector hfit)
  | turns =>
    obtain ⟨n, hn, hturn⟩ := bind_eq_ok.1 hp
    refine ⟨⟨m, fun i => do s.rotate (← turnTimes p i)⟩, rfl, ?_, ?_⟩
    · change Command.made (do
        return .copies (← s.iterRotate (← scalarOrList c step.value) (count.value.toScalar c))) = _
      rw [hn, ok_bind, iterRotate, hturn, ok_bind, hm]
      rfl
    · intro i hi
      change (do s.rotate (← turnTimes p (.whole i))) = _
      have hk := Scalar.narrow_whole hi
      obtain ⟨x, rfl⟩ | ⟨xs, -, rfl⟩ := scalarOrVector_eq_ok hturn
      · rw [turnTimes_single hk, ok_bind, rotate_single hs]
        rfl
      · rw [turnTimes_vector hk, ok_bind]
        cases hfits (.ofInt i) with
        | rotateEach hfit => exact rotate_vector hs hfit

end Spread

variable {r : Spread} {s : Shape} {p : Parameter} {m : Int}

theorem components_lt {k : Nat} {x : Single} (hx : p.components[k]? = some x)
    (hfinite : x.isFinite = true) (h0 : x.isZero = false) (hle : m ≤ 2 ^ 23)
    (hlast : (x * .ofInt (m - 1)).isFinite = true) {i j : Int} (hi : 0 ≤ i) (hij : i < j)
    (hj : j < m) : ∃ y z, (p.times (.ofInt i)).components[k]? = some y ∧
      (p.times (.ofInt j)).components[k]? = some z ∧ y.magnitude.lt z.magnitude = true := by
  refine ⟨x * .ofInt i, x * .ofInt j, ?_, ?_, ?_⟩
  · rw [Parameter.components_times, List.getElem?_map, hx]
    rfl
  · rw [Parameter.components_times, List.getElem?_map, hx]
    rfl
  · obtain ⟨n, rfl⟩ : ∃ n : Nat, m = n + 1 := ⟨(m - 1).toNat, by omega⟩
    lift i to Nat using hi
    lift j to Nat using by omega
    rw [Int.add_sub_cancel] at hlast
    exact Number.magnitude_mul_lt Format.wide_single h0 hfinite (by decide) (by omega)
      (by omega : j ≤ n) (by change n < 2 ^ 23; omega) hlast

/-- No two copies of up to `2 ^ 23` coincide: in a component of the step that is neither zero nor
too large they are further and further away, so they are different shapes with different texts. -/
theorem copies_differ (c : Context) (o : Option Origin) (step count : Item)
    (hs : ∀ ps child, s ≠ .operator r.operation ps child)
    (hp : r.read c s step.value = .ok p) (hm : (count.value.toScalar c).toInt = .ok m)
    (hle : m ≤ 2 ^ 23) :
    ∃ a, callMethod c (.mk o (.shape s)) r.method [.item step, .item count] = .ok a ∧
      (∀ i, 0 ≤ i → i < m → callMethod c a "get" [.item (.new (.whole i))] =
        .ok (.new (.shape (r.copy s p i)))) ∧
      ∀ (k : Nat) x, p.components[k]? = some x → x.isFinite = true → x.isZero = false →
        (x * .ofInt (m - 1)).isFinite = true → ∀ i j, 0 ≤ i → i < j → j < m →
          (∃ y z, (p.times (.ofInt i)).components[k]? = some y ∧
            (p.times (.ofInt j)).components[k]? = some z ∧ y.magnitude.lt z.magnitude = true) ∧
          r.copy s p i ≠ r.copy s p j ∧
          ∀ text, s.render = .ok text → ∃ t u, (r.copy s p i).render = .ok t ∧
            (r.copy s p j).render = .ok u ∧ t ≠ u := by
  obtain ⟨q, rfl, hcall, helement⟩ := Spread.exists_copies (o := o) hs hp hm
  refine ⟨_, hcall, fun i h0 hi => ?_, fun k x hx hfinite h0 hlast i j hi hij hj => ?_⟩
  · lift i to Nat using h0
    exact get_copies q (by omega) hi (helement i (by omega))
  · have hcomponents := components_lt hx hfinite h0 hle hlast hi hij hj
    have hne : p.times (.ofInt i) ≠ p.times (.ofInt j) := by
      obtain ⟨y, z, hy, hz, hlt⟩ := hcomponents
      intro heq
      rw [heq, hz] at hy
      obtain rfl := Option.some.inj hy
      rw [Number.lt_irrefl] at hlt
      cases hlt
    refine ⟨hcomponents, ?_, ?_⟩
    · intro heq
      injection heq with _ hparameters _
      exact hne (List.cons.inj hparameters).1
    · intro text htext
      exact render_operator_ne (Spread.takes hp _) (Spread.takes hp _) hne htext

theorem copies_differ_three :
    let c := Context.of #[]
    let circle : Shape := .circle (.ofInt 1)
    let step : Parameter := .vector [.ofInt 1, .ofInt 0]
    ∃ a, callMethod c (.new (.shape circle)) "iter_translate"
        [.item (.new (.vector [.ofInt 1, .ofInt 0])), .item (.new (.whole 3))] = .ok a ∧
      callMethod c a "get" [.item (.new (.whole 1))] =
        .ok (.new (.shape (Spread.moves.copy circle step 1))) ∧
      ∃ t u, (Spread.moves.copy circle step 1).render = .ok t ∧
        (Spread.moves.copy circle step 2).render = .ok u ∧ t ≠ u := by
  intro c circle step
  have hp : Spread.moves.read c circle (.vector [.ofInt 1, .ofInt 0]) = .ok step := rfl
  obtain ⟨a, hcall, hget, hdiffer⟩ := copies_differ (r := .moves) (s := circle) c none
    (.new (.vector [.ofInt 1, .ofInt 0])) (.new (.whole 3)) (by simp [circle]) hp rfl (by decide)
  have hone : step.components[0]? = some (.ofInt 1) := rfl
  obtain ⟨-, -, htext⟩ := hdiffer 0 (.ofInt 1) hone (by decide +kernel) (by decide +kernel)
    (by decide +kernel) 1 2 (by decide) (by decide) (by decide)
  exact ⟨a, hcall, hget 1 (by decide) (by decide), htext _ (by rw [Shape.render])⟩

end Script
end SolidScript
