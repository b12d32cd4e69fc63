import SolidScript.Proofs.Binary.Scaling
import SolidScript.Proofs.Script.Views
import SolidScript.Proofs.Shape.Calls
import SolidScript.Proofs.Shape.EqualTurns

/-!
# Copies around a full turn

The copies of a shape around a full turn are as many as the whole part of the count, and the step
between them is the full turn divided by the count as it was given.
-/

set_option autoImplicit false

attribute [local instance (10000)] instPowNat

namespace SolidScript
open Binary Format

/-! Counts -/

/-- A count is a whole number, a truth value or a finite double, which may have a fraction. -/
def Scalar.IsCount : Scalar → Prop
  | .whole _ | .truth _ => True
  | .double x => x.isFinite = true
  | .absent | .single _ | .text _ | .foreign _ => False

namespace Scalar

variable {n : Scalar} {m : Int} {d : Double}

theorem apply_double (op : Arithmetic) (x : Double) (hn : n.IsCount) (hd : n.toDouble = .ok d) :
    op.apply (.double x) n = Scalar.double <$> op.double x d := by
  have hresult : (do return double (← op.double x d)) = double <$> op.double x d := by
    cases op.double x d <;> rfl
  cases n with
  | whole _ | double _ =>
    rw [Arithmetic.apply, operand, operand, ok_bind, ok_bind]
    simp only [hd]
    exact hresult
  | truth b =>
    rw [toDouble_truth] at hd
    rw [Arithmetic.apply, operand, operand, ok_bind, ok_bind]
    simp only [hd]
    exact hresult
  | _ => exact hn.elim

theorem IsCount.units (hn : n.IsCount) (hm : n.toInt = .ok m) (hd : n.toDouble = .ok d)
    (h0 : 0 < m) : ∃ u hu, d = .finite false u hu ∧ FullTurn.whole m.toNat ≤ u := by
  have hwhole : ∀ i : Int, i = m → (whole i).toDouble = .ok d →
      ∃ u hu, d = .finite false u hu ∧ FullTurn.whole m.toNat ≤ u := by
    rintro i rfl hd
    lift i to Nat using h0.le
    obtain ⟨hd, hfinite⟩ := toDouble_whole_eq_ok.1 hd
    rw [hd]
    exact ⟨_, _, FullTurn.ofInt_whole (FullTurn.whole_lt hfinite), Nat.le_refl _⟩
  cases n with
  | whole i => exact hwhole i (Except.ok.inj hm) hd
  | truth b => exact hwhole b.toInt (Except.ok.inj hm) (toDouble_truth b ▸ hd)
  | double x =>
    obtain rfl := Except.ok.inj hd
    have htruncate : x.truncate? = some m := by
      rw [toInt, truncate] at hm
      split at hm
      · cases hm
        assumption
      · cases hm
    obtain ⟨u, hu, rfl, hle⟩ := Number.le_units_of_truncate htruncate h0
    refine ⟨u, hu, rfl, ?_⟩
    apply round_le_of_fits FullTurn.one_lt_double hu (by decide)
    rwa [Nat.mul_one]
  | _ => exact hn.elim

theorem IsCount.toInt_eq_ok (hn : n.IsCount) : ∃ m, n.toInt = .ok m := by
  cases n with
  | double x =>
    cases x with
    | finite s u hu => exact ⟨_, rfl⟩
    | _ => cases hn
  | whole i => exact ⟨i, rfl⟩
  | truth b => exact ⟨_, rfl⟩
  | _ => exact hn.elim

theorem IsCount.toDouble_eq_ok (hn : n.IsCount) (hm : n.toInt = .ok m) (h0 : 0 ≤ m)
    (hlimit : m ≤ 2 ^ 63) : ∃ d, n.toDouble = .ok d := by
  cases n with
  | double x => exact ⟨x, rfl⟩
  | whole i =>
    obtain rfl := Except.ok.inj hm
    lift i to Nat using h0
    have hfinite := FullTurn.isFinite_ofInt (n := i) (by omega)
    exact ⟨_, toDouble_whole_eq_ok.2 ⟨rfl, hfinite⟩⟩
  | truth b => exact ⟨_, rfl⟩
  | _ => exact hn.elim

theorem IsCount.toDouble_eq (hn : n.IsCount) (hd : n.toDouble = .ok d) (h : n.IsWhole m)
    (h0 : 0 < m) : d = .ofInt m := by
  cases n with
  | double x =>
    obtain rfl := Except.ok.inj hd
    exact Number.IsWhole.eq_ofInt h h0
  | whole i =>
    obtain rfl := h
    exact (toDouble_whole_eq_ok.1 hd).1
  | truth b =>
    obtain rfl := h
    rw [toDouble_truth] at hd
    exact (toDouble_whole_eq_ok.1 hd).1
  | _ => exact hn.elim

end Scalar

/-! Copies -/

namespace Shape

def turned (s : Shape) (x : Single) : Shape := operator .rotate [.scalar (.single x)] s

variable {s : Shape} {n : Scalar} {d : Double}

theorem rotate_double (hs : ∀ ps child, s ≠ operator .rotate ps child) (y : Double) :
    s.rotate (.scalar (.double y)) = .ok (s.turned y.convert) := by
  rw [rotate_other hs]
  rfl

theorem equalTurn_whole (hn : n.IsCount) (hd : n.toDouble = .ok d) (h0 : d.isZero = false)
    {i : Int} (hi : (Number.ofInt i : Double).isFinite = true) :
    equalTurn n (.whole i) = .ok (.scalar (.double (.ofInt 360 / d * .ofInt i))) := by
  have hquotient : Scalar.div (.double (.ofInt 360)) n = .ok (.double (.ofInt 360 / d)) := by
    rw [Scalar.div, Scalar.apply_double _ _ hn hd]
    change Scalar.double <$> Scalar.doubleQuotient _ d = _
    rw [Scalar.doubleQuotient, h0]
    rfl
  have hmultiple : Scalar.mul (.double (.ofInt 360 / d)) (.whole i) =
      .ok (.double (.ofInt 360 / d * .ofInt i)) := by
    have hcount : (Scalar.whole i).IsCount := trivial
    rw [Scalar.mul, Scalar.apply_double _ _ hcount (Scalar.toDouble_whole_eq_ok.2 ⟨rfl, hi⟩)]
    rfl
  rw [Index.whole, equalTurn, equalAngle, hquotient, ok_bind, hmultiple, ok_bind]
  rfl

end Shape

namespace Script

variable {c : Context} {o : Option Origin} {s : Shape} {n : Scalar} {m : Int} {d : Double}

section
variable (q : Sequence Shape)

def copyItems : Sequence Item := q.map fun t => .ok (.new (.shape t))

theorem get_copies {t : Shape} {i : Int} (h0 : 0 ≤ i) (hi : i < q.count)
    (ht : q.element (.whole i) = .ok t) :
    callMethod c (.new (.copies q)) "get" [.item (.new (.whole i))] = .ok (.new (.shape t)) := by
  rw [callMethod_get rfl]
  change (copyItems q).get (.whole i) = _
  rw [(copyItems q).get_nonneg h0 hi]
  simp only [copyItems, Sequence.map, ht]
  rfl

theorem len_copies :
    callMethod c (.new (.copies q)) "len" [] = (fun n => .new (.whole n)) <$> q.length :=
  callMethod_len (s := copyItems q) rfl

end

def turns (s : Shape) (n : Scalar) (m : Int) : Sequence Shape :=
  ⟨m, fun i => do s.rotate (← Shape.equalTurn n i)⟩

theorem callMethod_equal (hm : n.toInt = .ok m) :
    callMethod c (.mk o (.shape s)) "iter_rotate_equal" [.item (.new (.scalar n))] =
      .ok (.new (.copies (turns s n m))) := by
  change Command.made (do return .copies (← s.iterRotateEqual n)) = _
  rw [Shape.iterRotateEqual, hm]
  rfl

theorem turns_element (hs : ∀ ps child, s ≠ .operator .rotate ps child) (hn : n.IsCount)
    (hm : n.toInt = .ok m) (hd : n.toDouble = .ok d) {i : Int} (h0 : 0 ≤ i) (hi : i < m) :
    (turns s n m).element (.whole i) = .ok (s.turned (partOfTurn d (.ofInt i))) := by
  obtain ⟨u, hu, rfl, hle⟩ := hn.units hm hd (by omega)
  lift i to Nat using h0
  have hfinite : (Number.ofInt (i : Int) : Double).isFinite = true := by
    have hmono := FullTurn.whole_mono (by omega : i ≤ m.toNat)
    rw [FullTurn.ofInt_whole ((hmono.trans hle).trans_lt hu.2)]
    rfl
  have hzero : (Number.finite false u hu : Double).isZero = false := by
    have hone := (FullTurn.two_pow_le_whole (by omega : 0 < m.toNat)).trans hle
    have := Nat.two_pow_pos double.scale
    exact beq_false_of_ne (by omega)
  change (do s.rotate (← Shape.equalTurn n (.whole i))) = _
  rw [Shape.equalTurn_whole hn hd hzero hfinite, ok_bind, Shape.rotate_double hs, partOfTurn]

/-- In a turn of up to `2 ^ 18` parts every angle is the number nearest to the exact one, so they
go up from zero and stay below the full turn. Whatever the count, as long as there is a double of
it, they do not go down, and none is above the full turn. -/
theorem equal_turns (c : Context) (o : Option Origin) {s : Shape}
    (hs : ∀ ps child, s ≠ .operator .rotate ps child) :
    let call (n : Scalar) :=
      callMethod c (.mk o (.shape s)) "iter_rotate_equal" [.item (.new (.scalar n))]
    let get (a : Item) (i : Int) := callMethod c a "get" [.item (.new (.whole i))]
    (∀ n : Int, 1 ≤ n → n ≤ 2 ^ 18 → ∃ a, call (.whole n) = .ok a ∧
      (∀ i, 0 ≤ i → i < n →
        get a i = .ok (.new (.shape (s.turned (partOfTurn (.ofInt n) (.ofInt i)))))) ∧
      EvenlySpaced n fun i => partOfTurn (.ofInt n) (.ofInt i)) ∧
    ∀ n d, n.IsCount → n.toDouble = .ok d → ∃ m a, n.toInt = .ok m ∧ call n = .ok a ∧
      (∀ i, 0 ≤ i → i < m → get a i = .ok (.new (.shape (s.turned (partOfTurn d (.ofInt i)))))) ∧
      ∀ i j, 0 ≤ i → i ≤ j → j < m →
        (partOfTurn d (.ofInt i)).le (partOfTurn d (.ofInt j)) ∧
          (partOfTurn d (.ofInt j)).le (.ofInt 360) := by
  intro call get
  have hget : ∀ {n : Scalar} {m d}, n.IsCount → n.toInt = .ok m → n.toDouble = .ok d →
      ∀ i, 0 ≤ i → i < m → get (.new (.copies (turns s n m))) i =
        .ok (.new (.shape (s.turned (partOfTurn d (.ofInt i))))) := by
    intro n m d hn hm hd i h0 hi
    exact get_copies _ h0 hi (turns_element hs hn hm hd h0 hi)
  constructor
  · intro n h0 hn
    have hcount : (Scalar.whole n).IsCount := trivial
    have hm : (Scalar.whole n).toInt = .ok n := rfl
    have hd : (Scalar.whole n).toDouble = .ok (.ofInt n) := by
      lift n to Nat using by omega
      exact Scalar.toDouble_whole_eq_ok.2 ⟨rfl, FullTurn.isFinite_ofInt (by omega)⟩
    exact ⟨_, callMethod_equal hm, hget hcount hm hd, evenlySpaced h0 hn⟩
  · intro n d hn hd
    obtain ⟨m, hm⟩ := hn.toInt_eq_ok
    refine ⟨m, _, hm, callMethod_equal hm, hget hn hm hd, fun i j h0 hij hj => ?_⟩
    obtain ⟨u, hu, rfl, hle⟩ := hn.units hm hd (by omega)
    lift i to Nat using h0
    lift j to Nat using by omega
    exact FullTurn.angles_ordered hu hle (by omega) (by omega) (by omega)

theorem equal_turns_seven :
    let c := Context.of #[]
    let circle : Shape := .circle (.ofInt 1)
    ∃ a x, callMethod c (.new (.shape circle)) "iter_rotate_equal" [.item (.new (.whole 7))] =
        .ok a ∧
      callMethod c a "get" [.item (.new (.whole 3))] = .ok (.new (.shape (circle.turned x))) ∧
      x.toBits = 0x431A4925 ∧
      EvenlySpaced 7 fun i => partOfTurn (.ofInt 7) (.ofInt i) := by
  intro c circle
  obtain ⟨hwhole, -⟩ := equal_turns c none (s := circle) nofun
  obtain ⟨a, hcall, hget, hangles⟩ := hwhole 7 (by decide) (by decide)
  exact ⟨a, _, hcall, hget 3 (by decide) (by decide), by decide +kernel, hangles⟩

theorem length_eq_ok {α : Type} {q : Sequence α} {m : Int} (h : q.length = .ok m) :
    m = q.count ∧ m < Sequence.lengthLimit := by
  unfold Sequence.length at h
  split at h
  · cases h
  split at h
  · cases h
  · cases h
    omega

/-- Among as many copies as there are, the step is the full turn divided by the count as it was
given, which is their number only if the count is whole. -/
theorem turn_of_count (c : Context) (o : Option Origin) {s : Shape}
    (hs : ∀ ps child, s ≠ .operator .rotate ps child) {n : Scalar} (hn : n.IsCount) :
    ∃ a, callMethod c (.mk o (.shape s)) "iter_rotate_equal" [.item (.new (.scalar n))] = .ok a ∧
      ∀ m, callMethod c a "len" [] = .ok (.new (.whole m)) → 1 ≤ m →
        n.toInt = .ok m ∧ ∃ d, n.toDouble = .ok d ∧ (n.IsWhole m → d = .ofInt m) ∧
          ∀ i, 0 ≤ i → i < m → callMethod c a "get" [.item (.new (.whole i))] =
            .ok (.new (.shape (s.turned (partOfTurn d (.ofInt i))))) := by
  obtain ⟨k, hk⟩ := hn.toInt_eq_ok
  refine ⟨_, callMethod_equal hk, fun m hlen hpos => ?_⟩
  rw [len_copies, map_eq_ok] at hlen
  obtain ⟨_, hlength, hvalue⟩ := hlen
  cases hvalue
  obtain ⟨hcount, hlimit⟩ := length_eq_ok hlength
  obtain rfl : m = k := hcount
  obtain ⟨d, hd⟩ := hn.toDouble_eq_ok hk (by omega) hlimit.le
  refine ⟨hk, d, hd, fun hwhole => hn.toDouble_eq hd hwhole (by omega), fun i h0 hi => ?_⟩
  exact get_copies _ h0 hi (turns_element hs hn hk hd h0 hi)

theorem turned_inj {x y : Single} (h : (.ok (.new (.shape (s.turned x))) : Except Fault Item) =
    .ok (.new (.shape (s.turned y)))) : x = y := by
  cases h
  rfl

def twoAndAHalf : Double := .ofInt 5 / .ofInt 2

theorem isCount_twoAndAHalf : (Scalar.double twoAndAHalf).IsCount := by
  change twoAndAHalf.isFinite = true
  decide +kernel

theorem toInt_twoAndAHalf : (Scalar.double twoAndAHalf).toInt = .ok 2 := by decide +kernel

theorem turn_of_count_fraction :
    let c := Context.of #[]
    let circle : Shape := .circle (.ofInt 1)
    ∃ a, callMethod c (.new (.shape circle)) "iter_rotate_equal"
        [.item (.new (.scalar (.double twoAndAHalf)))] = .ok a ∧
      callMethod c a "len" [] = .ok (.new (.whole 2)) ∧
      callMethod c a "get" [.item (.new (.whole 1))] =
        .ok (.new (.shape (circle.turned (.ofInt 144)))) := by
  intro c circle
  obtain ⟨a, hcall, helements⟩ := turn_of_count c none (s := circle) nofun isCount_twoAndAHalf
  have hlen : callMethod c a "len" [] = .ok (.new (.whole 2)) := by
    rw [callMethod_equal toInt_twoAndAHalf] at hcall
    cases hcall
    rw [len_copies]
    rfl
  obtain ⟨-, d, hd, -, hget⟩ := helements 2 hlen (by decide)
  obtain rfl : twoAndAHalf = d := Except.ok.inj hd
  have hangle : partOfTurn twoAndAHalf (.ofInt 1) = .ofInt 144 := by decide +kernel
  exact ⟨a, hcall, hlen, hangle ▸ hget 1 (by decide) (by decide)⟩

/-- The step is not always the full turn divided by the number of copies. -/
theorem turn_of_length_fails :
    ¬∀ (c : Context) (o : Option Origin) (s : Shape), (∀ ps child, s ≠ .operator .rotate ps child) →
      ∀ n : Scalar, n.IsCount →
      ∃ a, callMethod c (.mk o (.shape s)) "iter_rotate_equal" [.item (.new (.scalar n))] = .ok a ∧
        ∀ m, callMethod c a "len" [] = .ok (.new (.whole m)) → 1 ≤ m →
          ∀ i, 0 ≤ i → i < m → callMethod c a "get" [.item (.new (.whole i))] =
            .ok (.new (.shape (s.turned (partOfTurn (.ofInt m) (.ofInt i))))) := by
  intro h
  have hm := toInt_twoAndAHalf
  have hs : ∀ ps child, Shape.circle (.ofInt 1) ≠ .operator .rotate ps child := nofun
  obtain ⟨a, hcall, helements⟩ := h (Context.of #[]) none _ hs _ isCount_twoAndAHalf
  rw [callMethod_equal hm] at hcall
  cases hcall
  have hexpected := helements 2 (by rw [len_copies]; rfl) (by decide) 1 (by decide) (by decide)
  have helement := turns_element hs isCount_twoAndAHalf hm rfl (by decide : (0 : Int) ≤ 1)
    (by decide)
  rw [get_copies _ (by decide) (by decide) helement] at hexpected
  have hangle : partOfTurn twoAndAHalf (.ofInt 1) ≠ partOfTurn (.ofInt 2) (.ofInt 1) := by
    decide +kernel
  exact hangle (turned_inj hexpected)

end Script
end SolidScript
