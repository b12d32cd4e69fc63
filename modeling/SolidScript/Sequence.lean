import SolidScript.Index

/-!
# Sequences

A sequence is a count and a rule that makes each element when it is asked for, so it may be longer
than any list. The elements from the first on are `items`; a negative index counts from the end.
The rule may have something to say about an index between two whole numbers, too.
-/

set_option autoImplicit false

namespace SolidScript

structure Sequence (α : Type) where
  count : Int
  element : Index → Except Fault α

namespace Sequence

variable {α β : Type}

def map (f : α → Except Fault β) (s : Sequence α) : Sequence β :=
  ⟨s.count, fun i => do f (← s.element i)⟩

def get (s : Sequence α) (i : Index) : Except Fault α := do
  if ← i.inside s.count then s.element (← i.wrap s.count) else .error (.index i.plain)

/-- The next `n` elements from index `i` on, up to the first that fails. -/
def take (s : Sequence α) (i : Int) : Nat → Except Fault (List α)
  | 0 => .ok []
  | n + 1 => do return (← s.element (.whole i)) :: (← s.take (i + 1) n)

def items (s : Sequence α) : Except Fault (List α) := s.take 0 s.count.toNat

def lengthLimit : Int := 9223372036854775808

def length (s : Sequence α) : Except Fault Int :=
  if s.count < 0 then .error .negativeLength
  else if lengthLimit ≤ s.count then .error .lengthTooLarge
  else .ok s.count

def toList (s : Sequence α) : Except Fault (List α) := do
  let _ ← s.length
  s.items

theorem get_whole (s : Sequence α) (i : Int) :
    s.get (.whole i) = if -s.count ≤ i ∧ i < s.count then s.element (.whole (i % s.count))
      else .error (.index (toString i)) := by
  simp only [get, Index.whole, Index.inside, Index.wrap, Index.plain, Scalar.plain, bind,
    Except.bind, ← Bool.decide_and, decide_eq_true_eq]

theorem get_nonneg (s : Sequence α) {i : Int} (h0 : 0 ≤ i) (h : i < s.count) :
    s.get (.whole i) = s.element (.whole i) := by
  rw [get_whole, if_pos ⟨by omega, h⟩, Int.emod_eq_of_lt h0 h]

theorem get_neg (s : Sequence α) {i : Int} (h0 : i < 0) (h : -s.count ≤ i) :
    s.get (.whole i) = s.element (.whole (s.count + i)) := by
  rw [get_whole, if_pos ⟨h, by omega⟩, ← Int.add_emod_right, Int.emod_eq_of_lt (by omega)
    (by omega), Int.add_comm]

theorem get_outside (s : Sequence α) {i : Int} (h : ¬(-s.count ≤ i ∧ i < s.count)) :
    s.get (.whole i) = .error (.index (toString i)) := by
  rw [get_whole, if_neg h]

end Sequence
end SolidScript
