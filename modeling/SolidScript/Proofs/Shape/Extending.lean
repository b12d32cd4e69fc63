import SolidScript.Proofs.Shape.Merging

/-!
# Laws of extending and reducing

Operands that a combination takes in several calls are the operands of one. Reducing a list and
adding to the result is reducing the longer list, and the hull of a union is the hull of its parts.
The receiver gives its children or itself, and every operand is one child, whatever it is.
-/

set_option autoImplicit false

namespace SolidScript
namespace Shape

variable {k : Kind} {s : Shape} {ss xs ys : List Shape}

theorem mixes_append_of_mixes (h : mixes xs = true) (ys : List Shape) :
    mixes (xs ++ ys) = true := by
  rw [mixes_iff] at h ⊢
  simp only [List.map_append, List.mem_append]
  exact ⟨.inl h.1, .inl h.2⟩

theorem operands_combination (k : Kind) (ss : List Shape) : (combination k ss).operands k = ss :=
  if_pos rfl

theorem operands_other (h : ∀ ss, s ≠ combination k ss) : s.operands k = [s] := by
  unfold operands
  split
  · rename_i k' ss
    split
    · rename_i hk
      subst hk
      exact absurd rfl (h ss)
    · rfl
  · rfl

theorem combine_extend (hk : k ≠ .difference) (xs ys : List Shape) :
    (combine k xs >>= fun t => t.extend k ys) = combine k (xs ++ ys) := by
  rw [combine_of_ne hk xs]
  by_cases h : mixes xs = true
  · rw [if_pos h, combine_of_ne hk, if_pos (mixes_append_of_mixes h ys)]
    rfl
  · rw [if_neg h]
    change combine k ((combination k xs).operands k ++ ys) = _
    rw [operands_combination]

theorem extend_extend (hk : k ≠ .difference) (s : Shape) (xs ys : List Shape) :
    (s.extend k xs >>= fun t => t.extend k ys) = s.extend k (xs ++ ys) := by
  unfold extend
  rw [← List.append_assoc]
  exact combine_extend hk _ ys

theorem combine_foldlM_extend (hk : k ≠ .difference) (xss : List (List Shape))
    (ss : List Shape) : (combine k ss >>= fun s => xss.foldlM (fun t xs => t.extend k xs) s) =
      combine k (ss ++ xss.flatten) := by
  induction xss generalizing ss with
  | nil => simp
  | cons xs xss ih =>
    simp only [List.foldlM_cons, List.flatten_cons]
    rw [← bind_assoc, combine_extend hk, ih, List.append_assoc]

theorem foldlM_extend (hk : k ≠ .difference) {xss : List (List Shape)} (hne : xss ≠ [])
    (s : Shape) : xss.foldlM (fun t xs => t.extend k xs) s = s.extend k xss.flatten := by
  obtain ⟨xs, xss, rfl⟩ := List.exists_cons_of_ne_nil hne
  rw [List.foldlM_cons, List.flatten_cons]
  refine (combine_foldlM_extend hk xss (s.operands k ++ xs)).trans ?_
  rw [List.append_assoc]
  rfl

theorem foldlM_extend_singleton (hk : k ≠ .difference) (hne : xs ≠ []) (s : Shape) :
    xs.foldlM (fun t x => t.extend k [x]) s = s.extend k xs := by
  have h := foldlM_extend hk (show xs.map (fun x => [x]) ≠ [] by simpa using hne) s
  rwa [List.foldlM_map, ← List.flatMap_def, List.flatMap_singleton'] at h

theorem reduce_name (hk : k ≠ .difference) (ss : List Shape) :
    reduce k.name ss = combine k ss := by
  cases k with
  | difference => exact absurd rfl hk
  | _ => rfl

/-- The hull of a union is that of its children. Only the faults have different names. -/
theorem combine_union_hull (ss : List Shape) (t : Shape) :
    (combine .union ss >>= hull) = .ok t ↔ combine .hull ss = .ok t := by
  rw [combine_of_ne (k := .union) nofun, combine_of_ne (k := .hull) nofun]
  by_cases h : mixes ss = true
  · rw [if_pos h, if_pos h]
    exact ⟨nofun, nofun⟩
  · rw [if_neg h, if_neg h]
    change combine .hull ((combination .union ss).operands .union) = _ ↔ _
    rw [operands_combination, combine_of_ne (k := .hull) nofun, if_neg h]

end Shape

theorem Extension.ne_difference (e : Extension) : e.kind ≠ .difference := by
  cases e <;> nofun

theorem Builder.merging_extend (e : Extension) (s : Shape) (xs : List Shape) :
    Builder.merging.extend e s xs = s.extend e.kind xs := by
  cases e <;> rfl

namespace Shape

/-- Unions, intersections and Minkowski sums take operands in several calls as in one, and one by
one if there are any. A list that was reduced takes more as a longer list does, and the hull of its
union is its hull. A call fails if and only if what it puts together mixes dimensions; otherwise the
receiver's children, or the receiver, come first, and each operand is one child. -/
theorem extension_laws (e : Extension) :
    let call := Builder.merging.extend e
    (∀ s xs ys, (call s xs >>= fun t => call t ys) = call s (xs ++ ys)) ∧
    (∀ s xs, xs ≠ [] → xs.foldlM (fun t x => call t [x]) s = call s xs) ∧
    (∀ xs ys, (reduce e.kind.name xs >>= fun t => call t ys) = reduce e.kind.name (xs ++ ys)) ∧
    (∀ xs t, (reduce Kind.union.name xs >>= hull) = .ok t ↔ reduce Kind.hull.name xs = .ok t) ∧
    (∀ ss xs, call (combination e.kind ss) xs =
      if mixes (ss ++ xs) then .error (.mixedDimensions e.kind)
        else .ok (combination e.kind (ss ++ xs))) ∧
    ∀ s xs, (∀ ss, s ≠ combination e.kind ss) → call s xs =
      if mixes (s :: xs) then .error (.mixedDimensions e.kind)
        else .ok (combination e.kind (s :: xs)) := by
  intro call
  have hcall : ∀ s xs, call s xs = s.extend e.kind xs := Builder.merging_extend e
  have hk := e.ne_difference
  simp only [hcall, reduce_name hk, reduce_name (k := .union) nofun,
    reduce_name (k := .hull) nofun]
  refine ⟨extend_extend hk, fun s xs hne => foldlM_extend_singleton hk hne s, combine_extend hk,
    combine_union_hull, fun ss xs => ?_, fun s xs h => ?_⟩
  · rw [extend, operands_combination, combine_of_ne hk]
  · rw [extend, operands_other h, combine_of_ne hk]
    rfl

theorem extension_laws_nested :
    let nothing := combination .union []
    [nothing, .circle .nan].foldlM (fun t x => t.union [x]) nothing =
        .ok (combination .union [nothing, .circle .nan]) ∧
      (.circle .nan : Shape).union [nothing] = .ok (combination .union [.circle .nan, nothing]) := by
  obtain ⟨-, hone, -, -, hsame, hother⟩ := extension_laws .union
  constructor
  · exact (hone (combination .union []) _ (by simp)).trans (hsame [] _)
  · exact hother (.circle .nan) [combination .union []] (by simp)

end Shape
end SolidScript
