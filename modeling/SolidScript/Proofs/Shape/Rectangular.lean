import SolidScript.Proofs.Shape.Calls

/-!
# Rectangular nested lists

A nested list is even exactly if it is rectangular: all items of a list have one shape. A reader
gives up a list that is nested deeper than a number before it; since what holds such a list is not
rectangular, it is read as if nothing had been given up.
-/

set_option autoImplicit false

namespace SolidScript

namespace Nested

/-! Rectangles -/

/-- A nested list of a shape, given by the lengths of the lists at each depth. -/
inductive Rectangular : Nested → List Nat → Prop
  | scalar (s : Scalar) : Rectangular (scalar s) []
  | vector (xs : Coordinates) : Rectangular (vector xs) [xs.length]
  | empty : Rectangular (list []) [0]
  | list {items : List Nested} {e : List Nat} (hne : items ≠ [])
      (h : ∀ n ∈ items, Rectangular n e) : Rectangular (list items) (items.length :: e)

mutual

def depth : Nested → Nat
  | scalar _ => 0
  | vector _ => 1
  | list items => depthOf items + 1

def depthOf : List Nested → Nat
  | [] => 0
  | item :: items => max item.depth (depthOf items)

end

theorem depth_le_depthOf {n : Nested} {items : List Nested} (h : n ∈ items) :
    n.depth ≤ depthOf items := by
  induction items with
  | nil => cases h
  | cons item items ih =>
    rw [depthOf]
    obtain rfl | h := List.mem_cons.1 h
    · exact Nat.le_max_left ..
    · exact Nat.le_trans (ih h) (Nat.le_max_right ..)

theorem Rectangular.length_le_depth {n : Nested} {e : List Nat} (h : n.Rectangular e) :
    e.length ≤ n.depth := by
  induction h with
  | scalar s => exact Nat.le_refl 0
  | vector xs => exact Nat.le_refl 1
  | empty => exact Nat.le_refl 1
  | @list items e hne _ ih =>
    obtain ⟨n, hn⟩ := List.exists_mem_of_ne_nil items hne
    rw [depth, List.length_cons]
    exact Nat.succ_le_succ (Nat.le_trans (ih n hn) (depth_le_depthOf hn))

/-! Extents -/

theorem extentsOf?_eq_some {items : List Nested} {es : List (List Nat)} :
    extentsOf? items = some es ↔ List.Forall₂ (fun n e => n.extents? = some e) items es := by
  induction items generalizing es with
  | nil => simp [extentsOf?, eq_comm]
  | cons n items ih =>
    simp only [extentsOf?, Option.bind_eq_bind, Option.bind_eq_some_iff, Option.pure_def,
      Option.some.injEq, ih, List.forall₂_cons_left_iff]
    constructor
    · rintro ⟨e, he, es, hes, rfl⟩
      exact ⟨e, es, he, hes, rfl⟩
    · rintro ⟨e, es, he, hes, rfl⟩
      exact ⟨e, he, es, hes, rfl⟩

theorem extents?_of_forall₂ {items : List Nested} {es : List (List Nat)} {d : List Nat}
    (h : List.Forall₂ (fun n e => n.extents? = some e) items es) (hd : ∀ e ∈ es, e = d) :
    ∀ n ∈ items, n.extents? = some d := by
  induction h with
  | nil => nofun
  | cons hn _ ih =>
    rw [List.forall_mem_cons] at hd ⊢
    exact ⟨hd.1 ▸ hn, ih hd.2⟩

theorem common?_eq_some {es : List (List Nat)} {e : List Nat} (hne : es ≠ []) :
    common? es = some e ↔ ∀ d ∈ es, d = e := by
  cases es with
  | nil => exact absurd rfl hne
  | cons d ds =>
    simp only [common?, List.all_eq_true, decide_eq_true_eq, Option.ite_none_right_eq_some,
      Option.some.injEq, List.mem_cons, forall_eq_or_imp]
    constructor
    · rintro ⟨h, rfl⟩
      exact ⟨rfl, h⟩
    · rintro ⟨rfl, h⟩
      exact ⟨h, rfl⟩

theorem extents?_list {items : List Nested} {e : List Nat} (hne : items ≠ []) :
    (list items).extents? = some e ↔
      ∃ d, e = items.length :: d ∧ ∀ n ∈ items, n.extents? = some d := by
  simp only [extents?, Option.bind_eq_bind, Option.bind_eq_some_iff, Option.pure_def,
    Option.some.injEq, extentsOf?_eq_some]
  constructor
  · rintro ⟨es, hes, d, hd, rfl⟩
    have hne' : es ≠ [] := by
      rintro rfl
      cases hes
      exact hne rfl
    rw [common?_eq_some hne'] at hd
    exact ⟨d, rfl, extents?_of_forall₂ hes hd⟩
  · rintro ⟨d, rfl, h⟩
    refine ⟨items.map fun _ => d, ?_, d, ?_, rfl⟩
    · rw [List.forall₂_map_right_iff, List.forall₂_same]
      exact h
    · rw [common?_eq_some (by simpa using hne)]
      simp

theorem Rectangular.extents? {n : Nested} {e : List Nat} (h : n.Rectangular e) :
    n.extents? = some e := by
  induction h with
  | scalar s => rfl
  | vector xs => rfl
  | empty => rfl
  | list hne _ ih => exact (extents?_list hne).2 ⟨_, rfl, ih⟩

mutual

theorem rectangular_of_extents? : ∀ (n : Nested) {e : List Nat}, n.extents? = some e →
    n.Rectangular e
  | scalar s, _, h => Option.some.inj h ▸ .scalar s
  | vector xs, _, h => Option.some.inj h ▸ .vector xs
  | list [], _, h => Option.some.inj h ▸ .empty
  | list (n :: items), e, h => by
    obtain ⟨d, rfl, hd⟩ := (extents?_list (List.cons_ne_nil n items)).1 h
    exact .list (List.cons_ne_nil n items) (rectangularOf_of_extents? (n :: items) hd)

theorem rectangularOf_of_extents? : ∀ (items : List Nested) {e : List Nat},
    (∀ n ∈ items, n.extents? = some e) → ∀ n ∈ items, n.Rectangular e
  | [], _, _ => nofun
  | n :: items, e, h => by
    rw [List.forall_mem_cons] at h ⊢
    exact ⟨rectangular_of_extents? n h.1, rectangularOf_of_extents? items h.2⟩

end

theorem isEven_iff {n : Nested} :
    n.isEven = true ↔ ∃ e, n.extents? = some e ∧ e.length ≤ maxDepth := by
  rw [isEven]
  cases n.extents? <;> simp

theorem isEven_iff_rectangular {n : Nested} (h : n.depth ≤ maxDepth) :
    n.isEven = true ↔ ∃ e, n.Rectangular e := by
  rw [isEven_iff]
  constructor
  · rintro ⟨e, he, -⟩
    exact ⟨e, rectangular_of_extents? n he⟩
  · rintro ⟨e, he⟩
    exact ⟨e, he.extents?, Nat.le_trans he.length_le_depth h⟩

/-! Lists that are given up -/

mutual

/-- What a reader takes from nested lists with so much room in depth, and the room that is left for
lists beside these: none below a number. -/
def cut : Nat → Nested → Nested × Nat
  | _, scalar s => (scalar s, 0)
  | room, vector xs => (vector xs, min room 1)
  | 0, list _ => (list [], 0)
  | _ + 1, list [] => (list [], 1)
  | room + 1, list (n :: items) =>
    let (items, room) := cutAll room (n :: items)
    (list items, room + 1)

def cutAll : Nat → List Nested → List Nested × Nat
  | room, [] => ([], room)
  | room, n :: items =>
    let (n, room) := cut room n
    let (items, room) := cutAll room items
    (n :: items, room)

end

mutual

theorem cut_le : ∀ (n : Nested) (room : Nat), (n.cut room).2 ≤ room
  | scalar _, _ => Nat.zero_le _
  | vector _, _ => Nat.min_le_left ..
  | list _, 0 => by simp [cut]
  | list [], _ + 1 => by simp [cut]
  | list (n :: items), room + 1 => by
    simpa [cut] using cutAll_le (n :: items) room

theorem cutAll_le : ∀ (items : List Nested) (room : Nat), (cutAll room items).2 ≤ room
  | [], room => Nat.le_refl room
  | n :: items, room => by
    rw [cutAll]
    exact Nat.le_trans (cutAll_le items _) (cut_le n room)

end

mutual

theorem cut_of_extents? : ∀ (n : Nested) {room : Nat} {e : List Nat}, n.extents? = some e →
    e.length ≤ room → n.cut room = (n, e.length)
  | scalar s, room, e, h, hroom => by
    obtain rfl := Option.some.inj h
    rfl
  | vector xs, room, e, h, hroom => by
    obtain rfl := Option.some.inj h
    simp only [List.length_singleton] at hroom
    simp [cut, hroom]
  | list [], 0, e, h, hroom => by
    obtain rfl := Option.some.inj h
    cases hroom
  | list [], room + 1, e, h, hroom => by
    obtain rfl := Option.some.inj h
    rfl
  | list (n :: items), 0, e, h, hroom => by
    obtain ⟨d, rfl, -⟩ := (extents?_list (List.cons_ne_nil n items)).1 h
    cases hroom
  | list (n :: items), room + 1, e, h, hroom => by
    obtain ⟨d, rfl, hd⟩ := (extents?_list (List.cons_ne_nil n items)).1 h
    rw [cut, cutAll_of_extents? (n :: items) (List.cons_ne_nil n items) hd
      (Nat.le_of_succ_le_succ hroom)]
    rfl

theorem cutAll_of_extents? : ∀ (items : List Nested) {room : Nat} {e : List Nat}, items ≠ [] →
    (∀ n ∈ items, n.extents? = some e) → e.length ≤ room → cutAll room items = (items, e.length)
  | [], _, _, hne, _, _ => absurd rfl hne
  | [n], room, e, _, h, hroom => by
    rw [cutAll, cut_of_extents? n (h n (List.mem_singleton_self n)) hroom]
    rfl
  | n :: m :: items, room, e, _, h, hroom => by
    rw [List.forall_mem_cons] at h
    rw [cutAll, cut_of_extents? n h.1 hroom]
    simp only
    rw [cutAll_of_extents? (m :: items) (List.cons_ne_nil m items) h.2 (Nat.le_refl _)]

end

mutual

theorem extents?_cut : ∀ (n : Nested) {room : Nat} {e : List Nat},
    (n.cut room).1.extents? = some e →
    ((n.cut room).1 = n ∧ e.length = (n.cut room).2) ∨
      (e.length = room + 1 ∧ (n.cut room).2 = room)
  | scalar s, room, e, h => by
    obtain rfl := Option.some.inj h
    exact .inl ⟨rfl, rfl⟩
  | vector xs, 0, e, h => by
    obtain rfl := Option.some.inj h
    exact .inr ⟨rfl, rfl⟩
  | vector xs, room + 1, e, h => by
    obtain rfl := Option.some.inj h
    exact .inl ⟨rfl, by simp [cut]⟩
  | list items, 0, e, h => by
    simp only [cut] at h ⊢
    obtain rfl := Option.some.inj h
    exact .inr ⟨rfl, trivial⟩
  | list [], room + 1, e, h => by
    obtain rfl := Option.some.inj h
    exact .inl ⟨rfl, rfl⟩
  | list (n :: items), room + 1, e, h => by
    rw [cut] at h ⊢
    have hne : (cutAll room (n :: items)).1 ≠ [] := by
      rw [cutAll]
      exact List.cons_ne_nil _ _
    obtain ⟨d, rfl, hd⟩ := (extents?_list hne).1 h
    obtain ⟨hitems, hlength⟩ | ⟨hlength, hroom⟩ :=
      extents?_cutAll (n :: items) (List.cons_ne_nil n items) hd
    · exact .inl ⟨congrArg list hitems, congrArg (· + 1) hlength⟩
    · exact .inr ⟨congrArg (· + 1) hlength, congrArg (· + 1) hroom⟩

theorem extents?_cutAll : ∀ (items : List Nested) {room : Nat} {e : List Nat}, items ≠ [] →
    (∀ n ∈ (cutAll room items).1, n.extents? = some e) →
    ((cutAll room items).1 = items ∧ e.length = (cutAll room items).2) ∨
      (e.length = room + 1 ∧ (cutAll room items).2 = room)
  | [], _, _, hne, _ => absurd rfl hne
  | [n], room, e, _, h => by
    simp only [cutAll, List.mem_singleton, forall_eq] at h ⊢
    obtain ⟨hn, hlength⟩ | hdeep := extents?_cut n h
    · exact .inl ⟨congrArg ([·]) hn, hlength⟩
    · exact .inr hdeep
  | n :: m :: items, room, e, _, h => by
    rw [cutAll] at h ⊢
    rw [List.forall_mem_cons] at h
    have hrest := extents?_cutAll (m :: items) (List.cons_ne_nil m items) h.2
    have hle := cutAll_le (m :: items) (n.cut room).2
    -- a first item that is too deep leaves no room for the others to be as deep and not too deep
    obtain ⟨hn, hlength⟩ | ⟨hlength, hroom⟩ := extents?_cut n h.1
    · obtain ⟨hitems, hlength'⟩ | ⟨hlength', -⟩ := hrest
      · exact .inl ⟨congrArg₂ List.cons hn hitems, hlength'⟩
      · omega
    · obtain ⟨-, hlength'⟩ | ⟨-, hroom'⟩ := hrest
      · omega
      · exact .inr ⟨hlength, hroom'.trans hroom⟩

end

theorem cut_of_isEven {n : Nested} (h : n.isEven = true) : (n.cut maxDepth).1 = n := by
  obtain ⟨e, he, hlength⟩ := isEven_iff.1 h
  rw [cut_of_extents? n he hlength]

theorem of_isEven_cut {n : Nested} (h : (n.cut maxDepth).1.isEven = true) :
    (n.cut maxDepth).1 = n := by
  obtain ⟨e, he, hlength⟩ := isEven_iff.1 h
  obtain ⟨hn, -⟩ | ⟨hdeep, -⟩ := extents?_cut n he
  · exact hn
  · omega

theorem isEven_cut (n : Nested) : (n.cut maxDepth).1.isEven = n.isEven := by
  rw [Bool.eq_iff_iff]
  constructor
  · intro h
    rwa [of_isEven_cut h] at h
  · intro h
    rwa [cut_of_isEven h]

theorem toVector_cut (n : Nested) (size : Option Int) :
    (n.cut maxDepth).1.toVector size = n.toVector size := by
  cases h : n.isEven with
  | true => rw [cut_of_isEven h]
  | false =>
    rw [toVector, toVector, isEven_cut, h]
    rfl

/-! Lengths -/

variable {size : Option Int} {xs : Coordinates} {k : Int}

theorem checkLength_promote_of_eq (h : size = none ∨ size = some (xs.length : Int)) :
    checkLength size (promote size xs) = .ok xs := by
  obtain rfl | rfl := h
  · rfl
  · rw [promote, if_neg (by simp only [Option.some.injEq]; omega), checkLength, if_pos rfl]

theorem checkLength_promote_plane (h : xs.length = 2) :
    checkLength (some 3) (promote (some 3) xs) = .ok (xs ++ [.zero false]) := by
  rw [promote, if_pos ⟨rfl, h⟩, checkLength, if_pos (by simp [h])]

theorem checkLength_promote_of_ne (hk : k ≠ xs.length) (h : ¬(k = 3 ∧ xs.length = 2)) :
    checkLength (some k) (promote (some k) xs) =
      .error (.vectorLength (toString k) xs.length) := by
  rw [promote, if_neg (by simpa only [Option.some.injEq] using h), checkLength, if_neg hk]

end Nested
end SolidScript
