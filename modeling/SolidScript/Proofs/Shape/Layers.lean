import Mathlib.Data.List.SplitBy
import SolidScript.Proofs.Shape.WellFormed

/-!
# Layers around a shape

Moves, turns, scalings, mirrorings and colours stand around a shape in layers. A move is added to a
move directly below it, and a turn to a turn of its form. One after the other, that leaves one layer
for each run of them.
-/

set_option autoImplicit false

namespace SolidScript
open Binary

inductive Layer where
  | translate (xs : Coordinates)
  | turn (x : Single)
  | turnEach (xs : Coordinates)
  | scale (x : Single)
  | scaleEach (xs : Coordinates)
  | mirror (xs : Coordinates)
  | color (c : Color)

namespace Layer

def operation : Layer → Operation
  | translate _ => .translate
  | turn _ | turnEach _ => .rotate
  | scale _ | scaleEach _ => .scale
  | mirror _ => .mirror
  | color _ => .color

def parameter : Layer → Parameter
  | turn x | scale x => .scalar (.single x)
  | translate xs | turnEach xs | scaleEach xs | mirror xs => .vector xs
  | color c => .color c

def wrap (s : Shape) (l : Layer) : Shape := .operator l.operation [l.parameter] s

def joins : Layer → Layer → Bool
  | translate _, translate _ | turn _, turn _ | turnEach _, turnEach _ => true
  | _, _ => false

def add : Layer → Layer → Layer
  | translate xs, translate ys => translate (xs.zipWith (· + ·) ys)
  | turn x, turn y => turn (x + y)
  | turnEach xs, turnEach ys => turnEach (xs.zipWith (· + ·) ys)
  | l, _ => l

def sum? : List Layer → Option Layer
  | [] => none
  | l :: ls => some (ls.foldl add l)

/-- One layer for each longest run of layers that join. -/
def merge (ls : List Layer) : List Layer := (ls.splitBy joins).filterMap sum?

def push : List Layer → Layer → List Layer
  | [], l => [l]
  | top :: ls, l => if top.joins l then top.add l :: ls else l :: top :: ls

variable {l m n : Layer} {ls : List Layer}

theorem wrap_eq {o : Operation} (h : l.operation = o) (s : Shape) :
    l.wrap s = .operator o [l.parameter] s := by
  rw [wrap, h]

theorem joins_add (h : l.joins m) : (l.add m).joins n = m.joins n := by
  cases l <;> cases m <;> cases h <;> cases n <;> rfl

abbrev IsRun (ls : List Layer) : Prop := ls.IsChain fun l m => l.joins m

theorem IsRun.add (h : IsRun (l :: m :: ls)) : IsRun (l.add m :: ls) := by
  rw [IsRun, List.isChain_cons_cons] at h
  obtain ⟨hlm, hrun⟩ := h
  cases ls with
  | nil => exact .singleton _
  | cons n ls =>
    rw [List.isChain_cons_cons] at hrun
    rw [IsRun, List.isChain_cons_cons, joins_add hlm]
    exact hrun

theorem IsRun.foldl_push (h : IsRun (l :: ls)) (below : List Layer) :
    ls.foldl push (l :: below) = ls.foldl Layer.add l :: below := by
  induction ls generalizing l with
  | nil => rfl
  | cons m ls ih =>
    rw [List.foldl_cons, List.foldl_cons, push, if_pos (List.isChain_cons_cons.1 h).1]
    exact ih h.add

theorem IsRun.joins_sum (h : IsRun (l :: ls)) :
    (ls.foldl Layer.add l).joins n = ((l :: ls).getLast (by simp)).joins n := by
  induction ls generalizing l with
  | nil => rfl
  | cons m ls ih =>
    rw [List.foldl_cons, ih h.add]
    cases ls with
    | nil => exact joins_add (List.isChain_cons_cons.1 h).1
    | cons k ls => rw [List.getLast_cons_cons, List.getLast_cons_cons, List.getLast_cons_cons]

theorem foldl_push_flatten {runs : List (List Layer)} (hne : [] ∉ runs)
    (hrun : ∀ run ∈ runs, IsRun run)
    (hlast : runs.IsChain fun a b => ∃ ha hb, joins (a.getLast ha) (b.head hb) = false)
    (below : List Layer) (hbelow : ∀ top ∈ below.head?, ∀ run ∈ runs.head?, ∀ first ∈ run.head?,
      top.joins first = false) :
    runs.flatten.foldl push below = (runs.filterMap sum?).reverse ++ below := by
  -- whatever is below, as long as the next run is not added to it
  induction runs generalizing below with
  | nil => rfl
  | cons run runs ih =>
    cases run with
    | nil => simp at hne
    | cons l ls =>
      have hl : IsRun (l :: ls) := hrun _ (by simp)
      have hpush : push below l = l :: below := by
        cases below with
        | nil => rfl
        | cons top below =>
          have : top.joins l = false := hbelow _ rfl _ rfl _ rfl
          simp [push, this]
      rw [List.flatten_cons, List.foldl_append, List.foldl_cons, hpush, hl.foldl_push, ih]
      · simp [sum?]
      · exact fun h => hne (List.mem_cons_of_mem _ h)
      · exact fun run h => hrun run (List.mem_cons_of_mem _ h)
      · exact hlast.tail
      · -- on top is now the sum of a run, and what does not join the last layer does not join it
        rintro top ⟨⟩ next hnext first hfirst
        cases runs with
        | nil => cases hnext
        | cons a runs =>
          cases hnext
          obtain ⟨ha, hb, h⟩ := (List.isChain_cons_cons.1 hlast).1
          rw [List.head?_eq_some_head hb] at hfirst
          cases hfirst
          rw [hl.joins_sum]
          exact h

/-- What pushing leaves: the sums of the runs, the outermost first. -/
theorem foldl_push (ls : List Layer) : ls.foldl push [] = (merge ls).reverse := by
  have h := foldl_push_flatten (List.nil_notMem_splitBy joins ls)
    (fun run h => List.isChain_of_mem_splitBy h) (List.isChain_getLast_head_splitBy joins ls)
    [] (by simp)
  rwa [List.flatten_splitBy, List.append_nil] at h

/-! The layers that calls leave -/

def Fits (d : Dimension) : Layer → Prop
  | translate xs | turnEach xs | scaleEach xs | mirror xs => xs.length = d.size
  | turn _ | scale _ | color _ => True

theorem Fits.add {d : Dimension} (hl : l.Fits d) (hm : m.Fits d) : (l.add m).Fits d := by
  cases l <;> cases m <;> simp_all [Fits, Layer.add]

theorem Fits.push {d : Dimension} (hls : ∀ l ∈ ls, l.Fits d) (hm : m.Fits d) :
    ∀ l ∈ push ls m, l.Fits d := by
  cases ls with
  | nil => simpa [Layer.push] using hm
  | cons top ls =>
    rw [List.forall_mem_cons] at hls
    rw [Layer.push]
    split
    · exact List.forall_mem_cons.2 ⟨hls.1.add hm, hls.2⟩
    · exact List.forall_mem_cons.2 ⟨hm, List.forall_mem_cons.2 hls⟩

/-- The sum of a layer and one on top of it, if the two are added. Turns by vectors of different
lengths stand apart, but moves by such vectors can neither be added nor stand apart. -/
def sumWith? : Layer → Layer → Except Fault (Option Layer)
  | translate xs, translate ys => (fun zs => some (translate zs)) <$> xs.add ys
  | turn x, turn y => .ok (some (turn (x + y)))
  | turnEach xs, turnEach ys =>
    .ok (if xs.length = ys.length then some (turnEach (xs.zipWith (· + ·) ys)) else none)
  | _, _ => .ok none

def put : List Layer → Layer → Except Fault (List Layer)
  | [], l => .ok [l]
  | top :: ls, l => do
    match ← top.sumWith? l with
    | some sum => return sum :: ls
    | none => return l :: top :: ls

theorem sumWith?_of_fits {d : Dimension} (hl : l.Fits d) (hm : m.Fits d) :
    l.sumWith? m = .ok (if l.joins m then some (l.add m) else none) := by
  cases l with
  | translate xs => cases m with
    | translate ys =>
      rw [sumWith?, Coordinates.add_of_length (hl.trans hm.symm)]
      rfl
    | _ => rfl
  | turnEach xs => cases m with
    | turnEach ys => exact congrArg Except.ok (if_pos (hl.trans hm.symm))
    | _ => rfl
  | _ => cases m <;> rfl

theorem put_of_fits {d : Dimension} (hls : ∀ l ∈ ls, l.Fits d) (hl : l.Fits d) :
    put ls l = .ok (push ls l) := by
  cases ls with
  | nil => rfl
  | cons top ls =>
    rw [put, sumWith?_of_fits (hls top (by simp)) hl, push]
    split <;> rfl

theorem sumWith?_other (h : l.operation ≠ m.operation) : l.sumWith? m = .ok none := by
  cases l <;> cases m <;> first | rfl | exact absurd rfl h

theorem put_eq_cons (ht : l.operation ≠ .translate) (hr : l.operation ≠ .rotate) :
    put ls l = .ok (l :: ls) := by
  cases ls with
  | nil => rfl
  | cons top ls => cases top <;> cases l <;> first | rfl | contradiction

theorem turn?_parameter (hl : l.operation = .rotate) (hm : m.operation = .rotate) :
    l.parameter.turn? m.parameter = Option.map parameter <$> l.sumWith? m := by
  cases l with
  | turn x => cases m with
    | turn y => exact Parameter.turn?_single x y
    | turnEach ys => exact Parameter.turn?_single_vector x ys
    | _ => cases hm
  | turnEach xs => cases m with
    | turn y => exact Parameter.turn?_vector_single xs y
    | turnEach ys =>
      change (Parameter.vector xs).turn? (.vector ys) = _
      rw [sumWith?]
      split
      · exact Parameter.turn?_of_length ‹_›
      · exact Parameter.turn?_of_length_ne ‹_›
    | _ => cases hm
  | _ => cases hl

theorem operation_of_sumWith? (h : l.sumWith? m = .ok (some n)) : n.operation = l.operation := by
  unfold sumWith? at h
  split at h
  · obtain ⟨zs, -, h⟩ := map_eq_ok.1 h
    cases h
    rfl
  · cases h
    rfl
  · split at h <;> cases h
    rfl
  · cases h

end Layer

namespace Shape

variable {s : Shape} {d : Dimension} {ls : List Layer}

def stack (s : Shape) (ls : List Layer) : Shape := ls.foldr (fun l t => l.wrap t) s

theorem stack_nil (s : Shape) : s.stack [] = s := rfl

theorem stack_cons (s : Shape) (l : Layer) (ls : List Layer) :
    s.stack (l :: ls) = l.wrap (s.stack ls) := rfl

theorem dim_stack (s : Shape) (ls : List Layer) : (s.stack ls).dim = s.dim := by
  induction ls with
  | nil => rfl
  | cons l ls ih =>
    rw [← ih]
    cases l <;> rfl

theorem coordinates_stack (s : Shape) (ls : List Layer) (n : Nested) :
    (s.stack ls).coordinates n = s.coordinates n := coordinates_congr (s.dim_stack ls) n

theorem scalarOrVector_stack (s : Shape) (ls : List Layer) (n : Nested) :
    (s.stack ls).scalarOrVector n = s.scalarOrVector n := scalarOrVector_congr (s.dim_stack ls) n

def numberOrVector (s : Shape) (ofNumber : Single → Layer) (ofVector : Coordinates → Layer) :
    Nested → Except Fault Layer
  | .scalar x => ofNumber <$> x.narrow
  | n => ofVector <$> s.coordinates n

section
variable {ofNumber : Single → Layer} {ofVector : Coordinates → Layer} {n : Nested} {l : Layer}

theorem scalarOrVector_eq (s : Shape) (ofNumber : Single → Layer) (ofVector : Coordinates → Layer)
    (hn : ∀ x, (ofNumber x).parameter = .scalar (.single x))
    (hv : ∀ xs, (ofVector xs).parameter = .vector xs) (n : Nested) :
    s.scalarOrVector n = Layer.parameter <$> s.numberOrVector ofNumber ofVector n := by
  unfold scalarOrVector numberOrVector
  split
  · simp [Functor.map_map, hn]
  · simp [Functor.map_map, hv]

theorem numberOrVector_eq_ok (h : s.numberOrVector ofNumber ofVector n = .ok l) :
    (∃ x, l = ofNumber x) ∨ ∃ xs, s.coordinates n = .ok xs ∧ l = ofVector xs := by
  unfold numberOrVector at h
  split at h
  · obtain ⟨x, -, h⟩ := map_eq_ok.1 h
    exact .inl ⟨x, h.symm⟩
  · obtain ⟨xs, hxs, h⟩ := map_eq_ok.1 h
    exact .inr ⟨xs, hxs, h.symm⟩

theorem numberOrVector_fits (h : s.numberOrVector ofNumber ofVector n = .ok l)
    (hd : s.dim = some d) (hn : ∀ x, (ofNumber x).Fits d)
    (hv : ∀ xs, xs.length = d.size → (ofVector xs).Fits d) : l.Fits d := by
  obtain ⟨x, rfl⟩ | ⟨xs, hxs, rfl⟩ := numberOrVector_eq_ok h
  · exact hn x
  · exact hv xs (length_of_coordinates hxs d hd)

theorem operation_of_numberOrVector {o : Operation}
    (h : s.numberOrVector ofNumber ofVector n = .ok l) (hn : ∀ x, (ofNumber x).operation = o)
    (hv : ∀ xs, (ofVector xs).operation = o) : l.operation = o := by
  obtain ⟨x, rfl⟩ | ⟨xs, -, rfl⟩ := numberOrVector_eq_ok h
  · exact hn x
  · exact hv xs

end

/-! What calls leave of a shape that no layer is added to -/

theorem stack_translate (hs : ∀ ps child, s ≠ operator .translate ps child) (ls : List Layer)
    (n : Nested) : (s.stack ls).translate n =
      s.stack <$> (Layer.translate <$> s.coordinates n >>= Layer.put ls) := by
  rw [← s.coordinates_stack ls]
  cases ls with
  | nil =>
    rw [stack_nil, translate_other hs]
    cases s.coordinates n <;> rfl
  | cons top ls =>
    cases top with
    | translate xs =>
      refine (translate_translate [.vector xs] (s.stack ls) n).trans ?_
      change _ = _ <$> (_ <$> (operator .translate [.vector xs] (s.stack ls)).coordinates n >>= _)
      cases (operator .translate [.vector xs] (s.stack ls)).coordinates n with
      | error e => rfl
      | ok ys =>
        change (do return operator .translate [← Parameter.vector <$> xs.add ys] (s.stack ls)) =
          s.stack <$> Layer.put (.translate xs :: ls) (.translate ys)
        rw [Layer.put, Layer.sumWith?]
        cases xs.add ys <;> rfl
    | _ =>
      rw [translate_other (by simp [stack, Layer.wrap, Layer.operation])]
      cases (s.stack (_ :: ls)).coordinates n <;> rfl

theorem stack_rotate (hs : ∀ ps child, s ≠ operator .rotate ps child) (ls : List Layer)
    (n : Nested) : (s.stack ls).rotate n =
      s.stack <$> (s.numberOrVector .turn .turnEach n >>= Layer.put ls) := by
  have hread := s.scalarOrVector_eq .turn .turnEach (fun _ => rfl) (fun _ => rfl) n
  rw [← scalarOrVector_stack s ls] at hread
  cases hr : s.numberOrVector .turn .turnEach n with
  | error e =>
    rw [hr] at hread
    rw [rotate, hread]
    rfl
  | ok l =>
    rw [hr] at hread
    change _ = Except.ok l.parameter at hread
    have hl : l.operation = .rotate :=
      operation_of_numberOrVector hr (fun _ => rfl) (fun _ => rfl)
    have hother (hne : ∀ ps child, s.stack ls ≠ operator .rotate ps child) :
        (s.stack ls).rotate n = .ok (s.stack (l :: ls)) := by
      rw [rotate_other hne, hread, stack_cons, l.wrap_eq hl]
      rfl
    rw [ok_bind]
    cases ls with
    | nil => exact hother hs
    | cons top ls =>
      by_cases ht : top.operation = .rotate
      · -- a turn on a turn: its form decides
        have hturn := Layer.turn?_parameter ht hl
        rw [stack_cons, top.wrap_eq ht] at hread ⊢
        rw [rotate_rotate, hread, Layer.put]
        simp only [ok_bind, firstParameter, hturn]
        cases hsum : top.sumWith? l with
        | error e => rfl
        | ok sum => cases sum with
          | none =>
            change _ = Except.ok (s.stack (l :: top :: ls))
            rw [stack_cons, stack_cons, l.wrap_eq hl, top.wrap_eq ht]
            rfl
          | some sum =>
            change _ = Except.ok (s.stack (sum :: ls))
            rw [stack_cons, sum.wrap_eq ((Layer.operation_of_sumWith? hsum).trans ht)]
            rfl
      · have hne : ∀ ps child, s.stack (top :: ls) ≠ operator .rotate ps child := by
          intro ps child h
          exact ht (operator.inj h).1
        have hsum := Layer.sumWith?_other (m := l) (fun h => ht (h.trans hl))
        rw [hother hne, Layer.put, hsum]
        rfl

theorem stack_put (s : Shape) (ls : List Layer) {l : Layer} (ht : l.operation ≠ .translate)
    (hr : l.operation ≠ .rotate) : s.stack <$> Layer.put ls l =
      .ok (.operator l.operation [l.parameter] (s.stack ls)) := by
  rw [Layer.put_eq_cons ht hr]
  rfl

theorem stack_scale (s : Shape) (ls : List Layer) (n : Nested) : (s.stack ls).scale n =
    s.stack <$> (s.numberOrVector .scale .scaleEach n >>= Layer.put ls) := by
  have hread := s.scalarOrVector_eq .scale .scaleEach (fun _ => rfl) (fun _ => rfl) n
  rw [scale, scalarOrVector_stack, hread]
  cases hr : s.numberOrVector .scale .scaleEach n with
  | error e => rfl
  | ok l =>
    have hl : l.operation = .scale :=
      operation_of_numberOrVector hr (fun _ => rfl) (fun _ => rfl)
    have hput := s.stack_put ls (l := l) (by simp [hl]) (by simp [hl])
    rw [hl] at hput
    exact hput.symm

theorem stack_scaleEach (s : Shape) (ls : List Layer) (n : Nested) : (s.stack ls).scaleEach n =
    s.stack <$> (Layer.scaleEach <$> s.coordinates n >>= Layer.put ls) := by
  rw [scaleEach, coordinates_stack]
  cases s.coordinates n with
  | error e => rfl
  | ok xs =>
    have hput := s.stack_put ls (l := .scaleEach xs) (by simp [Layer.operation])
      (by simp [Layer.operation])
    exact hput.symm

theorem stack_mirror (s : Shape) (ls : List Layer) (n : Nested) : (s.stack ls).mirror n =
    s.stack <$> (Layer.mirror <$> s.coordinates n >>= Layer.put ls) := by
  rw [mirror, coordinates_stack]
  cases s.coordinates n with
  | error e => rfl
  | ok xs =>
    have hput := s.stack_put ls (l := .mirror xs) (by simp [Layer.operation])
      (by simp [Layer.operation])
    exact hput.symm

theorem stack_color (s : Shape) (ls : List Layer) (c : Color) : (s.stack ls).color c =
    s.stack <$> Layer.put ls (.color c) :=
  (s.stack_put ls (l := .color c) nofun nofun).symm

theorem stack_foldl_push (s : Shape) (ls : List Layer) :
    s.stack (ls.foldl Layer.push []) = (Layer.merge ls).foldl Layer.wrap s := by
  rw [Layer.foldl_push, stack, List.foldr_reverse]

end Shape
end SolidScript
