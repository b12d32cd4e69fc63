import SolidScript.Proofs.Shape.Indent
import SolidScript.Proofs.Shape.Text
import SolidScript.Proofs.Text.Decoding

/-!
# Different shapes have different scripts

The first word of a script tells the sort of the shape, and what follows tells its numbers and
children, each of which can be told from what stands behind it. So well-formed shapes with one
script are one shape, at any depth and whatever follows.
-/

set_option autoImplicit false

namespace SolidScript
open Binary

/-- The first word of a script. -/
inductive Word where
  | circle
  | square
  | polygon
  | cube
  | sphere
  | cylinder
  | polyhedron
  | operation (o : Operation)
  | kind (k : Kind)
deriving DecidableEq

namespace Word

def name : Word → String
  | circle => "circle"
  | square => "square"
  | polygon => "polygon"
  | cube => "cube"
  | sphere => "sphere"
  | cylinder => "cylinder"
  | polyhedron => "polyhedron"
  | operation o => o.name
  | kind k => k.name

def all : List Word :=
  [circle, square, polygon, cube, sphere, cylinder, polyhedron] ++
    Operation.all.map operation ++ Kind.all.map kind

def ofName? (s : String) : Option Word := all.find? fun w => w.name = s

theorem ofName?_name (w : Word) : ofName? w.name = some w := by
  cases w with
  | operation o => cases o <;> decide
  | kind k => cases k <;> decide
  | _ => decide

theorem name_injective : Function.Injective name := fun v w h => by
  have := congrArg ofName? h
  simpa [ofName?_name] using this

def isLetter (c : Char) : Bool := c.isLower || c = '_'

theorem isLetter_name (w : Word) : ∀ c ∈ w.name.toList, isLetter c = true := by
  rw [← List.all_eq_true]
  cases w with
  | operation o => cases o <;> decide
  | kind k => cases k <;> decide
  | _ => decide

end Word

/-! Lines -/

theorem line_write {style : Style} (hs : style.Plain) (x : Single) : '\n' ∉ style.write x :=
  fun h => absurd (Style.numeric_write hs x _ h) (by decide)

theorem line_intercalate {sep : List Char} (hsep : '\n' ∉ sep) {texts : List (List Char)}
    (h : ∀ t ∈ texts, '\n' ∉ t) : '\n' ∉ List.intercalate sep texts := by
  cases texts with
  | nil => simp
  | cons t ts =>
    rw [List.forall_mem_cons] at h
    simp only [intercalate_cons, List.mem_append, List.mem_flatMap, not_or, not_exists, not_and]
    exact ⟨h.1, fun u hu => ⟨hsep, h.2 u hu⟩⟩

theorem line_bracketed {texts : List (List Char)} (h : ∀ t ∈ texts, '\n' ∉ t) :
    '\n' ∉ bracketed texts := by
  have hsep : '\n' ∉ ", ".toList := by decide
  simpa [bracketed] using line_intercalate hsep h

theorem line_numbers {style : Style} (hs : style.Plain) (xs : Coordinates) :
    '\n' ∉ bracketed (xs.map style.write) :=
  line_bracketed (List.forall_mem_map.2 fun x _ => line_write hs x)

theorem line_number (x : Single) : '\n' ∉ numberText x := line_write Style.plain_script x

theorem line_vector (xs : Coordinates) : '\n' ∉ vectorText xs :=
  line_numbers Style.plain_script xs

theorem line_face (f : List Int) : '\n' ∉ faceText f :=
  line_bracketed (List.forall_mem_map.2 fun i _ h =>
    absurd (numeric_whole i _ h) (by decide))

theorem line_call {w : Word} {arguments : List Char} (h : '\n' ∉ arguments) :
    '\n' ∉ call w.name arguments := by
  have hw : '\n' ∉ w.name.toList := fun h => absurd (w.isLetter_name _ h) (by decide)
  simp [call, hw, h]

namespace Shape

def word : Shape → Word
  | circle _ => .circle
  | square _ | rectangle _ => .square
  | polygon _ => .polygon
  | cube _ | cuboid _ => .cube
  | sphere _ => .sphere
  | cylinder _ _ => .cylinder
  | polyhedron _ _ => .polyhedron
  | operator o _ _ => .operation o
  | combination k _ => .kind k

def argument (o : Operation) (p : Parameter) : List Char :=
  match o.keyword? with
  | some k => named k p.text
  | none => p.text

def arguments : Shape → List (List Char)
  | circle d => [named "d" (numberText d)]
  | square x | cube x => [named "size" (numberText x)]
  | rectangle v | cuboid v => [named "size" (vectorText v)]
  | polygon ps => [named "points" ("[ ".toList ++
      List.intercalate ", ".toList (ps.map vectorText) ++ " ]".toList)]
  | sphere r => [named "r" (numberText r)]
  | cylinder h r => [named "h" (numberText h), named "r" (numberText r)]
  | polyhedron ps fs => [named "points" (bracketed (ps.map vertexText)),
      named "faces" (bracketed (fs.map faceText))]
  | operator _ _ _ | combination _ _ => []

def remainder (depth : Nat) : Shape → List Char
  | operator o ps s => ps.flatMap (argument o) ++ ") \x7b".toList ++ newline (depth + 1) ++
      nested (depth + 1) s.text ++ newline depth ++ "\x7d".toList
  | combination _ ss => ") \x7b".toList ++ newline (depth + 1) ++
      List.intercalate (newline (depth + 1)) (ss.map fun s => nested (depth + 1) s.text) ++
      newline depth ++ "\x7d".toList
  | s => List.intercalate ", ".toList s.arguments ++ ");".toList

theorem line_parameter {o : Operation} {dim : Option Dimension} {p : Parameter}
    (h : o.Takes dim p) : '\n' ∉ argument o p := by
  cases h with
  | color c => cases c <;> decide
  | _ => simp [argument, Operation.keyword?, named, Parameter.text, line_number, line_vector]

theorem line_header {o : Operation} {dim : Option Dimension} {p : Parameter}
    (h : o.Takes dim p) : '\n' ∉ o.header p.text :=
  line_call (w := .operation o) (line_parameter h)

theorem line_kind (k : Kind) : '\n' ∉ k.header := line_call (w := .kind k) (by simp)

theorem line_arguments (s : Shape) : ∀ a ∈ s.arguments, '\n' ∉ a := by
  cases s with
  | polygon ps =>
    have hsep : '\n' ∉ ", ".toList := by decide
    have := line_intercalate hsep (List.forall_mem_map.2 fun p (_ : p ∈ ps) => line_vector p)
    simpa [arguments, named] using this
  | polyhedron ps fs =>
    have hps : '\n' ∉ bracketed (ps.map vertexText) :=
      line_bracketed (List.forall_mem_map.2 fun p _ => line_numbers Style.plain_coordinate p)
    have hfs := line_bracketed (List.forall_mem_map.2 fun f (_ : f ∈ fs) => line_face f)
    simp [arguments, named, hps, hfs]
  | _ => simp [arguments, named, line_number, line_vector]

theorem line_statement (w : Word) {as : List (List Char)} (h : ∀ a ∈ as, '\n' ∉ a) :
    '\n' ∉ statement w.name as := by
  have hsep : '\n' ∉ ", ".toList := by decide
  rw [statement, List.mem_append, not_or]
  exact ⟨line_call (line_intercalate hsep h), by decide⟩

theorem nested_statement (depth : Nat) (w : Word) {as : List (List Char)}
    (h : ∀ a ∈ as, '\n' ∉ a) : nested depth (statement w.name as) =
      w.name.toList ++ '(' :: (List.intercalate ", ".toList as ++ ");".toList) := by
  rw [nested_of_line depth (line_statement w h)]
  simp [statement, call]

theorem text_primitive {s : Shape} (ho : ∀ o ps child, s ≠ operator o ps child)
    (hc : ∀ k ss, s ≠ combination k ss) : s.text = statement s.word.name s.arguments := by
  cases s with
  | operator o ps child => exact absurd rfl (ho o ps child)
  | combination k ss => exact absurd rfl (hc k ss)
  | _ => exact text_eq (by rw [render]; rfl)

theorem WellFormed.nested_text {s : Shape} (h : WellFormed s) (depth : Nat) :
    nested depth s.text = s.word.name.toList ++ '(' :: s.remainder depth := by
  cases h with
  | @operator o p s ht hm hs =>
    have hheader : o.header p.text = call o.name (argument o p) := rfl
    rw [text_operator (.operator ht hm hs), nested_block depth (line_header ht), hheader]
    simp only [call, remainder, word, Word.name, List.map_singleton, List.intercalate_singleton,
      List.flatMap_singleton, String.reduceToList, List.append_assoc, List.cons_append,
      List.nil_append]
  | @combination k ss hk hs =>
    rw [text_combination (.combination hk hs), nested_block depth (line_kind k)]
    simp [Kind.header, call, remainder, word, Word.name, Function.comp_def]
  | _ =>
    rw [text_primitive (by simp) (by simp)]
    exact nested_statement depth _ (line_arguments _)

/-! Decoding -/

theorem number_inj {x y : Single} {u v : List Char} {c : Char} (hc : Style.isNumeric c = false)
    (h : numberText x ++ c :: u = numberText y ++ c :: v) : x = y ∧ u = v := by
  have stops : ∀ w, Stops Style.isNumeric (c :: w) := fun w d hd => by simp_all
  obtain ⟨hxy, huv⟩ := number_decodes Style.plain_script x y _ _ (stops u) (stops v) h
  exact ⟨hxy, (List.cons.inj huv).2⟩

theorem vector_decodes : Decodes (fun _ => True) vectorText := numbers_decode Style.plain_script

theorem vector_inj {xs ys : Coordinates} {u v : List Char}
    (h : vectorText xs ++ u = vectorText ys ++ v) : xs = ys ∧ u = v :=
  vector_decodes xs ys u v trivial trivial h

theorem number_ne_vector {x : Single} {ys : Coordinates} (u v : List Char) :
    numberText x ++ u ≠ vectorText ys ++ v :=
  write_append_ne Style.plain_script x rfl u _

theorem color_inj {c d : Color} {u v : List Char} (h : c.text ++ u = d.text ++ v) :
    c = d ∧ u = v := by
  cases c <;> cases d <;> simp_all [Color.text, Color.name]

theorem parameter_inj {o : Operation} {dim dim' : Option Dimension} {p q : Parameter}
    (hp : o.Takes dim p) (hq : o.Takes dim' q) {u v : List Char}
    (h : p.text ++ ')' :: u = q.text ++ ')' :: v) : p = q ∧ u = v := by
  have number : ∀ {x y}, numberText x ++ ')' :: u = numberText y ++ ')' :: v →
      x = y ∧ u = v := number_inj (by decide)
  have vector : ∀ {xs ys}, vectorText xs ++ ')' :: u = vectorText ys ++ ')' :: v →
      xs = ys ∧ u = v := fun h => by simpa using vector_inj h
  cases hp with
  | translate => cases hq; simpa using vector h
  | mirror => cases hq; simpa using vector h
  | scale x => cases hq with
    | scale y => simpa using number h
    | scaleEach => exact absurd h (number_ne_vector _ _)
  | scaleEach => cases hq with
    | scale y => exact absurd h.symm (number_ne_vector _ _)
    | scaleEach => simpa using vector h
  | rotate x => cases hq with
    | rotate y => simpa using number h
    | rotateEach => exact absurd h (number_ne_vector _ _)
  | rotateEach => cases hq with
    | rotate y => exact absurd h.symm (number_ne_vector _ _)
    | rotateEach => simpa using vector h
  | color c => cases hq; simpa using color_inj h
  | linearExtrude x => cases hq; simpa using number h
  | rotateExtrude x => cases hq; simpa using number h

theorem arguments_inj {o : Operation} {dim dim' : Option Dimension} {p q : Parameter}
    (hp : o.Takes dim p) (hq : o.Takes dim' q) {u v : List Char}
    (h : argument o p ++ ')' :: u = argument o q ++ ')' :: v) : p = q ∧ u = v := by
  refine parameter_inj hp hq ?_
  unfold argument at h
  split at h
  · simpa [named] using h
  · exact h

theorem points_inj {ps qs : List Coordinates} {u v : List Char}
    (h : List.intercalate ", ".toList (ps.map vectorText) ++ (" ]".toList ++ u) =
      List.intercalate ", ".toList (qs.map vectorText) ++ (" ]".toList ++ v)) :
    ps = qs ∧ u = v :=
  row_inj (by simp) (fun _ _ _ _ _ _ _ _ h => vector_inj h)
    (fun _ _ _ _ => by simp [vectorText, bracketed]) h

theorem vertices_decode :
    Decodes (fun _ => True) fun ps : List Coordinates => bracketed (ps.map vertexText) :=
  bracketed_decodes (numbers_decode Style.plain_coordinate) fun _ _ _ => by
    simp [bracketed]

theorem faces_decode :
    Decodes (fun _ => True) fun fs : List (List Int) => bracketed (fs.map faceText) :=
  bracketed_decodes face_decodes fun _ _ _ => by simp [faceText, bracketed]

theorem newline_succ (depth : Nat) : newline (depth + 1) = newline depth ++ [' ', ' '] := by
  rw [newline, newline, Nat.mul_add, List.replicate_add]
  rfl

theorem newline_ne (depth : Nat) (u v : List Char) :
    newline (depth + 1) ++ u ≠ newline depth ++ "\x7d".toList ++ v := by
  rw [newline_succ, List.append_assoc, List.append_assoc]
  simp

variable {a b : Shape} {u v : List Char}

theorem nested_ne_newline (ha : WellFormed a) (depth : Nat) :
    nested (depth + 1) a.text ++ u ≠ newline depth ++ "\x7d".toList ++ v := by
  rw [ha.nested_text, List.append_assoc]
  refine append_ne_of_stops a.word.isLetter_name ?_ (by decide) _ _
  cases a with
  | operator o ps s => cases o <;> simp [word, Word.name, Operation.name]
  | combination k ss => cases k <;> simp [word, Word.name, Kind.name]
  | _ => simp [word, Word.name]

theorem word_inj (ha : WellFormed a) (hb : WellFormed b) {depth : Nat}
    (h : nested depth a.text ++ u = nested depth b.text ++ v) :
    a.word = b.word ∧ a.remainder depth ++ u = b.remainder depth ++ v := by
  rw [ha.nested_text, hb.nested_text, List.append_assoc, List.append_assoc] at h
  have stops : ∀ w, Stops Word.isLetter ('(' :: w) := fun w c hc => by
    obtain rfl : '(' = c := by simpa using hc
    decide
  obtain ⟨hw, hr⟩ := append_inj_of_stops a.word.isLetter_name b.word.isLetter_name
    (stops _) (stops _) h
  exact ⟨Word.name_injective (String.toList_injective hw), (List.cons.inj hr).2⟩

theorem primitive_inj (ho : ∀ o ps s, a ≠ operator o ps s) (hc : ∀ k ss, a ≠ combination k ss)
    (hw : a.word = b.word) {depth : Nat}
    (h : a.remainder depth ++ u = b.remainder depth ++ v) : a = b ∧ u = v := by
  cases a <;> cases b <;> try cases hw
  case operator.operator => exact absurd rfl (ho _ _ _)
  case combination.combination => exact absurd rfl (hc _ _)
  all_goals
    simp only [remainder, arguments, named, String.reduceToList, List.intercalate_singleton,
      List.intercalate_cons_cons, List.cons_append, List.nil_append, List.append_assoc,
      List.cons.injEq, true_and] at h
  case circle.circle | square.square | cube.cube | sphere.sphere =>
    simpa using number_inj (by decide) h
  case square.rectangle | cube.cuboid => exact absurd h (number_ne_vector _ _)
  case rectangle.square | cuboid.cube => exact absurd h.symm (number_ne_vector _ _)
  case rectangle.rectangle | cuboid.cuboid => simpa using vector_inj h
  case polygon.polygon => simpa using points_inj h
  case cylinder.cylinder =>
    obtain ⟨hheight, hr⟩ := number_inj (by decide) h
    simp only [List.cons.injEq, true_and] at hr
    simpa [hheight] using number_inj (by decide) hr
  case polyhedron.polyhedron =>
    obtain ⟨hps, hfs⟩ := vertices_decode _ _ _ _ trivial trivial h
    simp only [List.cons.injEq, true_and] at hfs
    simpa [hps] using faces_decode _ _ _ _ trivial trivial hfs

theorem operator_inj {o o' : Operation} {p q : Parameter} {s t : Shape} (hp : o.Takes s.dim p)
    (hq : o'.Takes t.dim q) (ho : o = o') {depth : Nat}
    (child : ∀ {u v : List Char}, nested (depth + 1) s.text ++ u = nested (depth + 1) t.text ++ v →
      s = t ∧ u = v)
    (h : remainder depth (.operator o [p] s) ++ u = remainder depth (.operator o' [q] t) ++ v) :
    Shape.operator o [p] s = .operator o' [q] t ∧ u = v := by
  subst ho
  simp only [remainder, List.flatMap_cons, List.flatMap_nil, List.append_nil,
    String.reduceToList, List.append_assoc, List.cons_append, List.nil_append] at h
  obtain ⟨rfl, hbody⟩ := arguments_inj hp hq h
  simp only [List.cons.injEq, true_and, List.append_cancel_left_eq] at hbody
  obtain ⟨rfl, hrest⟩ := child hbody
  exact ⟨rfl, by simpa using hrest⟩

theorem combination_inj {k k' : Kind} {ss ts : List Shape} (hs : ∀ s ∈ ss, WellFormed s)
    (ht : ∀ t ∈ ts, WellFormed t) (hk : k = k') {depth : Nat}
    (child : ∀ s ∈ ss, ∀ t ∈ ts, ∀ u v, nested (depth + 1) s.text ++ u =
      nested (depth + 1) t.text ++ v → s = t ∧ u = v)
    (h : remainder depth (.combination k ss) ++ u = remainder depth (.combination k' ts) ++ v) :
    Shape.combination k ss = .combination k' ts ∧ u = v := by
  subst hk
  simp only [remainder, List.append_assoc, List.append_cancel_left_eq] at h
  have hclose : ∀ w, newline depth ++ ("\x7d".toList ++ w) =
      newline depth ++ "\x7d".toList ++ w := fun w => (List.append_assoc _ _ _).symm
  rw [hclose, hclose] at h
  obtain ⟨rfl, huv⟩ := row_inj (newline_ne depth)
    (fun s hs t ht u v _ _ h => child s hs t ht u v h)
    (fun s hm u v => nested_ne_newline (hm.elim (hs s) (ht s)) depth) h
  exact ⟨rfl, huv⟩

/-- Shapes at one depth can be told apart, and from what stands behind them. -/
theorem WellFormed.nested_inj (ha : WellFormed a) : ∀ {b : Shape}, WellFormed b →
    ∀ {depth : Nat} {u v : List Char}, nested depth a.text ++ u = nested depth b.text ++ v →
      a = b ∧ u = v := by
  induction ha with
  | operator hp hm hs ih =>
    intro b hb depth u v h
    obtain ⟨hw, hr⟩ := word_inj (.operator hp hm hs) hb h
    cases hb with
    | operator hq _ ht => exact operator_inj hp hq (Word.operation.inj hw) (ih ht) hr
    | _ => cases hw
  | combination hk hs ih =>
    intro b hb depth u v h
    obtain ⟨hw, hr⟩ := word_inj (.combination hk hs) hb h
    cases hb with
    | combination _ ht =>
      exact combination_inj hs ht (Word.kind.inj hw) (fun s hs t ht' u v => ih s hs (ht t ht')) hr
    | _ => cases hw
  | _ =>
    intro b hb depth u v h
    obtain ⟨hw, hr⟩ := word_inj (by constructor <;> assumption) hb h
    exact primitive_inj (by simp) (by simp) hw hr

theorem WellFormed.eq_of_text (ha : WellFormed a) (hb : WellFormed b) (h : a.text = b.text) :
    a = b := by
  have h' : nested 0 a.text ++ [] = nested 0 b.text ++ [] := by simpa [nested] using h
  exact (ha.nested_inj hb h').1

/-- Shapes that calls make have one script only if they are one, to the last bit of each number
and to the sign of each zero, and that is what comparing them says. -/
theorem render_injective (ha : Built False a) (hb : Built False b) :
    (a.render = b.render ↔ a = b) ∧ (a.same b = .ok true ↔ a = b) ∧
      (a.same b = .ok false ↔ a ≠ b) ∧ (a.render = b.render → a.dim = b.dim) := by
  have hinj : a.render = b.render ↔ a = b := by
    constructor
    · intro h
      rw [ha.wellFormed.render_eq, hb.wellFormed.render_eq] at h
      exact ha.wellFormed.eq_of_text hb.wellFormed (Except.ok.inj h)
    · intro h
      rw [h]
  have hsame : a.same b = .ok (decide (a.text = b.text)) := by
    rw [same, ha.wellFormed.render_eq, hb.wellFormed.render_eq]
    simp only [bind, Except.bind, pure, Except.pure, beq_eq_decide]
  have htext : a.text = b.text ↔ a = b := by
    constructor
    · exact ha.wellFormed.eq_of_text hb.wellFormed
    · intro h
      rw [h]
  refine ⟨hinj, ?_, ?_, fun h => by rw [hinj.1 h]⟩ <;> simp [hsame, htext]

theorem render_injective_zeros :
    (square (.zero false)).same (square (.zero true)) = .ok false ∧
      (square (.zero false)).render ≠ (square (.zero true)).render := by
  have hne : square (.zero false) ≠ square (.zero true) := by simp [Number.zero]
  obtain ⟨hrender, -, hsame, -⟩ := render_injective (.square (.zero false)) (.square (.zero true))
  exact ⟨hsame.2 hne, mt hrender.1 hne⟩

end Shape
end SolidScript
