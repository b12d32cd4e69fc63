import SolidScript.Proofs.Script.Run
import SolidScript.Proofs.Shape.Injective

/-!
# Scripts line by line

A printer that is told the depth and writes each line once, behind two spaces for each level. The
scripts of shapes, which are indented again at every level, have the same lines.
-/

set_option autoImplicit false

namespace SolidScript

def lineAt (depth : Nat) (text : List Char) : List Char := List.replicate (2 * depth) ' ' ++ text

def unlines (ls : List (List Char)) : List Char := List.intercalate ['\n'] ls

def bracedLines (depth : Nat) (header : List Char) (body : List (List Char)) :
    List (List Char) :=
  lineAt depth (header ++ " \x7b".toList) :: (body ++ [lineAt depth "\x7d".toList])

theorem append_intercalate (sep : List Char) {texts : List (List Char)} (h : texts ≠ []) :
    sep ++ List.intercalate sep texts = texts.flatMap (sep ++ ·) := by
  cases texts with
  | nil => exact absurd rfl h
  | cons t ts => rw [intercalate_cons, List.flatMap_cons, List.append_assoc]

theorem flatMap_bracedLines (depth : Nat) (header : List Char) (body : List (List Char)) :
    (bracedLines depth header body).flatMap ('\n' :: ·) = newline depth ++ header ++
      " \x7b".toList ++ body.flatMap ('\n' :: ·) ++ newline depth ++ "\x7d".toList := by
  simp [bracedLines, lineAt, newline]

theorem line_lineAt (depth : Nat) {text : List Char} (h : '\n' ∉ text) :
    '\n' ∉ lineAt depth text := by
  simp [lineAt, List.mem_replicate, h]

theorem line_bracedLines (depth : Nat) {header : List Char} (hh : '\n' ∉ header)
    {body : List (List Char)} (hb : ∀ l ∈ body, '\n' ∉ l) :
    ∀ l ∈ bracedLines depth header body, '\n' ∉ l := by
  have hopen : '\n' ∉ header ++ " \x7b".toList := by simp [hh]
  have hclose : '\n' ∉ "\x7d".toList := by decide
  simp only [bracedLines, List.forall_mem_cons, List.forall_mem_append]
  exact ⟨line_lineAt _ hopen, hb, line_lineAt _ hclose, by simp⟩

namespace Shape

mutual

/-- The lines of a shape at a depth. Between the braces of a combination of nothing there is a line
of spaces. -/
def lines : Shape → Nat → List (List Char)
  | operator o ps child, depth =>
    bracedLines depth (o.header (ps.flatMap Parameter.text)) (lines child (depth + 1))
  | combination k ss, depth => bracedLines depth k.header
      (if ss.isEmpty then [lineAt (depth + 1) []] else linesOf ss (depth + 1))
  | s, depth => [lineAt depth (statement s.word.name s.arguments)]

def linesOf : List Shape → Nat → List (List Char)
  | [], _ => []
  | s :: ss, depth => lines s depth ++ linesOf ss depth

end

theorem linesOf_eq_flatMap (ss : List Shape) (depth : Nat) :
    linesOf ss depth = ss.flatMap (·.lines depth) := by
  induction ss with
  | nil => rfl
  | cons s ss ih => rw [linesOf, ih, List.flatMap_cons]

variable {s : Shape}

theorem lines_primitive (ho : ∀ o ps child, s ≠ operator o ps child)
    (hc : ∀ k ss, s ≠ combination k ss) (depth : Nat) :
    s.lines depth = [lineAt depth (statement s.word.name s.arguments)] := by
  rw [lines]
  · exact ho
  · exact hc

theorem lines_ne_nil (s : Shape) (depth : Nat) : s.lines depth ≠ [] := by
  cases s <;> simp [lines, bracedLines]

namespace WellFormed

theorem line_lines (h : WellFormed s) : ∀ depth : Nat, ∀ l ∈ s.lines depth, '\n' ∉ l := by
  induction h with
  | @operator o p s ht hm hs ih =>
    intro depth
    rw [lines, List.flatMap_singleton]
    exact line_bracedLines depth (line_header ht) (ih (depth + 1))
  | @combination k ss hk hs ih =>
    intro depth
    rw [lines, linesOf_eq_flatMap]
    refine line_bracedLines depth (line_kind k) ?_
    split
    · have hblank : '\n' ∉ lineAt (depth + 1) [] := line_lineAt (depth + 1) (by simp)
      simpa using hblank
    · intro l hl
      obtain ⟨s, hs, hl⟩ := List.mem_flatMap.1 hl
      exact ih s hs (depth + 1) l hl
  | _ =>
    intro depth
    rw [lines_primitive (by simp) (by simp), List.forall_mem_singleton]
    exact line_lineAt depth (line_statement _ (line_arguments _))

theorem flatMap_lines (h : WellFormed s) : ∀ depth : Nat,
    (s.lines depth).flatMap ('\n' :: ·) = newline depth ++ nested depth s.text := by
  induction h with
  | @operator o p s ht hm hs ih =>
    intro depth
    rw [text_operator (.operator ht hm hs), nested_block depth (line_header ht), lines,
      flatMap_bracedLines, ih (depth + 1)]
    simp
  | @combination k ss hk hs ih =>
    intro depth
    rw [text_combination (.combination hk hs), nested_block depth (line_kind k), lines,
      flatMap_bracedLines]
    by_cases he : ss = []
    · subst he
      simp [lineAt, newline]
    · have hbody : (linesOf ss (depth + 1)).flatMap ('\n' :: ·) =
          (ss.map fun s => nested (depth + 1) s.text).flatMap (newline (depth + 1) ++ ·) := by
        rw [linesOf_eq_flatMap, List.flatMap_assoc, List.flatMap_map]
        exact List.flatMap_congr fun s hs => ih s hs (depth + 1)
      rw [if_neg (by simpa using he), hbody, ← append_intercalate _ (by simpa using he)]
      simp [Function.comp_def]
  | _ =>
    intro depth
    rw [lines_primitive (by simp) (by simp), text_primitive (by simp) (by simp),
      nested_of_line depth (line_statement _ (line_arguments _))]
    simp [newline, lineAt]

theorem unlines_lines (h : WellFormed s) (depth : Nat) :
    unlines (s.lines depth) = lineAt depth (nested depth s.text) := by
  have hlines := append_intercalate ['\n'] (s.lines_ne_nil depth)
  simp only [List.singleton_append, h.flatMap_lines] at hlines
  exact List.cons.inj hlines |>.2

end WellFormed

/-- The script of a shape and the script that a parent writes are the lines at depths zero and one,
the latter from the first character of its own on. -/
structure Printed (s : Shape) : Prop where
  line : ∀ depth : Nat, ∀ l ∈ s.lines depth, '\n' ∉ l
  render : s.render = .ok (unlines (s.lines 0))
  indent : ∃ text, indent <$> s.render = .ok text ∧ unlines (s.lines 1) = ' ' :: ' ' :: text

theorem WellFormed.printed (h : WellFormed s) : s.Printed where
  line := h.line_lines
  render := by
    rw [h.unlines_lines, h.render_eq]
    rfl
  indent := by
    rw [h.unlines_lines, h.render_eq]
    exact ⟨_, rfl, rfl⟩

end Shape

namespace Script
open Shape

/-- Every shape that calls make, and every shape that a step of any script leaves, is printed line
by line at twice the depth of each node, as long as none of them sets up an operation by hand. -/
theorem printed_at_depth :
    (∀ s : Shape, Built False s → s.Printed) ∧
    ∀ steps : List Step, (∀ step ∈ steps, step.Holds (Built False) ∧ ¬step.isOperator) →
      ∀ o ∈ run steps, o.Holds Printed := by
  have hbuilt : ∀ s : Shape, Built False s → s.Printed := fun s hs => hs.wellFormed.printed
  exact ⟨hbuilt, fun steps hs => run_mono hbuilt hs⟩

def nothingTaken : List Step :=
  [.function "Group" [], .function "polygon" [.list []], .method "difference" (.step 1) [.step 0],
    .method "color" (.step 2) [.literal (.new (.text "red".toList))],
    .method "tree" (.step 3) []]

theorem printed_at_depth_nothingTaken :
    ∃ s, (run nothingTaken)[4]? = some (.tree s) ∧ s.Printed ∧
      s.lines 0 = ["color(\"red\") \x7b", "  difference() \x7b", "    polygon(points = [  ]);",
        "    union() \x7b", "      ", "    \x7d", "  \x7d", "\x7d"].map (·.toList) := by
  have hsteps : ∀ step ∈ nothingTaken, step.Holds (Built False) ∧ ¬step.isOperator := by
    simp [nothingTaken, Step.Holds, Step.isOperator, Value.text]
  have h := printed_at_depth.2 nothingTaken hsteps
  have hs : (run nothingTaken)[4]? = some (.tree (.operator .color [.color .red]
      (.combination .difference [.polygon [], .combination .union []]))) := rfl
  exact ⟨_, hs, h _ (List.mem_of_getElem? hs), rfl⟩

end Script
end SolidScript
