import SolidScript.Shape.Render

/-!
# Scripts at a depth

Indenting again and again puts two more spaces behind every line break, so a block at a depth has
its bodies one step deeper and ends at its own depth.
-/

set_option autoImplicit false

namespace SolidScript

def newline (depth : Nat) : List Char := '\n' :: List.replicate (2 * depth) ' '

/-- A text as it stands at a depth. -/
def nested : Nat → List Char → List Char
  | 0, text => text
  | depth + 1, text => indent (nested depth text)

theorem nested_of_line (depth : Nat) {a : List Char} (h : '\n' ∉ a) : nested depth a = a := by
  induction depth with
  | zero => rfl
  | succ depth ih => rw [nested, ih, indent_of_line h]

theorem indent_newline (depth : Nat) : indent (newline depth) = newline (depth + 1) := by
  have hline : '\n' ∉ List.replicate (2 * depth) ' ' := by simp [List.mem_replicate]
  have h : newline depth = ['\n'] ++ List.replicate (2 * depth) ' ' := rfl
  rw [h, indent_append, indent_of_line hline]
  rfl

theorem indent_intercalate (sep : List Char) (bodies : List (List Char)) :
    indent (List.intercalate sep bodies) = List.intercalate (indent sep) (bodies.map indent) := by
  induction bodies with
  | nil => rfl
  | cons body bodies ih =>
    cases bodies with
    | nil => simp
    | cons next bodies =>
      rw [List.intercalate_cons_cons, indent_append, indent_append, ih]
      simp only [List.map_cons, List.intercalate_cons_cons]

theorem nested_block (depth : Nat) {header : List Char} (h : '\n' ∉ header)
    (bodies : List (List Char)) : nested depth (block header bodies) =
      header ++ " \x7b".toList ++ newline (depth + 1) ++
        List.intercalate (newline (depth + 1)) (bodies.map (nested (depth + 1))) ++
        newline depth ++ "\x7d".toList := by
  induction depth with
  | zero => simp [nested, block, newline]
  | succ depth ih =>
    have hopen : '\n' ∉ " \x7b".toList := by decide
    have hclose : '\n' ∉ "\x7d".toList := by decide
    have hbodies : (bodies.map (nested (depth + 1))).map indent =
        bodies.map (nested (depth + 2)) := by
      rw [List.map_map]
      rfl
    rw [nested, ih]
    simp only [indent_append, indent_of_line h, indent_of_line hopen, indent_of_line hclose,
      indent_newline, indent_intercalate, hbodies]

end SolidScript
