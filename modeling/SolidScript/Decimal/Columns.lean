import SolidScript.Decimal.Layout

/-!
# Rows of numbers

In a message the numbers of a vector share one form and stand in columns of one width, so that
their points line up: `[  0.1, 100. ]`. A row of numbers of very different or very large size has
exponents, and each number then as many digits as the one that needs most: beyond those that tell a
number from its neighbours they are the digits of its exact value. A row that is too long goes on
in the next line, and of one with more than `limit` numbers only the ends are shown.
-/

set_option autoImplicit false

attribute [local instance (10000)] instPowNat

namespace SolidScript.Columns
open Binary

structure Cell where
  whole : List Char
  part : List Char
  power : List Char

def places : Nat := 8

def decimal (f : Format) (negative : Bool) (n : Nat) : Decimal :=
  if n = 0 then ⟨negative, 0, 0⟩
  else
    let d := Decimal.shortest f negative n
    if -↑places ≤ d.exponent then d
    else Decimal.trim ⟨negative, half (n * 10 ^ places) (2 ^ f.scale), -↑places⟩

def positionalCell (d : Decimal) : Cell :=
  let text := d.positional
  ⟨Decimal.signed d.negative (text.takeWhile (· ≠ '.')), (text.dropWhile (· ≠ '.')).drop 1, []⟩

def nearest (f : Format) (negative : Bool) (after n : Nat) : Decimal :=
  let exact := n * 5 ^ f.scale
  let cut := (Nat.toDigits 10 exact).length - 1
  ⟨negative, half (exact * 10 ^ after) (10 ^ cut), cut - f.scale - after⟩

def digitsAfter (n : Nat) : Nat :=
  if n = 0 then 0 else (Decimal.shortest .single false n).length - 1

def scientificCell (s : Bool) (after n : Nat) : Cell :=
  let d := if n = 0 then ⟨s, 0, 0⟩ else nearest .single s after n
  let ds := Nat.toDigits 10 d.digits ++ List.replicate after '0'
  ⟨Decimal.signed s (ds.take 1), (ds.drop 1).take after, Decimal.power d.leading⟩

def largestPositional : Single := .ofInt 1000000

def leastPositional : Single := Decimal.round .single ⟨false, 1, -4⟩

def widestRatio : Single := .ofInt 1000

def hasExponents (xs : List Single) : Bool :=
  match (xs.filter fun x => x.isFinite && !x.isZero).map Number.magnitude with
  | [] => false
  | m :: ms =>
    let largest := ms.foldl (fun a b => if a.lt b then b else a) m
    let least := ms.foldl (fun a b => if b.lt a then b else a) m
    largestPositional.le largest || least.lt leastPositional || widestRatio.lt (largest / least)

def units? : Single → Option Nat
  | .finite _ n _ => some n
  | _ => none

def commonDigits (xs : List Single) : Nat := ((xs.filterMap units?).map digitsAfter).foldl max 0

/-- How the numbers of a row are written: with exponents and so many digits after the first, or
positionally. -/
inductive Form where
  | scientific (after : Nat)
  | positional

def form (xs : List Single) : Form :=
  if hasExponents xs then .scientific (commonDigits xs) else .positional

def Form.cell? (form : Form) : Single → Option Cell
  | .finite s n _ => some (match form with
    | .scientific after => scientificCell s after n
    | .positional => positionalCell (decimal .single s n))
  | _ => none

def longest (texts : List (List Char)) : Nat := (texts.map List.length).foldl max 0

def padLeft (width : Nat) (text : List Char) : List Char :=
  List.replicate (width - text.length) ' ' ++ text

def padRight (width : Nat) (text : List Char) : List Char :=
  text ++ List.replicate (width - text.length) ' '

def words (xs : List Single) : List (List Char) :=
  let form := form xs
  let cells := xs.filterMap form.cell?
  let part := longest (cells.map (·.part))
  let right := part + longest (cells.map (·.power)) + 1
  let others := (xs.filter (!·.isFinite)).map Style.message.write
  let left := max (longest (cells.map (·.whole))) (longest others - right)
  xs.map fun x => match form.cell? x with
    | some c => padLeft left c.whole ++ '.' :: padRight part c.part ++ c.power
    | none => padLeft (left + right) (Style.message.write x)

def limit : Nat := 1000

def ends : Nat := 3

def isLong (xs : List Single) : Bool := limit < xs.length

/-- The words of a row. Those of a long one are in form and width like its ends. -/
def rowWords (xs : List Single) : List (List Char) :=
  if isLong xs then
    let shown := words (xs.take ends ++ xs.drop (xs.length - ends))
    shown.take ends ++ "...".toList :: shown.drop ends
  else words xs

def trimRight (text : List Char) : List Char := (text.reverse.dropWhile (· = ' ')).reverse

def fill (width : Nat) (indent separator line : List Char) : List (List Char) → List Char
  | [] => line
  | word :: words =>
    let line := line ++ separator
    if width < line.length + word.length then
      trimRight line ++ '\n' :: fill width indent separator (indent ++ word) words
    else fill width indent separator (line ++ word) words

def bracketed (width column : Nat) (separator : List Char) (xs : List Single) : List Char :=
  match rowWords xs with
  | [] => "[]".toList
  | word :: words =>
    let indent := List.replicate (column + 1) ' '
    '[' :: (fill width indent separator (indent ++ word) words).drop (column + 1) ++ [']']

def lineWidth : Nat := 75

def plain (xs : List Single) : String := String.ofList (bracketed (lineWidth - 1) 0 [' '] xs)

def opening : List Char := "array(".toList

def closing (xs : List Single) : List Char :=
  (if isLong xs then s!"shape=({xs.length},), dtype=float32)" else "dtype=float32)").toList

def shown (xs : List Single) : String :=
  let row := opening ++ bracketed (lineWidth - 2) opening.length ", ".toList xs ++ [',']
  let last := (row.reverse.takeWhile (· ≠ '\n')).length
  let closing := closing xs
  let gap := if lineWidth < last + closing.length + 1
    then '\n' :: List.replicate opening.length ' '
    else [' ']
  String.ofList (row ++ gap ++ closing)

example : shown [.ofInt 1, .ofInt (-1)] = "array([ 1., -1.], dtype=float32)" ∧
    shown [] = "array([], dtype=float32)" ∧ plain [.ofInt 1000000] = "[1.e+06]" ∧
    shown [Decimal.round .single ⟨false, 1, -1⟩, .ofInt 100] =
      "array([  0.1, 100. ], dtype=float32)" ∧
    plain [.nan, .ofInt 1, .infinite true] = "[ nan   1. -inf]" := by
  decide +kernel

example : plain [Decimal.round .single ⟨false, 676, -1⟩, Decimal.round .single ⟨true, 1, -9⟩] =
      "[ 6.76e+01 -1.00e-09]" ∧
    plain [Decimal.round .single ⟨false, 33333333, -8⟩, Decimal.round .single ⟨false, 1, -9⟩] =
      "[3.3333334e-01 9.9999997e-10]" := by
  decide +kernel

end SolidScript.Columns
