import SolidScript.Text.Printable

/-!
# Quoted text

Text in a message stands between apostrophes, or between quotation marks if it holds apostrophes
and no quotation mark. The mark and the backslash are escaped, and what cannot be printed is
written by its code point.
-/

set_option autoImplicit false

namespace SolidScript.Text

def apostrophe : Char := '\x27'

def quotationMark : Char := '\x22'

def hex (width n : Nat) : List Char :=
  let ds := Nat.toDigits 16 n
  List.replicate (width - ds.length) '0' ++ ds

def codeEscape (c : Char) : List Char :=
  if c.toNat < 0x100 then '\\' :: 'x' :: hex 2 c.toNat
  else if c.toNat < 0x10000 then '\\' :: 'u' :: hex 4 c.toNat
  else '\\' :: 'U' :: hex 8 c.toNat

def escape (mark c : Char) : List Char :=
  if c = mark ∨ c = '\\' then ['\\', c]
  else if c = '\t' then ['\\', 't']
  else if c = '\n' then ['\\', 'n']
  else if c = '\r' then ['\\', 'r']
  else if isPrintable c then [c]
  else codeEscape c

def quotingMark (cs : List Char) : Char :=
  if apostrophe ∈ cs ∧ quotationMark ∉ cs then quotationMark else apostrophe

def quoted (s : String) : String :=
  let mark := quotingMark s.toList
  String.ofList (mark :: s.toList.flatMap (escape mark) ++ [mark])

example : quoted "tab\tnl\n\\" = "'tab\\tnl\\n\\\\'" ∧ quoted "it's" = "\"it's\"" ∧
    quoted "\x00\x7f☃" = "'\\x00\\x7f☃'" := by
  decide +kernel

end SolidScript.Text
