import SolidScript.Decimal.Columns
import SolidScript.Nested
import SolidScript.Text.Quoted

/-!
# Scalars in messages

A message shows a scalar on its own (`plain`), as an item of a list (`shown`), where its sort can be
seen, or as part of a line (`inline`), where a number of single precision has the digits of its
double.
-/

set_option autoImplicit false

namespace SolidScript
open Binary

def doubleText (x : Double) : String := String.ofList (Style.message.write x)

def singleText (x : Single) : String := String.ofList (Style.brief.write x)

namespace Scalar

def plain : Scalar → String
  | absent => "None"
  | truth b => if b then "True" else "False"
  | whole i => toString i
  | double x => doubleText x
  | single x => singleText x
  | text s => s
  | foreign _ => "<function>"

def shown : Scalar → String
  | single x => s!"np.float32({singleText x})"
  | text s => Text.quoted s
  | s => s.plain

def inline : Scalar → String
  | single x => doubleText x.convert
  | s => s.plain

example : (single (.ofInt 5)).plain = "5.0" ∧ (single (.ofInt 5)).shown = "np.float32(5.0)" ∧
    (single (Decimal.round .single ⟨false, 1, -1⟩)).inline = "0.10000000149011612" := by
  decide +kernel

end Scalar
end SolidScript
