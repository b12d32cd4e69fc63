import SolidScript.Message
import SolidScript.Script.Context

/-!
# Values in messages, names and truth

`shown` is a value as an item of a list, `inline` a value as part of a line, where a shape is its
script. A colour or direction is looked up by the value that names it.
-/

set_option autoImplicit false

namespace SolidScript.Script

namespace Value

mutual

def shown : Value → String
  | scalar s => s.shown
  | vector xs => Columns.shown xs
  | color c => s!"<Color.{c.constant}: '{c.name}'>"
  | aim a => s!"<Aim.{a.constant}: '{a.name}'>"
  | shape s => s.shown
  | list items =>
    let parts := ", ".intercalate (shownAll items)
    s!"[{parts}]"
  | copies .. | calls .. | image .. => "<sequence>"

def shownAll : List Item → List String
  | [] => []
  | .mk _ v :: items => v.shown :: shownAll items

end

def inline : Value → Except Fault String
  | scalar s => .ok s.inline
  | vector xs => .ok (Columns.plain xs)
  | color c => .ok s!"Color.{c.constant}"
  | aim a => .ok s!"Aim.{a.constant}"
  | shape s => do return String.ofList (← s.render)
  | v => .ok v.shown

/-- What a value that names nothing is refused for. A shape is filed under its script, which must
exist unless it fails for the sort of a parameter. -/
def unlisted (v : Value) (refusal : String → Fault) : Fault :=
  match v with
  | vector [_] => refusal v.shown
  | vector _ => .ambiguousTruth
  | shape s => match s.render with
    | .ok _ | .error .noNumber => refusal v.shown
    | .error e => e
  | v => refusal v.shown

def toColor (v : Value) : Except Fault Color :=
  let known := match v with
    | color c => some c
    | scalar (.text s) => Color.ofName? s
    | _ => none
  known.elim (.error (v.unlisted .unknownColor)) .ok

def toAim (v : Value) : Except Fault Aim :=
  let known := match v with
    | aim a => some a
    | scalar (.text s) => Aim.ofName? s
    | _ => none
  known.elim (.error (v.unlisted .unknownAim)) .ok

def isTrue (c : Context) (v : Value) : Except Fault Bool :=
  match v.sequence? c with
  | some s => do return (← s.length) != 0
  | none => match v with
    | scalar .absent => .ok false
    | scalar (.truth b) => .ok b
    | scalar (.whole i) => .ok (i != 0)
    | scalar (.double x) => .ok !x.isZero
    | scalar (.single x) => .ok !x.isZero
    | scalar (.text s) => .ok !s.isEmpty
    | vector [x] => .ok !x.isZero
    | vector _ => .error .ambiguousTruth
    | list items => .ok !items.isEmpty
    | _ => .ok true

end Value
end SolidScript.Script
