import SolidScript.Proofs.Shape.Layers
import SolidScript.Script.Argument

/-!
# Chains of calls that place a shape

Calls that move, turn, scale, mirror or colour a shape, one after the other, fail as the first of
them would alone. If none does, they leave one layer for each run of moves, each run of turns of one
form, and each other call.
-/

set_option autoImplicit false

namespace SolidScript.Script
open Binary Command Shape

inductive Placing where
  | translate
  | rotate
  | scale
  | scaleEach
  | mirror
  | color

variable {values : Values} {c : Context} {scope : Scope} {s : Shape} {d : Dimension}
  {ls : List Layer} {l : Layer}

namespace Placing

def method : Placing → String
  | translate => "translate"
  | rotate => "rotate"
  | scale => "scale"
  | scaleEach => "scale_nonuniform"
  | mirror => "mirror"
  | color => "color"

/-- The layer that an operand makes around a shape. -/
def layer (c : Context) (s : Shape) (v : Value) : Placing → Except Fault Layer
  | translate => do .translate <$> s.coordinates (← v.nest c)
  | rotate => do s.numberOrVector .turn .turnEach (← scalarOrList c v)
  | scale => do s.numberOrVector .scale .scaleEach (← scalarOrList c v)
  | scaleEach => do .scaleEach <$> s.coordinates (← v.nest c)
  | mirror => do .mirror <$> s.coordinates (← v.nest c)
  | color => do return .color (← v.toColor)

def read (c : Context) (s : Shape) (p : Placing) : List Operand → Except Fault Layer
  | [x] => p.layer c s x.toValue
  | _ => .error .wrongArguments

theorem layer_fits {v : Value} (hd : s.dim = some d) (p : Placing) (h : p.layer c s v = .ok l) :
    l.Fits d := by
  have vector_fits {ofVector : Coordinates → Layer} {n : Nested}
      (h : ofVector <$> s.coordinates n = .ok l)
      (hv : ∀ xs, xs.length = d.size → (ofVector xs).Fits d) : l.Fits d := by
    obtain ⟨xs, hxs, rfl⟩ := map_eq_ok.1 h
    exact hv xs (length_of_coordinates hxs d hd)
  cases p with
  | translate =>
    obtain ⟨n, -, h⟩ := bind_eq_ok.1 h
    exact vector_fits h fun _ h => h
  | rotate =>
    obtain ⟨n, -, h⟩ := bind_eq_ok.1 h
    exact numberOrVector_fits h hd (fun _ => trivial) (fun _ h => h)
  | scale =>
    obtain ⟨n, -, h⟩ := bind_eq_ok.1 h
    exact numberOrVector_fits h hd (fun _ => trivial) (fun _ h => h)
  | scaleEach =>
    obtain ⟨n, -, h⟩ := bind_eq_ok.1 h
    exact vector_fits h fun _ h => h
  | mirror =>
    obtain ⟨n, -, h⟩ := bind_eq_ok.1 h
    exact vector_fits h fun _ h => h
  | color =>
    obtain ⟨k, -, h⟩ := bind_eq_ok.1 h
    cases h
    trivial

theorem read_fits {operands : List Operand} (hd : s.dim = some d) (p : Placing)
    (h : p.read c s operands = .ok l) : l.Fits d := by
  match operands with
  | [x] => exact p.layer_fits hd h
  | [] => cases h
  | _ :: _ :: _ => cases h

end Placing

structure PlacingCall where
  placing : Placing
  arguments : List Argument

namespace PlacingCall

def toCall (call : PlacingCall) : Call := .mk call.placing.method call.arguments

def layer (values : Values) (c : Context) (scope : Scope) (s : Shape) (call : PlacingCall) :
    Except Fault Layer := do
  call.placing.read c s (← evalAll values c scope call.arguments)

theorem layer_fits (hd : s.dim = some d) (call : PlacingCall)
    (h : call.layer values c scope s = .ok l) : l.Fits d := by
  obtain ⟨operands, -, h⟩ := bind_eq_ok.1 h
  exact call.placing.read_fits hd h

end PlacingCall

def stacked (s : Shape) (ls : List Layer) : Item := .new (.shape (s.stack ls))

def pushed (s : Shape) (ls : List Layer) (l : Layer) : Item := stacked s (Layer.push ls l)

theorem made_put {α : Type} (read : Except Fault α) {f : α → Except Fault Shape}
    {layer : α → Except Fault Layer} (h : ∀ a, f a = s.stack <$> (layer a >>= Layer.put ls)) :
    made (do return .shape (← f (← read))) =
      stacked s <$> ((read >>= layer) >>= Layer.put ls) := by
  cases read with
  | error e => rfl
  | ok a =>
    change made (do return .shape (← f a)) = stacked s <$> (layer a >>= Layer.put ls)
    rw [h]
    cases layer a >>= Layer.put ls <;> rfl

section
variable (ht : ∀ ps child, s ≠ .operator .translate ps child)
  (hr : ∀ ps child, s ≠ .operator .rotate ps child)
include ht hr

theorem callMethod_put (ls : List Layer) (p : Placing) (o : Option Origin)
    (operands : List Operand) :
    callMethod c (.mk o (.shape (s.stack ls))) p.method operands =
      stacked s <$> (p.read c s operands >>= Layer.put ls) := by
  match operands with
  | [x] =>
    cases p with
    | translate => exact made_put (x.toValue.nest c) (stack_translate ht ls)
    | rotate => exact made_put (scalarOrList c x.toValue) (stack_rotate hr ls)
    | scale => exact made_put (scalarOrList c x.toValue) (stack_scale s ls)
    | scaleEach => exact made_put (x.toValue.nest c) (stack_scaleEach s ls)
    | mirror => exact made_put (x.toValue.nest c) (stack_mirror s ls)
    | color => exact made_put x.toValue.toColor (stack_color s ls)
  | [] => cases p <;> rfl
  | _ :: _ :: _ => cases p <;> rfl

theorem run_put (ls : List Layer) (call : PlacingCall) (o : Option Origin) :
    call.toCall.run values c scope (.mk o (.shape (s.stack ls))) =
      stacked s <$> (call.layer values c scope s >>= Layer.put ls) := by
  have hcall := callMethod_put (c := c) ht hr ls call.placing o
  simp only [PlacingCall.toCall, Call.run, hcall, PlacingCall.layer, map_bind, bind_assoc]

variable (hd : s.dim = some d)
include hd

theorem run_stack (hls : ∀ l ∈ ls, l.Fits d) (call : PlacingCall) (o : Option Origin) :
    call.toCall.run values c scope (.mk o (.shape (s.stack ls))) =
      pushed s ls <$> call.layer values c scope s := by
  rw [run_put ht hr]
  cases hl : call.layer values c scope s with
  | error e => rfl
  | ok l =>
    rw [ok_bind, Layer.put_of_fits hls (call.layer_fits hd hl)]
    rfl

/-- Calls one after the other put on a shape in layers the layers that they make around the
shape. -/
theorem runCalls_stack (hls : ∀ l ∈ ls, l.Fits d) (calls : List PlacingCall) (o : Option Origin) :
    Item.value <$> runCalls values c scope (calls.map PlacingCall.toCall)
        (.mk o (.shape (s.stack ls))) =
      (fun ms => .shape (s.stack (ms.foldl Layer.push ls))) <$>
        calls.mapM (PlacingCall.layer values c scope s) := by
  induction calls generalizing ls o with
  | nil => rfl
  | cons call calls ih =>
    rw [List.map_cons, runCalls, run_stack ht hr hd hls, List.mapM_cons]
    cases hl : call.layer values c scope s with
    | error e => rfl
    | ok l =>
      have hpushed := Layer.Fits.push hls (PlacingCall.layer_fits hd call hl)
      refine (ih hpushed none).trans ?_
      cases calls.mapM (PlacingCall.layer values c scope s) <;> rfl

end

/-- Calls that place or colour a shape of the plane or of space, one after the other. Alone, each
puts one layer around the shape. The chain fails if and only if one of the calls does alone, with
the fault of the first; otherwise it leaves the shape in the sums of the longest runs of layers that
join. -/
theorem placing_chain (values : Values) (c : Context) (scope : Scope) (o : Option Origin)
    {s : Shape} {d : Dimension} (hd : s.dim = some d)
    (ht : ∀ ps child, s ≠ .operator .translate ps child)
    (hr : ∀ ps child, s ≠ .operator .rotate ps child) (calls : List PlacingCall) :
    let alone (call : PlacingCall) := call.toCall.run values c scope (.mk o (.shape s))
    let chain := runCalls values c scope (calls.map PlacingCall.toCall) (.mk o (.shape s))
    (∀ call, alone call = (fun l => .new (.shape (l.wrap s))) <$> call.layer values c scope s) ∧
    ((∃ e, chain = .error e) ↔ ∃ call ∈ calls, ∃ e, alone call = .error e) ∧
    (∀ e, chain = .error e ↔ ∃ before call after, calls = before ++ call :: after ∧
      (∀ b ∈ before, ∃ a, alone b = .ok a) ∧ alone call = .error e) ∧
    Item.value <$> chain = (fun ls => .shape ((Layer.merge ls).foldl Layer.wrap s)) <$>
      calls.mapM (PlacingCall.layer values c scope s) := by
  intro alone chain
  have hempty : ∀ l ∈ ([] : List Layer), l.Fits d := by simp
  have halone : ∀ call, alone call =
      (fun l => .new (.shape (l.wrap s))) <$> call.layer values c scope s :=
    fun call => run_stack ht hr hd hempty call o
  have hchain : Item.value <$> chain =
      (fun ls => .shape ((Layer.merge ls).foldl Layer.wrap s)) <$>
        calls.mapM (PlacingCall.layer values c scope s) := by
    simp only [← stack_foldl_push]
    exact runCalls_stack ht hr hd hempty calls o
  have hfirst : ∀ e, chain = .error e ↔ ∃ before call after, calls = before ++ call :: after ∧
      (∀ b ∈ before, ∃ a, alone b = .ok a) ∧ alone call = .error e := by
    intro e
    rw [← map_eq_error (f := Item.value), hchain, map_eq_error, mapM_eq_error]
    simp only [halone, map_eq_error, isOk_map]
  have hany : (∃ e, chain = .error e) ↔ ∃ call ∈ calls, ∃ e, alone call = .error e := by
    simp only [← map_eq_error (f := Item.value) (r := chain), hchain, halone, map_eq_error,
      exists_mapM_eq_error]
  exact ⟨halone, hany, hfirst, hchain⟩

def strides (x : Single) : List PlacingCall :=
  [⟨.translate, [.literal (.new (.vector [x, .zero false, .zero false]))]⟩,
    ⟨.translate, [.literal (.new (.vector [x, .zero false]))]⟩,
    ⟨.rotate, [.literal (.new (.single x))]⟩,
    ⟨.rotate, [.literal (.new (.vector [x, x, x]))]⟩,
    ⟨.rotate, [.literal (.new (.vector [x, x, x]))]⟩,
    ⟨.color, [.literal (.new (.text "red".toList))]⟩]

theorem placing_chain_strides :
    Item.value <$> runCalls #[] (.of #[]) .outermost ((strides (.ofInt 1)).map PlacingCall.toCall)
        (.new (.shape (.sphere .nan))) =
      .ok (.shape (.operator .color [.color .red]
        (.operator .rotate [.vector [.ofInt 2, .ofInt 2, .ofInt 2]]
          (.operator .rotate [.scalar (.single (.ofInt 1))]
            (.operator .translate [.vector [.ofInt 2, .zero false, .zero false]]
              (.sphere .nan)))))) := by
  obtain ⟨-, -, -, h⟩ := placing_chain #[] (.of #[]) .outermost none (s := .sphere .nan) rfl
    (by simp) (by simp) (strides (.ofInt 1))
  have htwo : (.ofInt 1 + .ofInt 1 : Single) = .ofInt 2 := by decide +kernel
  have hzero : (.zero false + .zero false : Single) = .zero false := by decide +kernel
  rw [← htwo, ← hzero]
  exact h

end SolidScript.Script
