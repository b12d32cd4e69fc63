import SolidScript.Proofs.Script.Methods
import SolidScript.Proofs.Shape.Text

/-!
# Scripts make built shapes

What a step keeps, and from it what a run of any length keeps: every shape in an outcome is built,
if no step calls `Operator`.
-/

set_option autoImplicit false

namespace SolidScript.Script
open Command Shape

variable {P Q : Shape → Prop} {free : Prop}

mutual

theorem Value.Holds.mono (hPQ : ∀ s, P s → Q s) : ∀ {v : Value}, v.Holds P → v.Holds Q
  | .scalar _, _ | .vector _, _ | .color _, _ | .aim _, _ => trivial
  | .shape s, h => hPQ s h
  | .list _, h => itemsHold_mono hPQ h
  | .copies _, h => fun i => (h i).mono hPQ
  | .calls _ _ _, h => ⟨Item.Holds.mono hPQ h.1, callsHold_mono hPQ h.2⟩
  | .image _ _, h => ⟨Item.Holds.mono hPQ h.1, Operand.Holds.mono hPQ h.2⟩

theorem Item.Holds.mono (hPQ : ∀ s, P s → Q s) : ∀ {a : Item}, a.Holds P → a.Holds Q
  | .mk _ _, h => Value.Holds.mono hPQ h

theorem itemsHold_mono (hPQ : ∀ s, P s → Q s) : ∀ {items : List Item}, itemsHold P items →
    itemsHold Q items
  | [], _ => trivial
  | _ :: _, h => ⟨Item.Holds.mono hPQ h.1, itemsHold_mono hPQ h.2⟩

theorem Operand.Holds.mono (hPQ : ∀ s, P s → Q s) : ∀ {o : Operand}, o.Holds P → o.Holds Q
  | .item _, h => Item.Holds.mono hPQ h
  | .routine _ _ _, h => callsHold_mono hPQ h

theorem Argument.Holds.mono (hPQ : ∀ s, P s → Q s) : ∀ {a : Argument}, a.Holds P → a.Holds Q
  | .literal _, h => Item.Holds.mono hPQ h
  | .list _, h | .vector _, h => argumentsHold_mono hPQ h
  | .step _, _ | .self, _ | .index, _ => trivial
  | .routine _ _, h => callsHold_mono hPQ h

theorem argumentsHold_mono (hPQ : ∀ s, P s → Q s) : ∀ {as : List Argument}, argumentsHold P as →
    argumentsHold Q as
  | [], _ => trivial
  | _ :: _, h => ⟨Argument.Holds.mono hPQ h.1, argumentsHold_mono hPQ h.2⟩

theorem Call.Holds.mono (hPQ : ∀ s, P s → Q s) : ∀ {c : Call}, c.Holds P → c.Holds Q
  | .mk _ _, h => argumentsHold_mono hPQ h

theorem callsHold_mono (hPQ : ∀ s, P s → Q s) : ∀ {cs : List Call}, callsHold P cs →
    callsHold Q cs
  | [], _ => trivial
  | _ :: _, h => ⟨Call.Holds.mono hPQ h.1, callsHold_mono hPQ h.2⟩

end

/-! Arguments and chains of calls -/

def Values.Hold (P : Shape → Prop) (values : Values) : Prop :=
  ∀ (k : Nat) (a : Item), values[k]? = some (some a) → a.Holds P

theorem Scope.find_holds {o : Option Item} (h : ∀ a ∈ o, a.Holds P) :
    Yields (Item.Holds P) (Scope.find o) := by
  unfold Scope.find
  split
  · exact yields_ok.2 (h _ rfl)
  · exact yields_error

theorem Values.find_holds {values : Values} (h : values.Hold P) (k : Int) :
    Yields (Item.Holds P) (values.find k) := by
  unfold Values.find
  split
  · exact yields_error
  · exact Scope.find_holds fun a ha => h _ a (Option.join_eq_some_iff.1 ha)

variable {values : Values} {c : Context} {scope : Scope}

mutual

theorem Argument.eval_holds (hv : values.Hold P) (hs : scope.Holds P) : ∀ a : Argument,
    a.Holds P → Yields (Operand.Holds P) (a.eval values c scope)
  | .literal i, h => yields_ok.2 h
  | .list items, h => by
    simp only [Argument.eval, yields_bind, yields_pure, Operand.Holds, Item.holds_new,
      Value.Holds, itemsHold_iff, List.forall_mem_map]
    intro os hos o ho
    exact Operand.toItem_holds (evalAll_holds hv hs items h os hos o ho)
  | .vector items, _ => by simp [Argument.eval]
  | .step k, _ => by
    simp only [Argument.eval, yields_bind, yields_pure, Operand.Holds]
    exact Values.find_holds hv k
  | .self, _ => by
    simp only [Argument.eval, yields_bind, yields_pure, Operand.Holds]
    exact Scope.find_holds hs
  | .index, _ => by
    simp only [Argument.eval, yields_bind, yields_pure, Operand.Holds]
    apply Scope.find_holds
    intro a ha
    obtain ⟨i, -, rfl⟩ := Option.map_eq_some_iff.1 ha
    cases i <;> simp [Value.ofIndex]
  | .routine calls times, h => yields_ok.2 h

theorem evalAll_holds (hv : values.Hold P) (hs : scope.Holds P) : ∀ as : List Argument,
    argumentsHold P as → Yields (fun os => ∀ o ∈ os, Operand.Holds P o) (evalAll values c scope as)
  | [], _ => by simp [evalAll]
  | a :: as, h => by
    simp only [evalAll, yields_bind, yields_pure, List.forall_mem_cons]
    intro o ho os hos
    exact ⟨a.eval_holds hv hs h.1 o ho, evalAll_holds hv hs as h.2 os hos⟩

end

theorem runCalls_holds (hv : values.Hold (Built free)) (hc : c.Keeps (Built free))
    (hs : scope.Holds (Built free)) {calls : List Call} (h : callsHold (Built free) calls)
    {a : Item} (ha : a.Holds (Built free)) :
    Yields (Item.Holds (Built free)) (runCalls values c scope calls a) := by
  induction calls generalizing a with
  | nil => exact yields_ok.2 ha
  | cons call calls ih =>
    obtain ⟨method, arguments⟩ := call
    simp only [runCalls, yields_bind]
    intro b hb
    obtain ⟨os, hos, hb⟩ := bind_eq_ok.1 hb
    exact ih h.2 (callMethod_holds hc ha (evalAll_holds hv hs arguments h.1 os hos) b hb)

theorem Context.ofDepth_keeps (hv : values.Hold (Built free)) (depth : Nat) :
    (Context.ofDepth values depth).Keeps (Built free) := by
  induction depth with
  | zero => exact fun _ _ _ _ _ _ => yields_error
  | succ depth ih => exact fun scope calls a hs h ha => runCalls_holds hv ih hs h ha

/-! Steps -/

def Step.Holds (P : Shape → Prop) : Step → Prop
  | .function _ arguments | .demonstration _ _ arguments => argumentsHold P arguments
  | .method _ target arguments => target.Holds P ∧ argumentsHold P arguments
  | .sequence arguments calls => argumentsHold P arguments ∧ callsHold P calls

def Step.isOperator : Step → Prop
  | .function name _ => name = "Operator"
  | _ => False

def Outcome.Holds (P : Shape → Prop) : Outcome → Prop
  | .value a => a.Holds P
  | .tree s => P s
  | .answer _ | .length _ | .saved _ | .fault _ => True

theorem Outcome.Holds.mono {o : Outcome} (hPQ : ∀ s, P s → Q s) (h : o.Holds P) : o.Holds Q := by
  cases o with
  | value a => exact Item.Holds.mono hPQ h
  | tree s => exact hPQ s h
  | _ => trivial

theorem catalogue_keeps {demos : List (String × Except Fault Shape)}
    (h : ∀ d ∈ demos, Yields P d.2) : ∀ e ∈ catalogue demos, Keeps P e.2 := by
  intro e he
  obtain ⟨d, hd, rfl⟩ := List.mem_map.1 he
  dsimp only
  exact nullary_keeps (shape_holds (h d hd))

theorem demonstrations_keep (p : Demo.Program) :
    ∀ e ∈ demonstrations c p, Keeps (Built free) e.2 := by
  unfold demonstrations
  split
  · exact catalogue_keeps Demo.Composition.all_built
  · exact catalogue_keeps Demo.Transform.all_built
  · simp only [List.forall_mem_singleton]
    exact unaryOr_keeps (by simp) fun _ _ => shape_holds (Demo.racetrack_built _)
  · simp only [List.forall_mem_cons]
    refine ⟨?_, ?_, ?_, by simp⟩
    · exact binaryOrBoth_keeps fun _ _ => shape_holds (Demo.Puzzle.frame_built _ _)
    · exact binaryOrBoth_keeps fun _ _ => shape_holds (Demo.Puzzle.tetra_built _ _)
    · exact binaryOrBoth_keeps fun _ _ => shape_holds (Demo.Puzzle.piece_built _ _)

theorem demonstrate_holds {program name : String} {os : List Operand}
    (hos : ∀ o ∈ os, o.Holds (Built free)) :
    Yields (Item.Holds (Built free)) (demonstrate c program name os) := by
  unfold demonstrate
  split
  · rename_i command h
    obtain ⟨p, -, h⟩ := Option.bind_eq_some_iff.1 h
    obtain ⟨_, _, h, -⟩ := List.lookup_eq_some_iff.1 h
    have hm : (name, command) ∈ demonstrations c p := by simp [h]
    exact demonstrations_keep p _ hm os hos
  · exact yields_error

theorem answered_holds (f : Item → Except Fault Bool) (os : List Operand) :
    Yields (Outcome.Holds P) (answered f os) := by
  unfold answered
  split <;> simp [Outcome.Holds]

variable {state : State}

theorem outermost_holds : Scope.outermost.Holds P := by simp [Scope.outermost, Scope.Holds]

theorem State.context_keeps (hv : state.values.Hold (Built free)) :
    state.context.Keeps (Built free) := Context.ofDepth_keeps hv _

theorem State.eval_holds (hv : state.values.Hold P) {a : Argument} (h : a.Holds P) :
    Yields (Item.Holds P) (state.eval a) := by
  simp only [State.eval, yields_bind, yields_pure]
  intro o ho
  exact Operand.toItem_holds (a.eval_holds hv outermost_holds h o ho)

theorem State.evalAll_holds (hv : state.values.Hold P) {as : List Argument}
    (h : argumentsHold P as) : Yields (fun os => ∀ o ∈ os, o.Holds P) (state.evalAll as) :=
  Script.evalAll_holds hv outermost_holds as h

theorem ask_holds (hv : state.values.Hold (Built free)) {name : String} {target : Argument}
    {arguments : List Argument} (ht : target.Holds (Built free))
    (ha : argumentsHold (Built free) arguments) :
    Yields (Outcome.Holds (Built free)) (ask state name target arguments) := by
  simp only [ask, yields_bind]
  intro a hta os hos
  have hta := State.eval_holds hv ht a hta
  have hos := State.evalAll_holds hv ha os hos
  split
  · exact answered_holds _ _
  · exact answered_holds _ _
  · exact answered_holds _ _
  · unfold lengthOf
    split <;> simp [Outcome.Holds]
  · unfold treeOf
    split
    · simp only [yields_bind, yields_pure, Outcome.Holds]
      exact toShape_holds (Item.holds_value.2 hta)
    · exact yields_error
  · simp [Outcome.Holds]
  · simp [Outcome.Holds]
  · simp only [yields_bind, yields_pure, Outcome.Holds]
    exact callMethod_holds (State.context_keeps hv) hta hos

theorem makeSequence_holds {calls : List Call} {os : List Operand} (hos : ∀ o ∈ os, o.Holds P)
    (h : callsHold P calls) : Yields (Value.Holds P) (makeSequence c calls os) := by
  unfold makeSequence
  split
  · simp only [yields_bind, yields_pure, Value.Holds]
    intro _ _
    exact ⟨Operand.toItem_holds (hos _ (by simp)), h⟩
  · exact yields_error

theorem Step.run_holds (hv : state.values.Hold (Built free)) {step : Step}
    (hs : step.Holds (Built free)) (hf : free ∨ ¬step.isOperator) :
    Yields (Outcome.Holds (Built free)) (step.run state) := by
  cases step with
  | function name arguments =>
    simp only [Step.run, yields_bind, yields_pure, Outcome.Holds]
    intro os hos
    exact callFunction_holds (State.context_keeps hv) hf (State.evalAll_holds hv hs os hos)
  | method name target arguments => exact ask_holds hv hs.1 hs.2
  | sequence arguments calls =>
    simp only [Step.run, yields_bind, yields_pure, Outcome.Holds, Item.holds_new]
    intro os hos
    exact makeSequence_holds (State.evalAll_holds hv hs.1 os hos) hs.2
  | demonstration program name arguments =>
    simp only [Step.run, yields_bind, yields_pure, Outcome.Holds]
    intro os hos
    exact demonstrate_holds (State.evalAll_holds hv hs os hos)

theorem Outcome.kept_holds {o : Outcome} (h : o.Holds P) : ∀ a ∈ o.kept, a.Holds P := by
  cases o with
  | value b => simpa [Outcome.kept, Outcome.Holds] using h
  | fault f => simp [Outcome.kept]
  | _ => simp [Outcome.kept, Value.absent]

theorem State.step_holds (hv : state.values.Hold (Built free)) {step : Step}
    (hs : step.Holds (Built free)) (hf : free ∨ ¬step.isOperator) :
    (state.step step).1.Holds (Built free) ∧ (state.step step).2.values.Hold (Built free) := by
  have ho : (state.step step).1.Holds (Built free) := by
    simp only [State.step]
    split
    · exact Step.run_holds hv hs hf _ ‹_›
    · trivial
  constructor
  · exact ho
  · intro k a h
    simp only [State.step, Array.getElem?_push] at h
    split at h
    · obtain ⟨b, hb, rfl⟩ := Option.map_eq_some_iff.1 (Option.some.inj h)
      exact Item.settle_holds _ _ b (Outcome.kept_holds ho b hb)
    · exact hv k a h

theorem runSteps_holds (hv : state.values.Hold (Built free)) {steps : List Step}
    (hs : ∀ step ∈ steps, step.Holds (Built free) ∧ (free ∨ ¬step.isOperator)) :
    ∀ o ∈ runSteps state steps, o.Holds (Built free) := by
  induction steps generalizing state with
  | nil => simp [runSteps]
  | cons step steps ih =>
    rw [List.forall_mem_cons] at hs
    obtain ⟨ho, hv⟩ := State.step_holds hv hs.1.1 hs.1.2
    simp only [runSteps, List.forall_mem_cons]
    exact ⟨ho, ih hv hs.2⟩

theorem run_holds {steps : List Step}
    (hs : ∀ step ∈ steps, step.Holds (Built free) ∧ (free ∨ ¬step.isOperator)) :
    ∀ o ∈ run steps, o.Holds (Built free) :=
  runSteps_holds (fun k a h => by simp [State.empty] at h) hs

/-- What holds of all shapes that are built without an operation by hand holds of those that a
script without one leaves. -/
theorem run_mono (hP : ∀ s, Built False s → P s) {steps : List Step}
    (hs : ∀ step ∈ steps, step.Holds (Built False) ∧ ¬step.isOperator) :
    ∀ o ∈ run steps, o.Holds P := fun o ho =>
  (run_holds (fun step h => ⟨(hs step h).1, .inr (hs step h).2⟩) o ho).mono hP

end SolidScript.Script
