import SolidScript.Proofs.Yields
import SolidScript.Script.Step

/-!
# Saving a script

Saving warns, renders, opens the file and writes it, in this order. So it is all or nothing: a
failure is reported with the files as they were, and a success changes one file only.
-/

set_option autoImplicit false

namespace SolidScript

/-! Saving step by step -/

namespace Saving

variable {α β : Type} {w w' : Progress} {p : Path} {e : Fault}

theorem run_bind {x : Saving α} {a : α} (h : x.run.run w = (.ok a, w')) (f : α → Saving β) :
    (x >>= f).run.run w = (f a).run.run w' := by
  simp only [ExceptT.run_bind, StateT.run_bind, h]
  rfl

theorem run_bind_error {x : Saving α} (h : x.run.run w = (.error e, w')) (f : α → Saving β) :
    (x >>= f).run.run w = (.error e, w') := by
  simp only [ExceptT.run_bind, StateT.run_bind, h]
  rfl

theorem run_say (text : String) (w : Progress) :
    (say text).run.run w = (.ok (), ⟨w.log ++ text, w.store⟩) := rfl

theorem run_append (file text : String) (w : Progress) :
    (append file text).run.run w = (.ok (), ⟨w.log, w.store.append file text⟩) := rfl

theorem run_openFile (h : w.store.places.refusal w.store.files p = none) :
    (openFile p).run.run w = (.ok (w.store.places.file p),
      ⟨w.log, w.store.write (w.store.places.file p) ""⟩) := by
  change openFile p w = _
  rw [openFile, h]

theorem run_openFile_refused (h : w.store.places.refusal w.store.files p = some e) :
    (openFile p).run.run w = (.error e, w) := by
  change openFile p w = _
  rw [openFile, h]

theorem run_say_if (c : Prop) [Decidable c] (text : String) (next : Saving α) (w : Progress) :
    (if c then (do say text; next) else next).run.run w =
      next.run.run ⟨w.log ++ if c then text else "", w.store⟩ := by
  split
  · exact run_bind (run_say text w) _
  · rw [String.append_empty]

end Saving

def caution (p : Path) (verbose : Bool) : String :=
  if verbose ∧ Text.lower p.suffix ≠ ".scad" then warning p else ""

/-- What saving a script leaves of a store and says. -/
structure Saves (store : Store) (p : Path) (verbose : Bool) (script : Except Fault (List Char))
    (report : SaveReport) : Prop where
  /-- The script is looked at before the file. -/
  fails : ∀ e, report.result = .error e ↔ script = .error e ∨
    (∃ text, script = .ok text) ∧ store.places.refusal store.files p = some e
  failure : ∀ e, report.result = .error e →
    report.store = store ∧ report.log = caution p verbose
  success : report.result = .ok () → ∃ text, script = .ok text ∧
    report.store.places = store.places ∧
    report.store.read? (store.places.file p) = some (String.ofList text ++ "\n") ∧
    (∀ file, file ≠ store.places.file p → report.store.read? file = store.read? file) ∧
    report.log = caution p verbose ++ if verbose then success p else ""

section
open Saving

variable {store : Store} {p : Path} {verbose : Bool} {script : Except Fault (List Char)} {e : Fault}
  {text : List Char}

theorem save_of_run {log : String} {after : Store} {result : Except Fault Unit}
    (h : (saving p verbose script).run.run ⟨"", store⟩ = (result, ⟨"" ++ log, after⟩)) :
    save store p verbose script = ⟨log, after, result⟩ := by
  rw [save, h, String.empty_append]

theorem save_unrendered :
    save store p verbose (.error e) = ⟨caution p verbose, store, .error e⟩ := by
  apply save_of_run
  apply (run_say_if _ (warning p) _ _).trans
  exact run_bind_error rfl _

theorem save_refused (h : store.places.refusal store.files p = some e) :
    save store p verbose (.ok text) = ⟨caution p verbose, store, .error e⟩ := by
  apply save_of_run
  apply (run_say_if _ (warning p) _ _).trans
  apply (run_bind rfl _).trans
  exact run_bind_error (run_openFile_refused h) _

theorem save_opened (h : store.places.refusal store.files p = none) :
    save store p verbose (.ok text) = ⟨caution p verbose ++ if verbose then success p else "",
      ((store.write (store.places.file p) "").append (store.places.file p)
        (String.ofList text)).append (store.places.file p) "\n", .ok ()⟩ := by
  apply save_of_run
  rw [← String.append_assoc]
  apply (run_say_if _ (warning p) _ _).trans
  apply (run_bind rfl _).trans
  apply (run_bind (run_openFile h) _).trans
  apply (run_bind (run_append _ _ _) _).trans
  apply (run_bind (run_append _ _ _) _).trans
  exact run_say_if _ (success p) (pure ()) _

theorem save_saves (store : Store) (p : Path) (verbose : Bool)
    (script : Except Fault (List Char)) :
    Saves store p verbose script (save store p verbose script) := by
  cases script with
  | error e =>
    rw [save_unrendered]
    exact ⟨by simp, fun _ _ => ⟨rfl, rfl⟩, nofun⟩
  | ok text =>
    cases hopen : store.places.refusal store.files p with
    | some e =>
      rw [save_refused hopen]
      exact ⟨by simp [hopen], fun _ _ => ⟨rfl, rfl⟩, nofun⟩
    | none =>
      rw [save_opened hopen]
      refine ⟨by simp [hopen], nofun, fun _ => ⟨text, rfl, rfl, ?_, fun file hfile => ?_, rfl⟩⟩
      · rw [Store.read?_append, Store.read?_append, Store.read?_write]
        simp
      · rw [Store.read?_append_of_ne _ _ hfile, Store.read?_append_of_ne _ _ hfile,
          Store.read?_write_of_ne _ _ hfile]

end

def Store.Keeps (before after : Store) : Prop :=
  ∀ name, (before.read? name).isSome → (after.read? name).isSome

theorem Store.Keeps.refl (store : Store) : store.Keeps store := fun _ h => h

theorem Store.Keeps.trans {a b c : Store} (hab : a.Keeps b) (hbc : b.Keeps c) : a.Keeps c :=
  fun name h => hbc name (hab name h)

theorem save_keeps (store : Store) (p : Path) (verbose : Bool)
    (script : Except Fault (List Char)) : store.Keeps (save store p verbose script).store := by
  intro name hname
  have hsaves := save_saves store p verbose script
  cases hresult : (save store p verbose script).result with
  | error e => rwa [(hsaves.failure e hresult).1]
  | ok _ =>
    obtain ⟨text, -, -, hsaved, hother, -⟩ := hsaves.success hresult
    by_cases h : name = store.places.file p
    · rw [h, hsaved]
      rfl
    · rwa [hother name h]

namespace Script

def saveArguments (path : String) (verbose : Option Bool) : List Argument :=
  .literal (.new (.scalar (.text path))) ::
    verbose.toList.map fun b => .literal (.new (.truth b))

theorem destination_saveArguments (state : State) (path : String) (verbose : Option Bool) :
    ∃ operands, state.evalAll (saveArguments path verbose) = .ok operands ∧
      destination state.context operands = .ok (.ofString path, verbose.getD true) := by
  cases verbose with
  | none => exact ⟨_, rfl, rfl⟩
  | some b => exact ⟨_, rfl, rfl⟩

/-- A step that saves a shape, by the method or by the function, reports on the files that it finds
and leaves those of the report. -/
theorem step_saves (state : State) {target : Argument} {o : Option Origin} {s : Shape}
    (h : state.eval target = .ok (.mk o (.shape s))) (path : String) (verbose : Option Bool)
    {name : String} (hname : name = "save" ∨ name = "save_fn") :
    let after := state.step (.method name target (saveArguments path verbose))
    ∃ report, after.1 = .saved report ∧ after.2.store = report.store ∧
      Saves state.store (.ofString path) (verbose.getD true) s.render report := by
  obtain ⟨operands, hoperands, hdestination⟩ := destination_saveArguments state path verbose
  have hsave : saveValue state.context state.store (.shape s) operands =
      save state.store (.ofString path) (verbose.getD true) s.render := by
    rw [saveValue, hdestination]
    rfl
  have hrun : (Step.method name target (saveArguments path verbose)).run state =
      .ok (.saved (save state.store (.ofString path) (verbose.getD true) s.render)) := by
    rw [← hsave, Step.run, ask, h, ok_bind, hoperands, ok_bind]
    rcases hname with rfl | rfl <;> rfl
  refine ⟨_, ?_, ?_, save_saves state.store (.ofString path) (verbose.getD true) s.render⟩
  · rw [State.step, hrun]
  · rw [State.step, hrun]
    rfl

def oldFiles : State :=
  ⟨#[], [("/tmp/part.txt", "old"), ("notes.txt", "kept")],
    Tree.places ⟨[["tmp"], ["work"]], ["work"]⟩⟩

/-- An operation without parameters cannot be rendered, and in a directory that is missing no file
can be opened. Both leave the files as they were, and only the warning is given. A circle takes the
place of what its file held, and the other file stays as it is. -/
theorem step_saves_part :
    let saved (s : Shape) (path : String) :=
      oldFiles.step (.method "save" (.literal (.new (.shape s))) (saveArguments path none))
    let broken := saved (.operator .translate [] (.circle (.ofInt 1))) "/tmp//part.txt"
    let missing := saved (.circle (.ofInt 1)) "/tmp/parts/part.txt"
    let circle := saved (.circle (.ofInt 1)) "/tmp//part.txt"
    let cautioned := "WARNING: 'part.txt' does not end in '.scad'; OpenSCAD may not open it.\n"
    (∃ report, broken.1 = .saved report ∧ report.result = .error .missingParameter ∧
      report.log = cautioned ∧ broken.2.store = oldFiles.store) ∧
    (∃ report, missing.1 = .saved report ∧ report.result = .error .missingDirectory ∧
      report.log = cautioned ∧ missing.2.store = oldFiles.store) ∧
    ∃ report, circle.1 = .saved report ∧ report.result = .ok () ∧
      report.log = cautioned ++ "SUCCESS: Script exported to '/tmp/part.txt'.\n" ∧
      circle.2.store.read? "/tmp/part.txt" = some "circle(d = 1);\n" ∧
      circle.2.store.read? "notes.txt" = some "kept" := by
  intro saved broken missing circle cautioned
  have htarget (s : Shape) : oldFiles.eval (.literal (.new (.shape s))) = .ok (.new (.shape s)) :=
    rfl
  have hstep (s : Shape) (path : String) := step_saves oldFiles (htarget s) path none (.inl rfl)
  have hscript : (Shape.circle (.ofInt 1)).render = .ok "circle(d = 1);".toList := by
    decide +kernel
  refine ⟨?broken, ?missing, ?circle⟩
  case broken =>
    obtain ⟨report, houtcome, hstore, hsaves⟩ :=
      hstep (.operator .translate [] (.circle (.ofInt 1))) "/tmp//part.txt"
    have hresult : report.result = .error .missingParameter := (hsaves.fails _).2 (.inl rfl)
    obtain ⟨hunchanged, hlog⟩ := hsaves.failure _ hresult
    refine ⟨report, houtcome, hresult, ?_, hstore.trans hunchanged⟩
    rw [hlog]
    decide +kernel
  case missing =>
    obtain ⟨report, houtcome, hstore, hsaves⟩ :=
      hstep (.circle (.ofInt 1)) "/tmp/parts/part.txt"
    have hopen : oldFiles.store.places.refusal oldFiles.store.files
        (.ofString "/tmp/parts/part.txt") = some .missingDirectory := by
      decide +kernel
    have hresult : report.result = .error .missingDirectory :=
      (hsaves.fails _).2 (.inr ⟨⟨_, hscript⟩, hopen⟩)
    obtain ⟨hunchanged, hlog⟩ := hsaves.failure _ hresult
    refine ⟨report, houtcome, hresult, ?_, hstore.trans hunchanged⟩
    rw [hlog]
    decide +kernel
  case circle =>
    obtain ⟨report, houtcome, hstore, hsaves⟩ := hstep (.circle (.ofInt 1)) "/tmp//part.txt"
    have hfile : oldFiles.store.places.file (.ofString "/tmp//part.txt") = "/tmp/part.txt" := by
      decide +kernel
    have hopen : oldFiles.store.places.refusal oldFiles.store.files (.ofString "/tmp//part.txt") =
        none := by
      decide +kernel
    have hresult : report.result = .ok () := by
      cases hresult : report.result with
      | ok _ => rfl
      | error e =>
        rcases (hsaves.fails e).1 hresult with h | ⟨-, h⟩
        · cases hscript.symm.trans h
        · cases hopen.symm.trans h
    obtain ⟨text, htext, -, hsaved, hother, hlog⟩ := hsaves.success hresult
    obtain rfl : text = "circle(d = 1);".toList := Except.ok.inj (htext.symm.trans hscript)
    rw [hfile] at hsaved hother
    refine ⟨report, houtcome, hresult, ?_, ?_, ?_⟩
    · rw [hlog]
      decide +kernel
    · rw [hstore, hsaved]
      decide +kernel
    · rw [hstore, hother _ (by decide)]
      decide +kernel

/-! No file is lost -/

section
variable (c : Context) (store : Store) (v : Value) (operands : List Operand)

theorem saveValue_keeps : store.Keeps (saveValue c store v operands).store := by
  unfold saveValue
  split
  · exact save_keeps store _ _ _
  · exact .refl store

theorem saveShape_keeps : store.Keeps (saveShape c store v operands).store := by
  unfold saveShape
  split
  · exact saveValue_keeps c store _ operands
  · exact .refl store

end

abbrev KeepsFiles (store : Store) (r : Except Fault Outcome) : Prop :=
  Yields (fun outcome => store.Keeps (outcome.storeAfter store)) r

theorem keepsFiles_return {store : Store} {α : Type} {r : Except Fault α} {f : α → Outcome}
    (h : ∀ a, (f a).storeAfter store = store) : KeepsFiles store (do return f (← r)) := by
  simp only [KeepsFiles, yields_bind, yields_pure, h]
  exact fun _ _ => .refl store

theorem ask_keeps (state : State) (name : String) (target : Argument)
    (arguments : List Argument) : KeepsFiles state.store (ask state name target arguments) := by
  have hanswered (f : Item → Except Fault Bool) (operands : List Operand) :
      KeepsFiles state.store (answered f operands) := by
    unfold answered
    split
    · exact keepsFiles_return fun _ => rfl
    · exact yields_error
  unfold ask
  simp only [KeepsFiles, yields_bind]
  intro a _ operands _
  split
  · exact hanswered _ operands
  · exact hanswered _ operands
  · exact hanswered _ operands
  · unfold lengthOf
    split
    · exact keepsFiles_return fun _ => rfl
    · exact yields_error
  · unfold treeOf
    split
    · exact keepsFiles_return fun _ => rfl
    · exact yields_error
  · exact yields_pure.2 (saveShape_keeps _ _ _ operands)
  · exact yields_pure.2 (saveValue_keeps _ _ _ operands)
  · exact keepsFiles_return fun _ => rfl

theorem run_keeps (state : State) (s : Step) : KeepsFiles state.store (s.run state) := by
  cases s with
  | method name target arguments => exact ask_keeps state name target arguments
  | _ => simp [Step.run, Outcome.storeAfter, Store.Keeps]

theorem step_keeps (state : State) (s : Step) : state.store.Keeps (state.step s).2.store := by
  unfold State.step
  cases hrun : s.run state with
  | error f => exact .refl _
  | ok outcome => exact run_keeps state s outcome hrun

def State.after (state : State) : List Step → State
  | [] => state
  | s :: ss => (state.step s).2.after ss

/-- However many steps a script has, it loses no file that was there before. -/
theorem after_keeps (state : State) (steps : List Step) :
    state.store.Keeps (state.after steps).store := by
  induction steps generalizing state with
  | nil => exact .refl _
  | cons s ss ih => exact (step_keeps state s).trans (ih _)

end Script
end SolidScript
