import Mathlib.Tactic.SplitIfs
import SolidScript.Path

/-!
# Opening files in a tree

In a tree of directories a path opens a file if all its parts but the last lead to a directory that
has no directory of the last name. Whether there is such a file already makes no difference.
-/

set_option autoImplicit false

namespace SolidScript.Tree

/-- Names that lead from one directory to another. -/
inductive Leads (t : Tree) : List String → List String → List String → Prop where
  | here (d : List String) : t.Leads d [] d
  | up {d e : List String} {names : List String} :
    t.Leads d.dropLast names e → t.Leads d (".." :: names) e
  | down {d e : List String} {name : String} {names : List String} (hup : name ≠ "..")
    (hlimit : name.utf8ByteSize ≤ nameLimit) (hd : d ++ [name] ∈ t.directories) :
    t.Leads (d ++ [name]) names e → t.Leads d (name :: names) e

structure Free (t : Tree) (d : List String) (name : String) : Prop where
  up : name ≠ ".."
  limit : name.utf8ByteSize ≤ nameLimit
  file : d ++ [name] ∉ t.directories

variable {t : Tree} {files : Files} {d e : List String} {names : List String} {p : Path}

theorem Leads.foldl_enter (h : t.Leads d names e) : names.foldl enter d = e := by
  induction h with
  | here d => rfl
  | up _ ih => exact ih
  | down hup _ _ _ ih =>
    rw [List.foldl_cons, enter, if_neg hup]
    exact ih

theorem Leads.obstacle (h : t.Leads d names e) (rest : List String) :
    t.obstacle files d (names ++ rest) = t.obstacle files e rest := by
  induction h with
  | here d => rfl
  | up _ ih => rw [List.cons_append, Tree.obstacle, if_pos rfl, ih]
  | down hup hlimit hd _ ih =>
    rw [List.cons_append, Tree.obstacle, if_neg hup, if_neg (Nat.not_lt.2 hlimit), if_pos hd, ih]

theorem Free.obstacle {name : String} (h : t.Free d name) : t.obstacle files d [name] = none := by
  rw [Tree.obstacle, if_neg h.up, if_neg (Nat.not_lt.2 h.limit), if_neg h.file, if_pos rfl]

theorem leads_of_obstacle (h : t.obstacle files d names = none) :
    ∃ before name e, names = before ++ [name] ∧ t.Leads d before e ∧ t.Free e name := by
  induction names generalizing d with
  | nil => cases h
  | cons name rest ih =>
    rw [Tree.obstacle] at h
    split_ifs at h with hup hlimit hd hrest
    · obtain ⟨before, last, e, rfl, hleads, hfree⟩ := ih h
      exact ⟨".." :: before, last, e, by rw [hup]; rfl, .up hleads, hfree⟩
    · obtain ⟨before, last, e, rfl, hleads, hfree⟩ := ih h
      exact ⟨name :: before, last, e, rfl, .down hup (Nat.not_lt.1 hlimit) hd hleads, hfree⟩
    · exact ⟨[], name, d, by rw [hrest]; rfl, .here d, ⟨hup, Nat.not_lt.1 hlimit, hd⟩⟩

/-- The paths that can be opened, and the files that these are. -/
theorem refusal_eq_none : t.refusal files p = none ↔
    '\x00' ∉ p.shown.toList ∧ p.shown.utf8ByteSize ≤ pathLimit ∧
      ∃ names name e, p.parts = names ++ [name] ∧ t.Leads (t.start p) names e ∧ t.Free e name ∧
        t.file p = t.fileName (e ++ [name]) := by
  rw [refusal]
  constructor
  · intro h
    split_ifs at h with hnul hlimit
    obtain ⟨names, name, e, hparts, hleads, hfree⟩ := leads_of_obstacle h
    refine ⟨hnul, Nat.not_lt.1 hlimit, names, name, e, hparts, hleads, hfree, ?_⟩
    rw [file, hparts, List.foldl_append, hleads.foldl_enter, List.foldl_cons, enter,
      if_neg hfree.up, List.foldl_nil]
  · rintro ⟨hnul, hlimit, names, name, e, hparts, hleads, hfree, -⟩
    rw [if_neg hnul, if_neg (Nat.not_lt.2 hlimit), hparts, hleads.obstacle, hfree.obstacle]

end SolidScript.Tree
