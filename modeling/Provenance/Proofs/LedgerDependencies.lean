import Provenance.Proofs.LedgerTargets
/-!
When a recorded dependency is empty. Recording refuses an empty path, but it
checks the path as given and stores it as the vpath rules rewrite it, and the
rewrite can empty a path that is not empty: `./`, or `foo/` under the rule
`foo`. Dropping leading `./` pieces empties exactly the runs of such pieces,
so the rules empty a path exactly when what the newest applicable rule leaves
of it is such a run. Every dependency of a ledger is the rewrite of a
non-empty path given to one call of its run, under the rules in force at that
call, and it is empty exactly when those rules empty that path.
-/

namespace Provenance

namespace Vpath

inductive DotSlashes : List Char → Prop
  | nil : DotSlashes []
  | piece {seps rest : List Char} (onlySeps : ∀ c ∈ seps, c = '/') (more : DotSlashes rest) :
      DotSlashes ('.' :: '/' :: (seps ++ rest))

/-- What the rules leave of a path before its leading `./` pieces go: the
rest after the newest rule that applies, or the whole path. -/
def stripped (v : Vpath) (p : String) : List Char :=
  stripFirst (v.rules.reverse.map String.toList) p.toList

def Erases (v : Vpath) (p : String) : Prop := DotSlashes (v.stripped p)

theorem DotSlashes.dropWhile_sep {cs : List Char} (dots : DotSlashes cs) :
    cs.dropWhile (· = '/') = cs := by
  cases dots with
  | nil => rfl
  | piece => simp

theorem stripDotSlash_eq_nil_iff (cs : List Char) : stripDotSlash cs = [] ↔ DotSlashes cs := by
  fun_induction stripDotSlash cs with
  | case1 rest ih =>
    rw [ih]
    constructor
    · -- The separators dropped after the piece are the ones it is followed by.
      intro dots
      have whole := @List.takeWhile_append_dropWhile Char (fun c => decide (c = '/')) rest
      have onlySeps : ∀ c ∈ rest.takeWhile (fun c => decide (c = '/')), c = '/' := by
        intro c mem
        simpa using List.all_eq_true.mp List.all_takeWhile c mem
      rw [← whole]
      exact .piece onlySeps dots
    · intro dots
      cases dots with
      | piece onlySeps more =>
        rw [List.dropWhile_append_of_pos (by simpa using onlySeps), more.dropWhile_sep]
        exact more
  | case2 cs notPiece =>
    constructor
    · rintro rfl
      exact .nil
    · intro dots
      cases dots with
      | nil => rfl
      | piece => exact absurd rfl (notPiece _)

theorem apply_eq_empty_iff (v : Vpath) (p : String) : v.apply p = "" ↔ v.Erases p := by
  simp [apply, Erases, stripped, stripDotSlash_eq_nil_iff]

end Vpath

namespace Ledger

@[simp] theorem addTarget_deps (l : Ledger) (name : String) (quote : Bool) :
    (l.addTarget name quote).deps = l.deps := by
  cases quote with
  | true => rfl
  | false =>
    simp only [addTarget, Bool.false_eq_true, if_false]
    split
    · rfl
    · split <;> rfl

@[simp] theorem addDefaultTarget_deps (l : Ledger) (name : String) :
    (l.addDefaultTarget name).deps = l.deps := by
  unfold addDefaultTarget
  split
  · rfl
  · split <;> simp

/-- Each dependency of `l'` is one of `l` or the rewrite, under the rules of
`l`, of a non-empty path; and `l'` keeps the rules of `l`. -/
def Extends (l l' : Ledger) : Prop :=
  l'.vpath = l.vpath ∧ ∀ d ∈ l'.deps, d ∈ l.deps ∨ ∃ path, path ≠ "" ∧ d = l.vpath.apply path

theorem Extends.refl (l : Ledger) : Extends l l := ⟨rfl, fun _ mem => .inl mem⟩

theorem Extends.trans {l l' l'' : Ledger} (first : Extends l l') (second : Extends l' l'') :
    Extends l l'' := by
  refine ⟨second.1.trans first.1, fun d mem => ?_⟩
  rcases second.2 d mem with old | ⟨path, given, rfl⟩
  · exact first.2 d old
  · exact .inr ⟨path, given, by rw [first.1]⟩

theorem mem_deps_of_addDependency {l l' : Ledger} {path d : String} (added : l.addDependency path = .ok l')
    (mem : d ∈ l'.deps) : d ∈ l.deps ∨ path ≠ "" ∧ d = l.vpath.apply path := by
  obtain ⟨given, rfl⟩ := addDependency_eq_ok_iff.mp added
  rcases List.mem_append.mp mem with old | new
  · exact .inl old
  · exact .inr ⟨given, List.mem_singleton.mp new⟩

theorem addDependency_extends {l l' : Ledger} {path : String} (added : l.addDependency path = .ok l') :
    Extends l l' := by
  refine ⟨by rw [(addDependency_eq_ok_iff.mp added).2], fun d mem => ?_⟩
  rcases mem_deps_of_addDependency added mem with old | ⟨given, rfl⟩
  · exact .inl old
  · exact .inr ⟨path, given, rfl⟩

theorem restore_extends (l : Ledger) (bs : List UInt8) (self : Option String) :
    Extends l (Snapshot.restore l bs self).1 :=
  restore_keeps Extends Extends.refl Extends.trans addDependency_extends l bs self

/-- A call that records the given path: `addDependency`, or a restore whose
snapshot may hold it. -/
def Records (path : String) : Op → Prop
  | .addDependency p => p = path
  | .restore _ _ => True
  | _ => False

-- Only the two recording calls add dependencies; clearing drops them all.
theorem step_deps {l : Ledger} {op : Op} {d : String} (mem : d ∈ (l.step op).deps) :
    d ∈ l.deps ∨ ∃ path, path ≠ "" ∧ Records path op ∧ d = l.vpath.apply path := by
  cases op with
  | addTarget name quote => exact .inl (by simpa [step] using mem)
  | addDefaultTarget name => exact .inl (by simpa [step] using mem)
  | addDependency p =>
    simp only [step] at mem
    split at mem
    · rename_i l' added
      rcases mem_deps_of_addDependency added mem with old | ⟨given, rfl⟩
      · exact .inl old
      · exact .inr ⟨p, given, rfl, rfl⟩
    · exact .inl mem
  | addVpath spec => exact .inl mem
  | addModuleTarget name cmi isHeaderUnit =>
    simp only [step] at mem
    split at mem
    · rename_i l' added
      obtain ⟨-, rfl⟩ := addModuleTarget_eq_ok_iff.mp added
      exact .inl mem
    · exact .inl mem
  | addModuleDep name => exact .inl mem
  | clear => simp [step, clear] at mem
  | restore bytes self =>
    rcases (restore_extends l bytes self).2 d mem with old | ⟨path, given, rfl⟩
    · exact .inl old
    · exact .inr ⟨path, given, trivial, rfl⟩

-- Induction on the calls: a dependency is the starting ledger's, or the
-- rewrite of a path recorded by call `i`, under the rules before that call.
theorem run_deps {l : Ledger} {ops : List Op} {d : String} (mem : d ∈ (run l ops).deps) :
    d ∈ l.deps ∨ ∃ i < ops.length, ∃ path, path ≠ "" ∧
      (∃ op, ops[i]? = some op ∧ Records path op) ∧ d = (run l (ops.take i)).vpath.apply path := by
  induction ops generalizing l with
  | nil => exact .inl mem
  | cons op rest ih =>
    rcases ih mem with early | ⟨i, bound, path, given, ⟨later, at_i, recorded⟩, rfl⟩
    · rcases step_deps early with old | ⟨path, given, recorded, rfl⟩
      · exact .inl old
      · exact .inr ⟨0, by simp, path, given, ⟨op, rfl, recorded⟩, rfl⟩
    · exact .inr ⟨i + 1, by simpa using bound, path, given, ⟨later, by simpa using at_i, recorded⟩, rfl⟩

end Ledger

open Ledger

theorem dependency_empty_iff_erased (ops : List Op) :
    ∀ d ∈ (run {} ops).deps, ∃ i < ops.length, ∃ path, path ≠ "" ∧
      (∃ op, ops[i]? = some op ∧ Records path op) ∧
      d = (run {} (ops.take i)).vpath.apply path ∧
      (d = "" ↔ (run {} (ops.take i)).vpath.Erases path) := by
  intro d mem
  rcases run_deps mem with initial | ⟨i, bound, path, given, call, rewritten⟩
  · simp at initial
  · refine ⟨i, bound, path, given, call, rewritten, ?_⟩
    rw [rewritten, Vpath.apply_eq_empty_iff]

theorem dependency_of_dot_slash : (run {} [.addDependency "./"]).deps = [""] := by
  have chars : "./".toList = ['.', '/'] := by decide
  have erased : ({} : Vpath).Erases "./" := by
    simp only [Vpath.Erases, Vpath.stripped, chars, List.reverse_nil, List.map_nil, Vpath.stripFirst]
    exact @Vpath.DotSlashes.piece [] [] (fun _ mem => absurd mem List.not_mem_nil) .nil
  have emptied : ({} : Vpath).apply "./" = "" := (Vpath.apply_eq_empty_iff _ _).mpr erased
  have accepted : ("./" = "") = False := by simp
  simp [run, step, addDependency, accepted, emptied]

theorem dot_slash_dependency_traced :
    "" ∈ (run {} [.addDependency "./"]).deps ∧
    ∃ i < [Op.addDependency "./"].length, ∃ path, path ≠ "" ∧
      (∃ op, [Op.addDependency "./"][i]? = some op ∧ Records path op) ∧
      "" = (run {} ([Op.addDependency "./"].take i)).vpath.apply path ∧
      ("" = "" ↔ (run {} ([Op.addDependency "./"].take i)).vpath.Erases path) := by
  have recorded : "" ∈ (run {} [.addDependency "./"]).deps := by simp [dependency_of_dot_slash]
  exact ⟨recorded, dependency_empty_iff_erased _ "" recorded⟩

theorem dot_slash_dependency_recorded_empty :
    (run {} [.addDependency "./"]).deps = [""] ∧ (run {} [.addDependency "./"]).primaryInput = some "" :=
  ⟨dependency_of_dot_slash, by simp [primaryInput, dependency_of_dot_slash]⟩

end Provenance
