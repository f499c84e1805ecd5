import Provenance.Proofs.StoreLayout
/-!
Opening the levels of a store call. Every call walks down a list of levels,
opening each as a directory and making it first where it may be made and is
missing. `Enters t level t'` says that a level opens on a disk with the tree
`t`, whatever handles are open, and leaves the tree `t'`; `EntersAll` chains
levels. A level that opens leaves the tree as it was or adds one directory
where its path found nothing, so the tree keeps every node it had and stays
well formed, and once a root's levels have opened the root walks to a
directory.
-/

namespace Provenance.Store

open Files

variable {t t' : Tree} {level : Level} {ls : List Level}

/-- Entering `level` on a disk with tree `t` opens it and leaves the tree `t'`,
whatever handles are open. -/
def Enters (t : Tree) (level : Level) (t' : Tree) : Prop :=
  ∀ h : Handles, enter ⟨t, h⟩ level = (⟨t', h.acquire⟩, .ok ())

theorem enters_of_openDir {P : String} {X : Loc} (opened : t.openDir P = .ok X) (create : Bool) :
    Enters t (P, create) t := by
  intro h
  simp [enter, opened]

theorem enters_of_absent {P : String} {loc : Loc} (missing : t.lookup P false = .ok (.absent loc))
    {X : Loc} (reopened : (t.put loc (.dir dirMode)).openDir P = .ok X) :
    Enters t (P, true) (t.put loc (.dir dirMode)) := by
  intro h
  have notFound : t.openDir P = .error .notFound := by simp [Tree.openDir, Tree.lookup_follow_of_absent missing]
  have made : t.mkdir P dirMode = .ok (t.put loc (.dir dirMode)) := by simp [Tree.mkdir, missing]
  simp [enter, notFound, made, reopened]

-- Entering a level: it fails, or it opens the level in the tree as it is, or in
-- the tree with the level made where its path found nothing.
theorem enter_ok {h : Handles} (ok : (enter ⟨t, h⟩ level).2 = .ok ()) :
    Enters t level (enter ⟨t, h⟩ level).1.tree ∧ (∃ X, (enter ⟨t, h⟩ level).1.tree.openDir level.1 = .ok X) ∧
      ((enter ⟨t, h⟩ level).1.tree = t ∨
        ∃ loc, t.lookup level.1 false = .ok (.absent loc) ∧ (enter ⟨t, h⟩ level).1.tree = t.put loc (.dir dirMode)) := by
  obtain ⟨P, create⟩ := level
  cases opened : t.openDir P with
  | ok X =>
    have same : (enter ⟨t, h⟩ (P, create)).1.tree = t := by simp [enter, opened]
    rw [same]
    exact ⟨enters_of_openDir opened create, ⟨X, opened⟩, .inl rfl⟩
  | error e =>
    -- Only a missing level that may be made can open.
    obtain ⟨rfl, rfl⟩ : e = .notFound ∧ create = true := by
      cases e <;> cases create <;> simp_all [enter]
    cases found : t.lookup P false with
    | error e' => cases e' <;> simp [enter, opened, Tree.mkdir, found] at ok
    | ok r =>
      cases r with
      | node loc n => simp [enter, opened, Tree.mkdir, found] at ok
      | absent loc =>
        have made : t.mkdir P dirMode = .ok (t.put loc (.dir dirMode)) := by simp [Tree.mkdir, found]
        cases reopened : (t.put loc (.dir dirMode)).openDir P with
        | error e' => simp [enter, opened, made, reopened] at ok
        | ok X =>
          have grown : (enter ⟨t, h⟩ (P, true)).1.tree = t.put loc (.dir dirMode) := by
            simp [enter, opened, made, reopened]
          rw [grown]
          exact ⟨enters_of_absent found reopened, ⟨X, reopened⟩, .inr ⟨loc, rfl, rfl⟩⟩

theorem Enters.spec (entered : Enters t level t') :
    (∃ X, t'.openDir level.1 = .ok X) ∧
      (t' = t ∨ ∃ loc, t.lookup level.1 false = .ok (.absent loc) ∧ t' = t.put loc (.dir dirMode)) := by
  have step := entered {}
  obtain ⟨-, opens, grows⟩ := enter_ok (h := {}) (by rw [step])
  rw [step] at opens grows
  exact ⟨opens, grows⟩

theorem Enters.cwd_eq (entered : Enters t level t') : t'.cwd = t.cwd := by
  rcases entered.spec.2 with rfl | ⟨loc, -, rfl⟩ <;> rfl

theorem Enters.keeps (entered : Enters t level t') : ∀ loc n, t.get? loc = some n → t'.get? loc = some n := by
  intro loc n held
  rcases entered.spec.2 with rfl | ⟨made, found, rfl⟩
  · exact held
  · have gone := Tree.lookup_absent found
    have notRoot : made ≠ [] := by
      rintro rfl
      rw [Tree.get?_nil] at gone
      cases gone
    rw [Tree.get?_put _ _ notRoot, if_neg (by rintro rfl; rw [gone] at held; cases held)]
    exact held

theorem Enters.wellFormed (entered : Enters t level t') (wf : t.WellFormed) : t'.WellFormed := by
  rcases entered.spec.2 with rfl | ⟨made, found, rfl⟩
  · exact wf
  · obtain ⟨X, x, rfl, parent⟩ := Tree.lookup_absent_in_dir wf found
    exact wf.put_dir parent x dirMode

inductive EntersAll : Tree → List Level → Tree → Prop
  | nil (t : Tree) : EntersAll t [] t
  | cons {t t1 t2 : Tree} {level : Level} {ls : List Level} :
      Enters t level t1 → EntersAll t1 ls t2 → EntersAll t (level :: ls) t2

theorem EntersAll.append {t1 t2 : Tree} {ls ls' : List Level} (first : EntersAll t ls t1)
    (second : EntersAll t1 ls' t2) : EntersAll t (ls ++ ls') t2 := by
  induction first with
  | nil => exact second
  | cons entered _ ih => exact .cons entered (ih second)

theorem EntersAll.of_openDir (opens : ∀ level ∈ ls, ∃ X, t.openDir level.1 = .ok X) :
    EntersAll t ls t := by
  induction ls with
  | nil => exact .nil t
  | cons level rest ih =>
    obtain ⟨X, opened⟩ := opens level List.mem_cons_self
    exact .cons (enters_of_openDir opened level.2) (ih fun l mem => opens l (List.mem_cons_of_mem _ mem))

theorem EntersAll.cwd_eq (entered : EntersAll t ls t') : t'.cwd = t.cwd := by
  induction entered with
  | nil => rfl
  | cons first _ ih => rw [ih, first.cwd_eq]

theorem EntersAll.keeps (entered : EntersAll t ls t') : ∀ loc n, t.get? loc = some n → t'.get? loc = some n := by
  induction entered with
  | nil => exact fun _ _ held => held
  | cons first _ ih => exact fun loc n held => ih loc n (first.keeps loc n held)

theorem EntersAll.wellFormed (entered : EntersAll t ls t') (wf : t.WellFormed) : t'.WellFormed := by
  induction entered with
  | nil => exact wf
  | cons first _ ih => exact ih (first.wellFormed wf)

-- The last level opens in the tree the levels leave.
theorem EntersAll.last_opens (entered : EntersAll t ls t') (nonempty : ls ≠ []) :
    ∃ X, t'.openDir (lastPath ls) = .ok X := by
  induction entered with
  | nil => exact absurd rfl nonempty
  | cons first rest ih =>
    rename_i level more
    by_cases done : more = []
    · subst done
      cases rest
      simpa [lastPath] using first.spec.1
    · obtain ⟨l, more', rfl⟩ := List.exists_cons_of_ne_nil done
      have same : lastPath (level :: l :: more') = lastPath (l :: more') := by
        simp [lastPath, List.getLast?_cons_cons]
      rw [same]
      exact ih done

theorem enterAll_of_entersAll (entered : EntersAll t ls t') (h : Handles) :
    enterAll ⟨t, h⟩ ls = (⟨t', ⟨h.live + ls.length, h.total + ls.length⟩⟩, ls.length, .ok ()) := by
  induction entered generalizing h with
  | nil t => rfl
  | cons first _ ih =>
    simp only [enterAll, first h, ih, Handles.acquire, List.length_cons]
    congr 3 <;> omega

theorem withLevels_of_entersAll {α : Type} (entered : EntersAll t ls t')
    (h : Handles) (leaf : Disk → String → Disk × Except StoreError α) :
    withLevels ⟨t, h⟩ ls leaf =
      let opened : Handles := ⟨h.live + ls.length, h.total + ls.length⟩
      ({ (leaf ⟨t', opened⟩ (lastPath ls)).1 with
          handles := (leaf ⟨t', opened⟩ (lastPath ls)).1.handles.release ls.length },
        (leaf ⟨t', opened⟩ (lastPath ls)).2) := by
  simp [withLevels, enterAll_of_entersAll entered h]

theorem entersAll_of_enterAll {h : Handles} (ok : (enterAll ⟨t, h⟩ ls).2.2 = .ok ()) :
    EntersAll t ls (enterAll ⟨t, h⟩ ls).1.tree := by
  induction ls generalizing t h with
  | nil => exact .nil t
  | cons level rest ih =>
    cases step : (enter ⟨t, h⟩ level).2 with
    | error e =>
      simp only [enterAll] at ok
      generalize enter ⟨t, h⟩ level = st at step ok
      obtain ⟨d', r⟩ := st
      simp only at step
      subst step
      simp at ok
    | ok u =>
      obtain ⟨entered, -, -⟩ := enter_ok step
      generalize (enter ⟨t, h⟩ level).1.tree = t1 at entered
      simp only [enterAll, entered h] at ok ⊢
      exact .cons entered (ih ok)

theorem EntersAll.root_walks {root : String} (entered : EntersAll t (rootLevels root) t') :
    ∃ R b, t'.walkDir linkBudget (if isAbsolute root then [] else t'.cwd) (walkNames root) = .ok (R, b) := by
  obtain ⟨sameNames, sameStart⟩ := lastPath_rootLevels root
  by_cases none : rootLevels root = []
  · -- No level: the root names the working directory.
    have empty : walkNames root = [] := by
      rw [← sameNames, none]
      decide
    rw [empty, Tree.walkDir]
    exact ⟨_, _, rfl⟩
  · obtain ⟨X, opened⟩ := entered.last_opens none
    obtain ⟨bX, walked⟩ := Tree.walkDir_of_openDir opened
    rw [sameNames, sameStart] at walked
    exact ⟨X, bX, walked⟩

end Provenance.Store
