import Provenance.Proofs.PathPieces
/-!
Walking a tree. A walk through pieces that must all lead into directories
(`walkDir`) tells where the directory part of a path ends and how many links
may still be followed, so a walk splits at any piece that more pieces follow.
Pieces `.` move no walk, hence two paths with the same moving pieces, the same
start and the same last piece name the same place in every tree. A directory
walk that succeeds sees only nodes that exist, so it succeeds alike in any
tree that keeps them.
-/

namespace Provenance.Files.Tree

/-- A walk through pieces that must all lead into directories: where it ends,
and how many links it may still follow. -/
def walkDir (t : Tree) (budget : Nat) (cur : Loc) (ps : List String) : Except OsError (Loc × Nat) :=
  match ps with
  | [] => .ok (cur, budget)
  | p :: rest =>
    if p = "." then walkDir t budget cur rest
    else if p = ".." then walkDir t budget cur.dropLast rest
    else
      let loc := cur ++ [p]
      match t.get? loc with
      | none => .error .notFound
      | some (.dir _) => walkDir t budget loc rest
      | some (.file _) => .error .notADirectory
      | some (.link target) =>
        match budget with
        | 0 => .error .loop
        | b + 1 =>
          if target = "" then .error .notFound
          else walkDir t b (if isAbsolute target then [] else cur) (walkPieces target ++ rest)
termination_by (budget, ps.length)

-- Every piece before the last of a longer walk must lead into a directory, so
-- a walk splits at any point where more pieces follow.
theorem walk_append (t : Tree) (follow : Bool) (budget : Nat) (cur : Loc) (ps qs : List String)
    (more : qs ≠ []) :
    t.walk follow budget cur (ps ++ qs) = t.walkDir budget cur ps >>= fun r => t.walk follow r.2 r.1 qs := by
  fun_induction t.walkDir budget cur ps with
  | case1 => simp [bind, Except.bind]
  | case2 =>
    rename_i ih
    rw [List.cons_append, walk, if_pos rfl, ih]
  | case3 =>
    rename_i notDot ih
    rw [List.cons_append, walk, if_neg notDot, if_pos rfl, ih]
  | case4 =>
    rename_i notDot notUp loc missing
    dsimp only [loc] at missing
    rw [List.cons_append, walk, if_neg notDot, if_neg notUp]
    simp [missing, more, bind, Except.bind]
  | case5 =>
    rename_i notDot notUp loc _ found ih
    dsimp only [loc] at found ih ⊢
    rw [List.cons_append, walk, if_neg notDot, if_neg notUp]
    simp only [found, ih]
  | case6 | case7 | case8 =>
    rename_i notDot notUp loc _ found
    dsimp only [loc] at found
    rw [List.cons_append, walk, if_neg notDot, if_neg notUp]
    simp [found, more, bind, Except.bind]
  | case9 =>
    rename_i rest notDot notUp loc _ found _ nonempty ih
    dsimp only [loc] at found
    rw [List.cons_append, walk, if_neg notDot, if_neg notUp]
    simp only [dite_eq_ite] at ih
    have notLast : ¬(rest ++ qs = [] ∧ (!follow) = true) := fun last =>
      more (List.append_eq_nil_iff.mp last.1).2
    simp only [found, nonempty, if_false]
    rw [if_neg notLast, ← List.append_assoc, ih]

theorem walkDir_append (t : Tree) (budget : Nat) (cur : Loc) (ps qs : List String) :
    t.walkDir budget cur (ps ++ qs) = t.walkDir budget cur ps >>= fun r => t.walkDir r.2 r.1 qs := by
  fun_induction t.walkDir budget cur ps with
  | case1 => simp [bind, Except.bind]
  | case2 =>
    rename_i ih
    rw [List.cons_append, walkDir, if_pos rfl, ih]
  | case3 =>
    rename_i notDot ih
    rw [List.cons_append, walkDir, if_neg notDot, if_pos rfl, ih]
  | case4 =>
    rename_i notDot notUp loc missing
    dsimp only [loc] at missing
    rw [List.cons_append, walkDir, if_neg notDot, if_neg notUp]
    simp [missing, bind, Except.bind]
  | case5 =>
    rename_i notDot notUp loc _ found ih
    dsimp only [loc] at found ih ⊢
    rw [List.cons_append, walkDir, if_neg notDot, if_neg notUp]
    simp only [found, ih]
  | case6 | case7 | case8 =>
    rename_i notDot notUp loc _ found
    dsimp only [loc] at found
    rw [List.cons_append, walkDir, if_neg notDot, if_neg notUp]
    simp [found, bind, Except.bind]
  | case9 =>
    rename_i notDot notUp loc _ found _ nonempty ih
    dsimp only [loc] at found
    rw [List.cons_append, walkDir, if_neg notDot, if_neg notUp]
    simp only [dite_eq_ite] at ih
    simp only [found, nonempty, if_false]
    rw [← List.append_assoc, ih]

theorem walkDir_dots (t : Tree) (budget : Nat) (cur : Loc) {dots : List String}
    (allDots : ∀ x ∈ dots, x = ".") (l : List String) :
    t.walkDir budget cur (dots ++ l) = t.walkDir budget cur l := by
  induction dots with
  | nil => rfl
  | cons x dots ih =>
    rw [List.cons_append, walkDir, if_pos (allDots x List.mem_cons_self),
      ih fun y mem => allDots y (List.mem_cons_of_mem _ mem)]

-- A walk that moves past `p` next agrees with any walk whose moving pieces
-- start with `p`, once the `.` pieces in front are skipped.
theorem walkDir_of_filter_cons (t : Tree) (budget : Nat) (cur : Loc) {p : String} {rest qs : List String}
    (moves : p ≠ ".") (same : (p :: rest).filter (· ≠ ".") = qs.filter (· ≠ ".")) :
    ∃ more, t.walkDir budget cur qs = t.walkDir budget cur (p :: more) ∧
      rest.filter (· ≠ ".") = more.filter (· ≠ ".") := by
  rw [List.filter_cons_of_pos (by simpa using moves)] at same
  obtain ⟨dots, more, split, allDots, -, tail⟩ := List.filter_eq_cons_iff.mp same.symm
  exact ⟨more, by rw [split, walkDir_dots t budget cur fun x mem => by simpa using allDots x mem], tail.symm⟩

theorem walkDir_similar (t : Tree) (budget : Nat) (cur : Loc) (ps qs : List String)
    (same : ps.filter (· ≠ ".") = qs.filter (· ≠ ".")) :
    t.walkDir budget cur ps = t.walkDir budget cur qs := by
  fun_induction t.walkDir budget cur ps generalizing qs with
  | case1 budget cur =>
    have allDots : ∀ x ∈ qs, x = "." := fun x mem => by simpa using List.filter_eq_nil_iff.mp same.symm x mem
    have skipped := walkDir_dots t budget cur allDots []
    rw [List.append_nil] at skipped
    rw [skipped, walkDir]
  | case2 =>
    rename_i ih
    rw [ih qs (by simpa using same)]
  | case3 =>
    rename_i notDot ih
    obtain ⟨more, skipped, tail⟩ := walkDir_of_filter_cons t _ _ notDot same
    rw [skipped, walkDir, if_neg notDot, if_pos rfl, ih more tail]
  | case4 =>
    rename_i notDot notUp loc missing
    dsimp only [loc] at missing
    obtain ⟨more, skipped, -⟩ := walkDir_of_filter_cons t _ _ notDot same
    rw [skipped, walkDir, if_neg notDot, if_neg notUp]
    simp [missing]
  | case5 =>
    rename_i notDot notUp loc _ found ih
    dsimp only [loc] at found ih ⊢
    obtain ⟨more, skipped, tail⟩ := walkDir_of_filter_cons t _ _ notDot same
    rw [skipped, walkDir, if_neg notDot, if_neg notUp]
    simp [found, ih more tail]
  | case6 | case7 | case8 =>
    rename_i notDot notUp loc _ found
    dsimp only [loc] at found
    obtain ⟨more, skipped, -⟩ := walkDir_of_filter_cons t _ _ notDot same
    rw [skipped, walkDir, if_neg notDot, if_neg notUp]
    simp [found]
  | case9 =>
    rename_i notDot notUp loc target found _ nonempty ih
    dsimp only [loc] at found
    obtain ⟨more, skipped, tail⟩ := walkDir_of_filter_cons t _ _ notDot same
    rw [skipped, walkDir, if_neg notDot, if_neg notUp]
    simp only [dite_eq_ite] at ih
    simp only [found, nonempty, if_false]
    exact ih _ (by rw [List.filter_append, List.filter_append, tail])

theorem walk_similar (t : Tree) (follow : Bool) (budget : Nat) (cur : Loc) {ps qs : List String}
    (same : ps.filter (· ≠ ".") = qs.filter (· ≠ ".")) (last : ps.getLast? = qs.getLast?)
    (moves : ps.getLast? ≠ some ".") :
    t.walk follow budget cur ps = t.walk follow budget cur qs := by
  rcases List.eq_nil_or_concat ps with rfl | ⟨front, x, rfl⟩
  · have empty : qs = [] := by simpa using last.symm
    rw [empty]
  · obtain ⟨qfront, split⟩ := List.getLast?_eq_some_iff.mp (by simpa using last.symm)
    subst split
    have notDot : x ≠ "." := by simpa using moves
    have fronts : front.filter (· ≠ ".") = qfront.filter (· ≠ ".") := by
      simpa [List.filter_append, notDot] using same
    rw [List.concat_eq_append, walk_append t follow budget cur front [x] (by simp),
      walk_append t follow budget cur qfront [x] (by simp),
      walkDir_similar t budget cur front qfront fronts]

theorem getLast?_walkNames {P : String} (moves : (walkPieces P).getLast? ≠ some ".") :
    (walkNames P).getLast? = (walkPieces P).getLast? := by
  rw [← filter_walkPieces]
  rcases List.eq_nil_or_concat (walkPieces P) with empty | ⟨front, x, split⟩
  · simp [empty]
  · rw [split] at moves ⊢
    have notDot : x ≠ "." := by simpa using moves
    simp [List.filter_append, notDot]

theorem lookup_eq_walk (t : Tree) {P : String} (named : P ≠ "") (follow : Bool)
    (moves : (walkPieces P).getLast? ≠ some ".") :
    t.lookup P follow = t.walk follow linkBudget (if isAbsolute P then [] else t.cwd) (walkNames P) := by
  rw [lookup, if_neg named]
  apply walk_similar t follow _ _ _ (getLast?_walkNames moves).symm moves
  rw [filter_walkPieces, filter_walkNames]

theorem walkDir_mono {t t' : Tree} (keeps : ∀ loc n, t.get? loc = some n → t'.get? loc = some n)
    {budget : Nat} {cur : Loc} {ps : List String} {r : Loc × Nat} (walked : t.walkDir budget cur ps = .ok r) :
    t'.walkDir budget cur ps = .ok r := by
  fun_induction t.walkDir budget cur ps with
  | case1 =>
    rw [walkDir]
    exact walked
  | case2 =>
    rename_i ih
    rw [walkDir, if_pos rfl]
    exact ih walked
  | case3 =>
    rename_i notDot ih
    rw [walkDir, if_neg notDot, if_pos rfl]
    exact ih walked
  | case5 =>
    rename_i notDot notUp loc _ found ih
    dsimp only [loc] at found ih
    rw [walkDir, if_neg notDot, if_neg notUp]
    simp only [keeps _ _ found]
    exact ih walked
  | case9 =>
    rename_i notDot notUp loc _ found _ nonempty ih
    dsimp only [loc] at found
    rw [walkDir, if_neg notDot, if_neg notUp]
    simp only [keeps _ _ found, nonempty, if_false]
    exact ih walked
  | _ => cases walked

theorem walkDir_mono_error {t t' : Tree} (keeps : ∀ loc n, t.get? loc = some n → t'.get? loc = some n)
    {budget : Nat} {cur : Loc} {ps : List String} {e : OsError} (failed : t.walkDir budget cur ps = .error e)
    (found : e ≠ .notFound) : t'.walkDir budget cur ps = .error e := by
  fun_induction t.walkDir budget cur ps with
  | case1 => cases failed
  | case2 =>
    rename_i ih
    rw [walkDir, if_pos rfl]
    exact ih failed
  | case3 =>
    rename_i notDot ih
    rw [walkDir, if_neg notDot, if_pos rfl]
    exact ih failed
  | case4 | case8 =>
    -- the walk found nothing, which is the excluded error
    cases failed
    exact absurd rfl found
  | case5 =>
    rename_i notDot notUp loc _ isDir ih
    dsimp only [loc] at isDir ih
    rw [walkDir, if_neg notDot, if_neg notUp]
    simp only [keeps _ _ isDir]
    exact ih failed
  | case6 | case7 =>
    -- a file, or a link with no budget left, is kept and stops the walk the same way
    rename_i notDot notUp loc _ held
    dsimp only [loc] at held
    rw [walkDir, if_neg notDot, if_neg notUp]
    simp only [keeps _ _ held]
    exact failed
  | case9 =>
    rename_i notDot notUp loc _ isLink _ nonempty ih
    dsimp only [loc] at isLink
    rw [walkDir, if_neg notDot, if_neg notUp]
    simp only [keeps _ _ isLink, nonempty, if_false]
    exact ih failed

theorem walk_follow_of_absent {t : Tree} {budget : Nat} {cur : Loc} {ps : List String} {loc : Loc}
    (found : t.walk false budget cur ps = .ok (.absent loc)) : t.walk true budget cur ps = .ok (.absent loc) := by
  fun_induction t.walk false budget cur ps with
  | case2 =>
    rename_i ih
    rw [walk, if_pos rfl]
    exact ih found
  | case3 =>
    rename_i notDot ih
    rw [walk, if_neg notDot, if_pos rfl]
    exact ih found
  | case4 =>
    rename_i notDot notUp here missing
    dsimp only [here] at missing found
    simp only [Except.ok.injEq, Found.absent.injEq] at found
    subst found
    rw [walk, if_neg notDot, if_neg notUp]
    simp [missing]
  | case6 =>
    rename_i notDot notUp here _ isDir ih
    dsimp only [here] at isDir ih found
    rw [walk, if_neg notDot, if_neg notUp]
    simp only [isDir]
    exact ih found
  | case12 =>
    rename_i notDot notUp here target isLink _ _ nonempty ih
    dsimp only [here] at isLink
    simp only [dite_eq_ite] at ih
    rw [walk, if_neg notDot, if_neg notUp]
    simp only [isLink, Bool.not_true, Bool.false_eq_true, and_false, if_false, nonempty]
    exact ih found
  | _ => cases found

theorem lookup_follow_of_absent {t : Tree} {P : String} {loc : Loc} (found : t.lookup P false = .ok (.absent loc)) :
    t.lookup P true = .ok (.absent loc) := by
  unfold lookup at found ⊢
  split at found
  · cases found
  · rw [if_neg ‹_›]
    exact walk_follow_of_absent found

theorem walk_of_walkDir {t : Tree} {budget : Nat} {cur : Loc} {ps : List String} {X : Loc} {b : Nat}
    (walked : t.walkDir budget cur ps = .ok (X, b)) :
    t.walk true budget cur ps = .ok (.node X ((t.get? X).getD (.dir 0o755))) := by
  fun_induction t.walkDir budget cur ps with
  | case1 =>
    simp only [Except.ok.injEq, Prod.mk.injEq] at walked
    rw [walk, walked.1]
  | case2 =>
    rename_i ih
    rw [walk, if_pos rfl]
    exact ih walked
  | case3 =>
    rename_i notDot ih
    rw [walk, if_neg notDot, if_pos rfl]
    exact ih walked
  | case5 =>
    rename_i notDot notUp loc _ found ih
    dsimp only [loc] at found ih
    rw [walk, if_neg notDot, if_neg notUp]
    simp only [found]
    exact ih walked
  | case9 =>
    rename_i notDot notUp loc _ found _ nonempty ih
    dsimp only [loc] at found
    rw [walk, if_neg notDot, if_neg notUp]
    simp only [found, Bool.not_true, Bool.false_eq_true, and_false, if_false, nonempty]
    exact ih walked
  | _ => cases walked

theorem walkDir_of_walk_dir {t : Tree} {budget : Nat} {cur : Loc} {ps : List String} {X : Loc} {m : Nat}
    (found : t.walk true budget cur ps = .ok (.node X (.dir m))) : ∃ b, t.walkDir budget cur ps = .ok (X, b) := by
  fun_induction t.walk true budget cur ps with
  | case1 =>
    simp only [Except.ok.injEq, Found.node.injEq] at found
    exact ⟨_, by rw [walkDir, found.1]⟩
  | case2 =>
    rename_i ih
    rw [walkDir, if_pos rfl]
    exact ih found
  | case3 =>
    rename_i notDot ih
    rw [walkDir, if_neg notDot, if_pos rfl]
    exact ih found
  | case6 =>
    rename_i notDot notUp loc _ isDir ih
    dsimp only [loc] at isDir ih
    rw [walkDir, if_neg notDot, if_neg notUp]
    simp only [isDir]
    exact ih found
  | case12 =>
    rename_i notDot notUp loc _ isLink _ _ nonempty ih
    dsimp only [loc] at isLink
    simp only [dite_eq_ite] at ih
    rw [walkDir, if_neg notDot, if_neg notUp]
    simp only [isLink, nonempty, if_false]
    exact ih found
  | case7 => simp at found
  | case9 => simp_all
  | _ => cases found

theorem openDir_of_walkDir {t : Tree} {P : String} (named : P ≠ "") {X : Loc} {b m : Nat}
    (walked : t.walkDir linkBudget (if isAbsolute P then [] else t.cwd) (walkNames P) = .ok (X, b))
    (isDir : t.get? X = some (.dir m)) : t.openDir P = .ok X := by
  have pieces : t.walkDir linkBudget (if isAbsolute P then [] else t.cwd) (walkPieces P) = .ok (X, b) := by
    rw [walkDir_similar t _ _ _ (walkNames P) (by rw [filter_walkPieces, filter_walkNames])]
    exact walked
  simp [openDir, lookup, named, walk_of_walkDir pieces, isDir]

theorem walkDir_of_openDir {t : Tree} {P : String} {X : Loc} (opened : t.openDir P = .ok X) :
    ∃ b, t.walkDir linkBudget (if isAbsolute P then [] else t.cwd) (walkNames P) = .ok (X, b) := by
  unfold openDir at opened
  split at opened
  · rename_i loc m found
    cases opened
    have named : P ≠ "" := by
      rintro rfl
      simp [lookup] at found
    rw [lookup, if_neg named] at found
    obtain ⟨b, walked⟩ := walkDir_of_walk_dir found
    rw [walkDir_similar t _ _ _ (walkNames P) (by rw [filter_walkPieces, filter_walkNames])] at walked
    exact ⟨b, walked⟩
  all_goals cases opened

/-- A tree a file system can be in: the working directory is a directory, and
whatever sits at a place sits inside a directory. -/
structure WellFormed (t : Tree) : Prop where
  cwd_dir : ∃ m, t.get? t.cwd = some (.dir m)
  parent_dir : ∀ loc x n, t.get? (loc ++ [x]) = some n → ∃ m, t.get? loc = some (.dir m)

theorem get?_nil (t : Tree) : t.get? [] = some (.dir 0o755) := by
  simp [get?]

theorem get?_put (t : Tree) {loc : Loc} (n : Node) (notRoot : loc ≠ []) (loc' : Loc) :
    (t.put loc n).get? loc' = if loc' = loc then some n else t.get? loc' := by
  unfold get? put
  by_cases top : loc' = []
  · simp [top, Ne.symm notRoot]
  by_cases same : loc' = loc
  · subst same
    have gone : t.nodes.find? (fun _ => false) = none := List.find?_eq_none.mpr (by simp)
    simp [top, List.find?_append, List.find?_filter, gone]
  · -- Entries at other places are kept as they were, and the new one is not found.
    have kept : (fun e : Loc × Node => !decide (e.1 = loc) && decide (e.1 = loc')) = fun e => decide (e.1 = loc') := by
      funext e
      by_cases here : e.1 = loc' <;> simp [here, same]
    simp [top, same, Ne.symm same, List.find?_append, List.find?_filter, kept]

variable {t : Tree}

theorem WellFormed.dropLast_dir (wf : t.WellFormed) {cur : Loc} (isDir : ∃ m, t.get? cur = some (.dir m)) :
    ∃ m, t.get? cur.dropLast = some (.dir m) := by
  rcases List.eq_nil_or_concat cur with top | ⟨front, x, rfl⟩
  · simp [top, get?_nil]
  · obtain ⟨m, held⟩ := isDir
    rw [List.concat_eq_append] at held ⊢
    rw [List.dropLast_concat]
    exact wf.parent_dir front x _ held

-- A lookup starts in a directory: the top, or the working directory.
theorem WellFormed.start_dir (wf : t.WellFormed) (P : String) :
    ∃ m, t.get? (if isAbsolute P then [] else t.cwd) = some (.dir m) := by
  split
  · exact ⟨_, get?_nil t⟩
  · exact wf.cwd_dir

-- In a well-formed tree a directory walk starting in a directory only ever
-- stands in directories: `..` goes to the directory holding the current one.
theorem walkDir_dir (wf : t.WellFormed) {budget : Nat} {cur : Loc} {ps : List String} {X : Loc} {b : Nat}
    (start : ∃ m, t.get? cur = some (.dir m)) (walked : t.walkDir budget cur ps = .ok (X, b)) :
    ∃ m, t.get? X = some (.dir m) := by
  fun_induction t.walkDir budget cur ps with
  | case1 =>
    simp only [Except.ok.injEq, Prod.mk.injEq] at walked
    rw [← walked.1]
    exact start
  | case2 => rename_i ih; exact ih start walked
  | case3 => rename_i ih; exact ih (wf.dropLast_dir start) walked
  | case5 =>
    rename_i loc m found ih
    exact ih ⟨m, found⟩ walked
  | case9 =>
    rename_i cur _ _ _ _ _ _ _ _ _ ih
    refine ih ?_ walked
    split
    · exact ⟨_, get?_nil t⟩
    · exact start
  | _ => cases walked

theorem get?_below_none (wf : t.WellFormed) {O : Loc} (none_at : t.get? O = none) :
    ∀ sub, t.get? (O ++ sub) = none := by
  intro sub
  induction sub generalizing O with
  | nil => simpa using none_at
  | cons x rest ih =>
    have next : t.get? (O ++ [x]) = none := by
      cases held : t.get? (O ++ [x]) with
      | none => rfl
      | some n =>
        obtain ⟨m, isDir⟩ := wf.parent_dir O x n held
        rw [none_at] at isDir
        cases isDir
    simpa using ih next

-- A walk from a directory stands only in directories, so what it finds
-- missing is missing from a directory.
theorem walk_absent_in_dir (wf : t.WellFormed) {follow : Bool} {budget : Nat} {cur : Loc} {ps : List String}
    {loc : Loc} (start : ∃ m, t.get? cur = some (.dir m)) (found : t.walk follow budget cur ps = .ok (.absent loc)) :
    ∃ X x, loc = X ++ [x] ∧ ∃ m, t.get? X = some (.dir m) := by
  fun_induction t.walk follow budget cur ps with
  | case2 => rename_i ih; exact ih start found
  | case3 => rename_i ih; exact ih (wf.dropLast_dir start) found
  | case4 =>
    simp only [Except.ok.injEq, Found.absent.injEq] at found
    subst found
    exact ⟨_, _, rfl, start⟩
  | case6 =>
    rename_i loc' m isDir ih
    exact ih ⟨m, isDir⟩ found
  | case12 =>
    rename_i ih
    refine ih ?_ (by simpa using found)
    split
    · exact ⟨_, get?_nil t⟩
    · exact start
  | _ => cases found

theorem lookup_absent_in_dir (wf : t.WellFormed) {P : String} {follow : Bool} {loc : Loc}
    (found : t.lookup P follow = .ok (.absent loc)) : ∃ X x, loc = X ++ [x] ∧ ∃ m, t.get? X = some (.dir m) := by
  unfold lookup at found
  split at found
  · cases found
  · exact walk_absent_in_dir wf (wf.start_dir P) found

-- A directory made inside a directory keeps the tree well formed.
theorem WellFormed.put_dir (wf : t.WellFormed) {X : Loc} (parent : ∃ m, t.get? X = some (.dir m)) (x : String)
    (m : Nat) : (t.put (X ++ [x]) (.dir m)).WellFormed where
  cwd_dir := by
    rw [show (t.put (X ++ [x]) (.dir m)).cwd = t.cwd from rfl, get?_put _ _ (by simp)]
    split
    · exact ⟨m, rfl⟩
    · exact wf.cwd_dir
  parent_dir loc y n held := by
    rw [get?_put _ _ (by simp)] at held ⊢
    split at held
    · rename_i same
      obtain ⟨rfl, -⟩ := List.append_inj' same rfl
      rw [if_neg (by simp)]
      exact parent
    · obtain ⟨m', isDir⟩ := wf.parent_dir loc y n held
      split
      · exact ⟨m, rfl⟩
      · exact ⟨m', isDir⟩

/-! One step of a walk into a plain name, by what the name holds. -/

section Step

variable {t : Tree} {follow : Bool} {budget : Nat} {cur : Loc} {p : String} {rest : List String}

theorem walk_nil : t.walk follow budget cur [] = .ok (.node cur ((t.get? cur).getD (.dir 0o755))) := by
  rw [walk]

theorem walk_dot : t.walk follow budget cur ("." :: rest) = t.walk follow budget cur rest := by
  rw [walk, if_pos rfl]

theorem walk_cons_dir (plain : Plain p) {m : Nat} (isDir : t.get? (cur ++ [p]) = some (.dir m)) :
    t.walk follow budget cur (p :: rest) = t.walk follow budget (cur ++ [p]) rest := by
  rw [walk, if_neg plain.notDot, if_neg plain.notUp]
  simp only [isDir]

theorem walk_cons_none (plain : Plain p) (missing : t.get? (cur ++ [p]) = none) :
    t.walk follow budget cur (p :: rest) = if rest = [] then .ok (.absent (cur ++ [p])) else .error .notFound := by
  rw [walk, if_neg plain.notDot, if_neg plain.notUp]
  simp only [missing]

theorem walk_single_none (plain : Plain p) (missing : t.get? (cur ++ [p]) = none) :
    t.walk follow budget cur [p] = .ok (.absent (cur ++ [p])) := by
  rw [walk_cons_none plain missing, if_pos rfl]

theorem walk_single_dir (plain : Plain p) {m : Nat} (isDir : t.get? (cur ++ [p]) = some (.dir m)) :
    t.walk follow budget cur [p] = .ok (.node (cur ++ [p]) (.dir m)) := by
  rw [walk_cons_dir plain isDir, walk_nil, isDir]
  rfl

theorem walk_single_file (plain : Plain p) {bytes : List UInt8} (isFile : t.get? (cur ++ [p]) = some (.file bytes)) :
    t.walk follow budget cur [p] = .ok (.node (cur ++ [p]) (.file bytes)) := by
  rw [walk, if_neg plain.notDot, if_neg plain.notUp]
  simp [isFile]

theorem walk_single_absent (plain : Plain p) {loc : Loc} (found : t.walk false budget cur [p] = .ok (.absent loc)) :
    loc = cur ++ [p] ∧ t.get? loc = none := by
  rw [walk, if_neg plain.notDot, if_neg plain.notUp] at found
  cases held : t.get? (cur ++ [p]) with
  | none =>
    simp only [held, if_true, Except.ok.injEq, Found.absent.injEq] at found
    exact ⟨found.symm, found ▸ held⟩
  | some n =>
    cases n <;> simp [held, walk] at found

theorem walkDir_cons_dir (plain : Plain p) {m : Nat} (isDir : t.get? (cur ++ [p]) = some (.dir m)) :
    t.walkDir budget cur (p :: rest) = t.walkDir budget (cur ++ [p]) rest := by
  rw [walkDir, if_neg plain.notDot, if_neg plain.notUp]
  simp only [isDir]

end Step

end Provenance.Files.Tree
