import Provenance.Store.Disk
/-!
The pieces of a path. A lookup walks the pieces between separators; empty
pieces and `.` move it nowhere, so what a path names depends only on its
moving pieces (`walkNames`), on whether it starts at the root, and on its last
piece. Joining a plain name adds that name to the moving pieces. The levels a
store opens on its way down a root are the root's components joined one at a
time: each level it may create ends in a name whose moving pieces begin the
root's own, and the last level leads where the root does.
-/

namespace Provenance.Files

theorem splitOn_append_sep (a b : List Char) :
    (a ++ '/' :: b).splitOn '/' = a.splitOn '/' ++ b.splitOn '/' := by
  induction a with
  | nil => simp [List.splitOn, List.splitOnP_cons_eq_if_modifyHead]
  | cons c a ih =>
    simp only [List.splitOn] at ih ⊢
    rw [List.cons_append, List.splitOnP_cons_eq_if_modifyHead, List.splitOnP_cons_eq_if_modifyHead, ih]
    split
    · rfl
    · obtain ⟨first, rest, split⟩ := List.exists_cons_of_ne_nil (List.splitOnP_ne_nil (· == '/') a)
      rw [split]
      rfl

theorem sep_not_mem_splitOn (l : List Char) : ∀ x ∈ l.splitOn '/', '/' ∉ x := by
  induction l with
  | nil => simp
  | cons c l ih =>
    simp only [List.splitOn] at ih ⊢
    rw [List.splitOnP_cons_eq_if_modifyHead]
    split
    · intro x mem
      rcases List.mem_cons.mp mem with rfl | inRest
      · simp
      · exact ih x inRest
    · rename_i notSep
      obtain ⟨first, rest, split⟩ := List.exists_cons_of_ne_nil (List.splitOnP_ne_nil (· == '/') l)
      rw [split] at ih ⊢
      intro x mem
      rcases List.mem_cons.mp mem with rfl | inRest
      · have : c ≠ '/' := by simpa using notSep
        simpa [Ne.symm this] using ih first (by simp)
      · exact ih x (List.mem_cons_of_mem _ inRest)

theorem sep_not_mem_of_mem_pieces {p q : String} (mem : q ∈ pieces p) : '/' ∉ q.toList := by
  obtain ⟨l, inSplit, rfl⟩ := List.mem_map.mp mem
  simpa using sep_not_mem_splitOn _ l inSplit

theorem pieces_eq_singleton {n : String} (one : '/' ∉ n.toList) : pieces n = [n] := by
  simp [pieces, List.splitOn_eq_singleton one]

theorem pieces_append_sep (a n : String) : pieces (a ++ "/" ++ n) = pieces a ++ pieces n := by
  simp [pieces, splitOn_append_sep]

def walkNames (p : String) : List String := (pieces p).filter fun q => q ≠ "." ∧ q ≠ ""

theorem walkNames_eq (p : String) : walkNames p = ((pieces p).filter (· ≠ "")).filter (· ≠ ".") := by
  simp [walkNames, List.filter_filter]

theorem filter_walkNames (p : String) : (walkNames p).filter (· ≠ ".") = walkNames p := by
  simp [walkNames, List.filter_filter]

theorem isAbsolute_eq_false {n : String} (one : '/' ∉ n.toList) : isAbsolute n = false := by
  cases h : n.toList with
  | nil => simp [isAbsolute, h]
  | cons c rest =>
    have : c ≠ '/' := fun same => one (by simp [h, same])
    simp [isAbsolute, h, this]

theorem join_eq {a n : String} (one : '/' ∉ n.toList) :
    join a n = if a = "" then n else if a.toList.getLast? = some '/' then a ++ n else a ++ "/" ++ n := by
  simp [join, isAbsolute_eq_false one]

theorem filter_pieces_join (a : String) {n : String} (one : '/' ∉ n.toList) (named : n ≠ "") :
    (pieces (join a n)).filter (· ≠ "") = (pieces a).filter (· ≠ "") ++ [n] := by
  rw [join_eq one]
  split
  · rename_i empty
    subst empty
    rw [pieces_eq_singleton one]
    simp [pieces, named]
  · split
    · rename_i slash
      obtain ⟨init, split⟩ := List.getLast?_eq_some_iff.mp slash
      have whole : (a ++ n).toList = init ++ '/' :: n.toList := by simp [split]
      simp only [pieces, whole, split, splitOn_append_sep, List.splitOn_nil, List.map_append, List.filter_append]
      simp [List.splitOn_eq_singleton one, named]
    · rw [pieces_append_sep, pieces_eq_singleton one]
      simp [named]

theorem getLast?_join (a : String) {n : String} (one : '/' ∉ n.toList) (named : n ≠ "") :
    (join a n).toList.getLast? = n.toList.getLast? := by
  obtain ⟨last, isLast⟩ := Option.isSome_iff_exists.mp
    (List.getLast?_isSome.mpr (show n.toList ≠ [] by simpa using named))
  rw [join_eq one]
  split
  · rfl
  · split <;> simp [List.getLast?_append, List.getLast?_cons, isLast]

theorem join_ne_empty (a : String) {n : String} (one : '/' ∉ n.toList) (named : n ≠ "") : join a n ≠ "" := by
  intro empty
  have := getLast?_join a one named
  rw [empty] at this
  simp at this
  exact named (by simpa using this.symm)

theorem walkPieces_join (a : String) {n : String} (one : '/' ∉ n.toList) (named : n ≠ "") :
    walkPieces (join a n) = (pieces a).filter (· ≠ "") ++ [n] := by
  have notSlash : n.toList.getLast? ≠ some '/' := fun last => one (List.mem_of_getLast? last)
  unfold walkPieces
  rw [filter_pieces_join a one named, getLast?_join a one named]
  simp [notSlash]

theorem isAbsolute_join (a : String) {n : String} (one : '/' ∉ n.toList) :
    isAbsolute (join a n) = isAbsolute a := by
  rw [join_eq one]
  split
  · rename_i empty
    subst empty
    rw [isAbsolute_eq_false one]
    rfl
  · rename_i nonempty
    obtain ⟨c, rest, start⟩ := List.exists_cons_of_ne_nil (show a.toList ≠ [] by simpa using nonempty)
    split <;> simp [isAbsolute, start]

theorem walkNames_join (a : String) {n : String} (one : '/' ∉ n.toList) (named : n ≠ "") (moves : n ≠ ".") :
    walkNames (join a n) = walkNames a ++ [n] := by
  rw [walkNames_eq, walkNames_eq, filter_pieces_join a one named]
  simp [moves]

structure Plain (n : String) : Prop where
  nonempty : n ≠ ""
  one : '/' ∉ n.toList
  notDot : n ≠ "."
  notUp : n ≠ ".."

theorem Plain.walkNames_join (a : String) {n : String} (plain : Plain n) :
    walkNames (join a n) = walkNames a ++ [n] :=
  Files.walkNames_join a plain.one plain.nonempty plain.notDot

theorem Plain.isAbsolute_join (a : String) {n : String} (plain : Plain n) :
    isAbsolute (join a n) = isAbsolute a :=
  Files.isAbsolute_join a plain.one

theorem Plain.join_ne_empty (a : String) {n : String} (plain : Plain n) : join a n ≠ "" :=
  Files.join_ne_empty a plain.one plain.nonempty

theorem Plain.last_walkPieces_join (a : String) {n : String} (plain : Plain n) :
    (walkPieces (join a n)).getLast? = some n := by
  simp [walkPieces_join a plain.one plain.nonempty]

theorem filter_walkPieces (p : String) : (walkPieces p).filter (· ≠ ".") = walkNames p := by
  unfold walkPieces
  dsimp only
  rw [walkNames_eq]
  split <;> simp

end Provenance.Files


namespace Provenance.Store

open Files

/-- The levels along some components, each path the components so far joined
to `base`; a level may be created when its component is a name. -/
def levelsAlong : String → List Component → List Level
  | _, [] => []
  | base, c :: cs =>
    (join base c.text, match c with | .name _ => true | _ => false) :: levelsAlong (join base c.text) cs

theorem rootLevels_eq (r : String) :
    rootLevels r = levelsAlong "" (components (if r = "" then "." else r)) := by
  have fold : ∀ (cs : List Component) (base : String) (acc : List Level),
      (cs.foldl (fun (acc : String × List Level) c =>
        (join acc.1 c.text, acc.2 ++ [(join acc.1 c.text, match c with | .name _ => true | _ => false)]))
        (base, acc)).2 = acc ++ levelsAlong base cs := by
    intro cs
    induction cs with
    | nil => simp [levelsAlong]
    | cons c cs ih => intro base acc; simp [levelsAlong, ih]
  exact fold _ "" []

theorem levelsAlong_prefix (ps : List String) (sepFree : ∀ p ∈ ps, '/' ∉ p.toList) (B : String) :
    ∀ level ∈ levelsAlong B (piecesComponents false ps),
      level.1 ≠ "" ∧ isAbsolute level.1 = isAbsolute B ∧
        walkNames level.1 <+: walkNames B ++ ps.filter (fun q => q ≠ "." ∧ q ≠ "") := by
  induction ps generalizing B with
  | nil => simp [piecesComponents, levelsAlong]
  | cons p rest ih =>
    have restFree : ∀ q ∈ rest, '/' ∉ q.toList := fun q mem => sepFree q (List.mem_cons_of_mem _ mem)
    have one : '/' ∉ p.toList := sepFree p List.mem_cons_self
    intro level mem
    rw [piecesComponents] at mem
    by_cases empty : p = ""
    · rw [if_pos empty] at mem
      simpa [empty] using ih restFree B level mem
    rw [if_neg empty] at mem
    by_cases dot : p = "."
    · rw [if_pos dot, if_neg Bool.false_ne_true] at mem
      simpa [dot] using ih restFree B level mem
    rw [if_neg dot] at mem
    -- A `..` and a name each make one level and move the base down by that piece.
    have here : level.1 = join B p ∨ level ∈ levelsAlong (join B p) (piecesComponents false rest) := by
      by_cases up : p = ".."
      · rw [if_pos up] at mem
        simp only [levelsAlong, Component.text, List.mem_cons] at mem
        rcases mem with rfl | inRest
        · exact .inl (by rw [up])
        · exact .inr (by rwa [up])
      · rw [if_neg up] at mem
        simp only [levelsAlong, Component.text, List.mem_cons] at mem
        rcases mem with rfl | inRest
        · exact .inl rfl
        · exact .inr inRest
    have joined : walkNames (join B p) = walkNames B ++ [p] := walkNames_join B one empty dot
    have whole : walkNames B ++ (p :: rest).filter (fun q => q ≠ "." ∧ q ≠ "") =
        walkNames (join B p) ++ rest.filter (fun q => q ≠ "." ∧ q ≠ "") := by
      rw [joined]
      simp [dot, empty]
    rcases here with top | inRest
    · rw [top, whole]
      exact ⟨join_ne_empty B one empty, isAbsolute_join B one, List.prefix_append _ _⟩
    · obtain ⟨nonempty, start, pre⟩ := ih restFree _ level inRest
      exact ⟨nonempty, start.trans (isAbsolute_join B one), whole ▸ pre⟩

theorem lastPath_cons (level : Level) (ls : List Level) (d : String) :
    (((level :: ls).getLast?.map (·.1)).getD d) = ((ls.getLast?.map (·.1)).getD level.1) := by
  cases last : ls.getLast? <;> simp [List.getLast?_cons, last]

theorem lastPath_levelsAlong (ps : List String) (sepFree : ∀ p ∈ ps, '/' ∉ p.toList) (B d : String)
    (sameNames : walkNames d = walkNames B) (sameStart : isAbsolute d = isAbsolute B) :
    walkNames (((levelsAlong B (piecesComponents false ps)).getLast?.map (·.1)).getD d) =
        walkNames B ++ ps.filter (fun q => q ≠ "." ∧ q ≠ "") ∧
      isAbsolute (((levelsAlong B (piecesComponents false ps)).getLast?.map (·.1)).getD d) = isAbsolute B := by
  induction ps generalizing B d with
  | nil => simp [piecesComponents, levelsAlong, sameNames, sameStart]
  | cons p rest ih =>
    have restFree : ∀ q ∈ rest, '/' ∉ q.toList := fun q mem => sepFree q (List.mem_cons_of_mem _ mem)
    have one : '/' ∉ p.toList := sepFree p List.mem_cons_self
    rw [piecesComponents]
    by_cases empty : p = ""
    · rw [if_pos empty]
      simpa [empty] using ih restFree B d sameNames sameStart
    rw [if_neg empty]
    by_cases dot : p = "."
    · rw [if_pos dot, if_neg Bool.false_ne_true]
      simpa [dot] using ih restFree B d sameNames sameStart
    rw [if_neg dot]
    by_cases up : p = ".."
    · rw [if_pos up]
      simp only [levelsAlong, lastPath_cons, Component.text]
      obtain ⟨names, start⟩ := ih restFree (join B "..") _ rfl rfl
      refine ⟨?_, start.trans (isAbsolute_join B (by decide))⟩
      rw [names, walkNames_join B (by decide) (by decide) (by decide)]
      simp [up]
    · rw [if_neg up]
      simp only [levelsAlong, lastPath_cons, Component.text]
      obtain ⟨names, start⟩ := ih restFree (join B p) _ rfl rfl
      refine ⟨?_, start.trans (isAbsolute_join B one)⟩
      rw [names, walkNames_join B one empty dot]
      simp [dot, empty]

-- An empty root is walked as `.`, which moves nowhere from the working directory.
theorem dot_of_empty (r : String) :
    walkNames (if r = "" then "." else r) = walkNames r ∧
      isAbsolute (if r = "" then "." else r) = isAbsolute r := by
  by_cases empty : r = ""
  · subst empty
    decide
  · simp [empty]

theorem rootLevels_prefix (r : String) :
    ∀ level ∈ rootLevels r, level.1 ≠ "" ∧ isAbsolute level.1 = isAbsolute r ∧ walkNames level.1 <+: walkNames r := by
  intro level mem
  rw [rootLevels_eq] at mem
  obtain ⟨sameNames, sameStart⟩ := dot_of_empty r
  generalize (if r = "" then "." else r) = r' at mem sameNames sameStart
  rw [← sameNames, ← sameStart]
  have sepFree : ∀ q ∈ pieces r', '/' ∉ q.toList := fun q mem => sep_not_mem_of_mem_pieces mem
  -- The root's first component is the root itself, a leading `.`, or neither;
  -- the levels after it are those of the remaining pieces.
  unfold components at mem
  split at mem
  · rename_i absolute
    simp only [levelsAlong, Component.text, List.mem_cons] at mem
    have top : walkNames (join "" "/") = [] ∧ isAbsolute (join "" "/") = true := by decide
    rcases mem with rfl | inRest
    · exact ⟨by decide, top.2.trans absolute.symm, by simp [top.1]⟩
    · obtain ⟨nonempty, start, pre⟩ := levelsAlong_prefix (pieces r') sepFree _ level inRest
      rw [top.1, List.nil_append] at pre
      exact ⟨nonempty, start.trans (top.2.trans absolute.symm), pre⟩
  · rename_i relative
    have relative : isAbsolute r' = false := by simpa using relative
    split at mem
    · rename_i rest split
      simp only [levelsAlong, Component.text, List.mem_cons] at mem
      have here : walkNames (join "" ".") = [] ∧ isAbsolute (join "" ".") = false := by decide
      rcases mem with rfl | inRest
      · exact ⟨by decide, here.2.trans relative.symm, by simp [here.1]⟩
      · have restFree : ∀ q ∈ rest, '/' ∉ q.toList := fun q inRest => sepFree q (by simp [split, inRest])
        obtain ⟨nonempty, start, pre⟩ := levelsAlong_prefix rest restFree _ level inRest
        rw [here.1, List.nil_append] at pre
        refine ⟨nonempty, start.trans (here.2.trans relative.symm), ?_⟩
        simpa [walkNames, split] using pre
    · obtain ⟨nonempty, start, pre⟩ := levelsAlong_prefix (pieces r') sepFree _ level mem
      have here : walkNames "" = [] ∧ isAbsolute "" = false := by decide
      rw [here.1, List.nil_append] at pre
      exact ⟨nonempty, start.trans (here.2.trans relative.symm), pre⟩

theorem lastPath_rootLevels (r : String) :
    walkNames (lastPath (rootLevels r)) = walkNames r ∧ isAbsolute (lastPath (rootLevels r)) = isAbsolute r := by
  rw [rootLevels_eq, lastPath]
  obtain ⟨sameNames, sameStart⟩ := dot_of_empty r
  generalize (if r = "" then "." else r) = r' at sameNames sameStart ⊢
  rw [← sameNames, ← sameStart]
  have sepFree : ∀ q ∈ pieces r', '/' ∉ q.toList := fun q mem => sep_not_mem_of_mem_pieces mem
  unfold components
  split
  · rename_i absolute
    simp only [levelsAlong, lastPath_cons, Component.text]
    have top : walkNames (join "" "/") = [] ∧ isAbsolute (join "" "/") = true := by decide
    obtain ⟨names, start⟩ := lastPath_levelsAlong (pieces r') sepFree _ _ rfl rfl
    rw [top.1, List.nil_append] at names
    exact ⟨names, start.trans (top.2.trans absolute.symm)⟩
  · rename_i relative
    have relative : isAbsolute r' = false := by simpa using relative
    split
    · rename_i rest split
      simp only [levelsAlong, lastPath_cons, Component.text]
      have restFree : ∀ q ∈ rest, '/' ∉ q.toList := fun q inRest => sepFree q (by simp [split, inRest])
      have here : walkNames (join "" ".") = [] ∧ isAbsolute (join "" ".") = false := by decide
      obtain ⟨names, start⟩ := lastPath_levelsAlong rest restFree _ _ rfl rfl
      rw [here.1, List.nil_append] at names
      refine ⟨?_, start.trans (here.2.trans relative.symm)⟩
      simpa [walkNames, split] using names
    · have here : walkNames "." = walkNames "" ∧ isAbsolute "." = isAbsolute "" := by decide
      obtain ⟨names, start⟩ := lastPath_levelsAlong (pieces r') sepFree "" "." here.1 here.2
      have empty : walkNames "" = [] ∧ isAbsolute "" = false := by decide
      rw [empty.1, List.nil_append] at names
      exact ⟨names, start.trans (empty.2.trans relative.symm)⟩

end Provenance.Store
