import Provenance.Proofs.SnapshotRoundTrip
/-!
Vpath rewriting against its specification. A rule applies to a path that is
the rule, a separator and a rest that does not begin with `../`; the rules
are tried newest first, so a path loses the newest rule that applies to it,
or nothing. Dropping leading `./` pieces takes two characters and the run of
separators after them at each round, and stops at the first piece that is
not `./`. So a rewritten path is a suffix of the path that does not begin
with `./`, and a table without rules leaves it as it is.
-/

namespace Provenance.Vpath

def dotSlash : List Char := ['.', '/']

def dotDotSlash : List Char := ['.', '.', '/']

/-- A rule applies to a path that is the rule, a separator, and a rest that
does not begin with `../`. -/
def Applies (rule p : List Char) : Prop :=
  ∃ rest, p = rule ++ '/' :: rest ∧ ¬ dotDotSlash <+: rest

/-! One rule. -/

theorem strip_eq_some_iff {rule p rest : List Char} :
    strip rule p = some rest ↔ p = rule ++ '/' :: rest ∧ ¬ dotDotSlash <+: rest := by
  unfold strip
  by_cases pre : rule.isPrefixOf p
  · obtain ⟨t, rfl⟩ := List.isPrefixOf_iff_prefix.mp pre
    rw [if_pos pre, List.drop_left, List.append_cancel_left_eq]
    split
    · -- the rest is `../`: the rule does not apply
      rename_i tail
      simp only [reduceCtorEq, false_iff, not_and, not_not, List.cons.injEq, true_and]
      rintro rfl
      exact List.prefix_append dotDotSlash tail
    · rename_i tail notUp
      simp only [Option.some.injEq, List.cons.injEq, true_and]
      constructor
      · rintro rfl
        refine ⟨rfl, ?_⟩
        rintro ⟨more, rfl⟩
        exact notUp more rfl
      · rintro ⟨rfl, -⟩
        rfl
    · rename_i _ noSep
      simp only [reduceCtorEq, false_iff, not_and]
      rintro rfl
      exact absurd rfl (noSep rest)
  · rw [if_neg pre]
    simp only [reduceCtorEq, false_iff, not_and]
    rintro rfl
    exact absurd (List.isPrefixOf_iff_prefix.mpr (List.prefix_append rule _)) pre

theorem strip_eq_none_iff {rule p : List Char} : strip rule p = none ↔ ¬ Applies rule p := by
  simp [Option.eq_none_iff_forall_ne_some, strip_eq_some_iff, Applies]

/-! The newest rule that applies. -/

theorem stripFirst_of_none_applies {rules : List (List Char)} {p : List Char}
    (none : ∀ r ∈ rules, ¬ Applies r p) : stripFirst rules p = p := by
  induction rules with
  | nil => rfl
  | cons r rs ih =>
    have skipped : strip r p = Option.none := strip_eq_none_iff.mpr (none r List.mem_cons_self)
    rw [stripFirst, skipped]
    exact ih fun r' mem => none r' (List.mem_cons_of_mem _ mem)

theorem stripFirst_of_applies {earlier later : List (List Char)} {r p rest : List Char}
    (skip : ∀ r' ∈ earlier, ¬ Applies r' p) (split : p = r ++ '/' :: rest) (notUp : ¬ dotDotSlash <+: rest) :
    stripFirst (earlier ++ r :: later) p = rest := by
  induction earlier with
  | nil =>
    rw [List.nil_append, stripFirst, strip_eq_some_iff.mpr ⟨split, notUp⟩]
  | cons r' rs ih =>
    have skipped : strip r' p = none := strip_eq_none_iff.mpr (skip r' List.mem_cons_self)
    rw [List.cons_append, stripFirst, skipped]
    exact ih fun r'' mem => skip r'' (List.mem_cons_of_mem _ mem)

theorem stripFirst_suffix (rules : List (List Char)) (p : List Char) : stripFirst rules p <:+ p := by
  induction rules with
  | nil => exact List.suffix_refl p
  | cons r rs ih =>
    rw [stripFirst]
    split
    · rename_i rest stripped
      obtain ⟨split, -⟩ := strip_eq_some_iff.mp stripped
      rw [split]
      exact (List.suffix_cons '/' rest).trans (List.suffix_append r _)
    · exact ih

/-! Leading `./` pieces. -/

theorem stripDotSlash_suffix (cs : List Char) : stripDotSlash cs <:+ cs := by
  fun_induction stripDotSlash cs with
  | case1 rest ih =>
    exact ih.trans ((List.dropWhile_suffix _).trans ((List.suffix_cons _ _).trans (List.suffix_cons _ _)))
  | case2 cs _ => exact List.suffix_refl cs

theorem not_dotSlash_prefix_stripDotSlash (cs : List Char) : ¬ dotSlash <+: stripDotSlash cs := by
  fun_induction stripDotSlash cs with
  | case1 rest ih => exact ih
  | case2 cs notPiece =>
    rintro ⟨rest, rfl⟩
    exact notPiece rest rfl

theorem stripDotSlash_of_not_dotSlash {cs : List Char} (plain : ¬ dotSlash <+: cs) : stripDotSlash cs = cs := by
  rw [stripDotSlash]
  rintro rest rfl
  exact plain (List.prefix_append dotSlash rest)

/-! Rewriting a path. -/

theorem apply_suffix (v : Vpath) (p : String) : (v.apply p).toList <:+ p.toList := by
  rw [apply, String.toList_ofList]
  exact (stripDotSlash_suffix _).trans (stripFirst_suffix _ _)

theorem not_dotSlash_prefix_apply (v : Vpath) (p : String) : ¬ dotSlash <+: (v.apply p).toList := by
  rw [apply, String.toList_ofList]
  exact not_dotSlash_prefix_stripDotSlash _

-- The rules are kept oldest first and tried newest first: the rules newer than
-- `r` come before it in the reversed list.
theorem apply_of_newest_applies {v : Vpath} {p : String} {older newer : List String} {r : String}
    {rest : List Char} (rules : v.rules = older ++ r :: newer) (split : p.toList = r.toList ++ '/' :: rest)
    (notUp : ¬ dotDotSlash <+: rest) (newest : ∀ r' ∈ newer, ¬ Applies r'.toList p.toList) :
    v.apply p = String.ofList (stripDotSlash rest) := by
  have tried : v.rules.reverse.map String.toList =
      newer.reverse.map String.toList ++ r.toList :: older.reverse.map String.toList := by
    simp [rules]
  have skip : ∀ r' ∈ newer.reverse.map String.toList, ¬ Applies r' p.toList := by
    simp only [List.mem_map, List.mem_reverse]
    rintro _ ⟨r', mem, rfl⟩
    exact newest r' mem
  rw [apply, tried, stripFirst_of_applies skip split notUp]

theorem apply_of_none_applies {v : Vpath} {p : String} (none : ∀ r ∈ v.rules, ¬ Applies r.toList p.toList) :
    v.apply p = String.ofList (stripDotSlash p.toList) := by
  have skip : ∀ r' ∈ v.rules.reverse.map String.toList, ¬ Applies r' p.toList := by
    simp only [List.mem_map, List.mem_reverse]
    rintro _ ⟨r, mem, rfl⟩
    exact none r mem
  rw [apply, stripFirst_of_none_applies skip]

-- Rewriting keeps a suffix of the path with no leading `./`: what is left after
-- the newest rule that applies, or the whole path, less its leading `./`
-- pieces. Dropping those pieces changes nothing on a path that has none, so
-- it is idempotent, and a table without rules takes back every rewritten path.
theorem apply_strips_newest_rule :
    (∀ (v : Vpath) (p : String), (v.apply p).toList <:+ p.toList ∧ ¬ dotSlash <+: (v.apply p).toList) ∧
    (∀ (v : Vpath) (p : String) (older newer : List String) (r : String) (rest : List Char),
      v.rules = older ++ r :: newer → p.toList = r.toList ++ '/' :: rest → ¬ dotDotSlash <+: rest →
      (∀ r' ∈ newer, ¬ Applies r'.toList p.toList) → v.apply p = String.ofList (stripDotSlash rest)) ∧
    (∀ (v : Vpath) (p : String), (∀ r ∈ v.rules, ¬ Applies r.toList p.toList) →
      v.apply p = String.ofList (stripDotSlash p.toList)) ∧
    (∀ cs : List Char, ¬ dotSlash <+: cs → stripDotSlash cs = cs) ∧
    (∀ cs : List Char, stripDotSlash (stripDotSlash cs) = stripDotSlash cs) ∧
    ∀ (v : Vpath) (p : String), ({} : Vpath).apply (v.apply p) = v.apply p :=
  ⟨fun v p => ⟨apply_suffix v p, not_dotSlash_prefix_apply v p⟩,
    fun _ _ _ _ _ _ rules split notUp newest => apply_of_newest_applies rules split notUp newest,
    fun _ _ none => apply_of_none_applies none, fun _ plain => stripDotSlash_of_not_dotSlash plain,
    stripDotSlash_stripDotSlash, apply_empty_apply⟩

-- Under the rules `src` and then `src/lib`, the newer one shortens `src/lib/a.c`.
theorem newest_rule_shortens_path : ({ rules := ["src", "src/lib"] } : Vpath).apply "src/lib/a.c" = "a.c" := by
  rw [apply_strips_newest_rule.2.1 { rules := ["src", "src/lib"] } "src/lib/a.c" ["src"] [] "src/lib" "a.c".toList
      rfl (by decide) (by decide) (by simp),
    apply_strips_newest_rule.2.2.2.1 _ (by decide), String.ofList_toList]

end Provenance.Vpath
