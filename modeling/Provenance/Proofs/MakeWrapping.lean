import Provenance.Make.Rules
/-!
Wrapping changes only the gaps between names. A writer with a column width
lays the rules out as the writer without one does, piece for piece, except
that some of the single spaces before names become line continuations; a
name that starts its line has no gap in either. The argument is one
invariant: the two writers' columns are zero at the same names, because a
continuation leaves the column just past the name, never at zero.
-/

namespace Provenance.Make

def Gap.unwrap : Gap → Gap
  | continuation => space
  | g => g

def Piece.unwrap : Piece → Piece
  | text s => text s
  | name g s => name g.unwrap s

@[simp] theorem Piece.unwrap_text (s : String) : (Piece.text s).unwrap = .text s := rfl

theorem effectiveWidth_zero (o : Options) : { o with columnWidth := 0 }.effectiveWidth = 0 := rfl

-- One name: whatever the width, the gap is the unwrapped one up to a
-- continuation, and both columns leave the name at zero or both past it.
theorem put_unwrap (w : Nat) {c c' : Nat} (same : 0 < c ↔ 0 < c') (n : String) :
    (put w n c).1.unwrap = (put 0 n c').1 ∧ (0 < (put w n c).2 ↔ 0 < (put 0 n c').2) := by
  by_cases started : 0 < c
  · have started' : 0 < c' := same.mp started
    -- without a width nothing wraps
    have unwrapped : put 0 n c' = (.name .space n, c' + 1 + n.utf8ByteSize) := by
      rw [put, if_pos started', if_neg (by omega)]
    rw [unwrapped]
    by_cases wraps : w > 0 ∧ c + n.utf8ByteSize > w
    · rw [put, if_pos started, if_pos wraps]
      exact ⟨rfl, by omega⟩
    · rw [put, if_pos started, if_neg wraps]
      exact ⟨rfl, by omega⟩
  · have fresh : c = 0 := by omega
    have fresh' : c' = 0 := by omega
    subst fresh fresh'
    simp [put, Piece.unwrap, Gap.unwrap]

theorem putAll_unwrap (w : Nat) (ns : List String) {c c' : Nat} (same : 0 < c ↔ 0 < c') :
    (putAll w ns c).1.map Piece.unwrap = (putAll 0 ns c').1 ∧
      (0 < (putAll w ns c).2 ↔ 0 < (putAll 0 ns c').2) := by
  induction ns generalizing c c' with
  | nil => exact ⟨rfl, same⟩
  | cons n ns ih =>
    obtain ⟨gap, next⟩ := put_unwrap w same n
    obtain ⟨rest, last⟩ := ih next
    exact ⟨by simp [putAll, gap, rest], by simpa [putAll] using last⟩

theorem rule_unwrap (w : Nat) (before : List String) (sep : String) (after : List String) :
    (rule w before sep after).map Piece.unwrap = rule 0 before sep after := by
  obtain ⟨names, ends⟩ := putAll_unwrap w before (Iff.refl (0 < 0))
  have past : 0 < (putAll w before 0).2 + 1 ↔ 0 < (putAll 0 before 0).2 + 1 := by omega
  simp [rule, names, (putAll_unwrap w after past).1]

theorem labelled_unwrap (w : Nat) (label : String) (names : List String) :
    (labelled w label names).map Piece.unwrap = labelled 0 label names := by
  simp [labelled, (putAll_unwrap w names (Iff.refl (0 < label.utf8ByteSize))).1]

theorem dependencyRules_unwrap (o : Options) (l : Ledger) :
    (dependencyRules o l).map Piece.unwrap = dependencyRules { o with columnWidth := 0 } l := by
  unfold dependencyRules
  split
  · rfl
  · rw [List.map_append, rule_unwrap, effectiveWidth_zero]
    congr 1
    split <;> simp [List.map_tail, Function.comp_def]

theorem moduleRules_unwrap (o : Options) (l : Ledger) :
    (moduleRules o l).map Piece.unwrap = moduleRules { o with columnWidth := 0 } l := by
  simp only [moduleRules, List.map_append, effectiveWidth_zero]
  congr 1
  · congr 1
    · split <;> simp [rule_unwrap]
    · split
      · rfl
      · simp only [List.map_append, rule_unwrap, labelled_unwrap]
        split <;> simp [rule_unwrap]
  · split <;> simp [labelled_unwrap]

-- Every line of the rules is a `rule` or a `labelled` line, so the whole
-- layout follows from the two lemmas above.
theorem layout_unwrap (o : Options) (l : Ledger) :
    (layout o l).map Piece.unwrap = layout { o with columnWidth := 0 } l := by
  rw [layout, layout, List.map_append, dependencyRules_unwrap]
  split <;> simp [moduleRules_unwrap, *]

-- The rules at any width are pieces whose text, with each continuation
-- written back as one space, is the rules without wrapping; those have no
-- continuation of their own. So every rule names the same words, quoted the
-- same way and in the same order, and a name that starts its line unwrapped
-- (no gap) starts it wrapped too: only a space becomes a continuation.
theorem wrapping_changes_only_gaps (o : Options) (l : Ledger) :
    rules o l = render (layout o l) ∧
    rules { o with columnWidth := 0 } l = render ((layout o l).map Piece.unwrap) ∧
    (layout { o with columnWidth := 0 } l).map Piece.unwrap = layout { o with columnWidth := 0 } l :=
  ⟨rfl, by rw [layout_unwrap]; rfl, layout_unwrap { o with columnWidth := 0 } l⟩

example : layout { columnWidth := 10 } { targets := ["obj/main.o"], deps := ["src/main.c", "include/config.h"] } =
    [.name .none "obj/main.o", .text ":", .name .space "src/main.c", .name .continuation "include/config.h",
      .text "\n"] := by
  decide

end Provenance.Make
