import Provenance.Proofs.MakeLines
import Provenance.Proofs.MakeQuoting
/-!
Wrapped rules keep to their width. With a wrapping width `W`, every line of
the written rules that holds two or more non-empty names is at most `W + 2`
bytes long, not counting a continuation marker; only a line with a single
name (and a label, a leading space or a separator) may be longer.

The writer tracks a column and wraps a name when the column plus the name
passes `W`, before adding the space. Its column is the length of the line
it writes on, except after the `:|` of an order-only rule, which it counts as
one byte; and the colon of a rule is written without a test. So a line that
holds two names is at most `W + 1` bytes where the last name went on, and one
more byte comes either from the colon after the names before it or from the
uncounted byte of `:|`, never from both. The invariant `Tracks` says this of
the line being written, with the bound `B` it may reach (`W + 1` before the
separator, `W + 2` after it).

The rules are laid out in blocks: rules, labelled lines and phony rules. Each
block starts and ends on an empty line, so the bound is proved once per block.
-/

namespace Provenance.Ledger

/-- The names rules are written from: the targets, the dependencies, the
imported modules, and the exported module's name and interface file. -/
def makeNames (l : Ledger) : List String :=
  l.targets ++ l.deps ++ l.modules ++ (l.moduleTarget.map fun mt => [mt.name, mt.cmi]).getD []

end Provenance.Ledger

namespace Provenance.Make

/-- A line with two or more non-empty names is at most `W + 2` bytes long. -/
def Line.Fits (W : Nat) (L : Line) : Prop := 2 ≤ L.nameCount → L.text.utf8ByteSize ≤ W + 2

theorem Line.nameCount_push (L : Line) (t n : String) :
    ({ L with text := t, names := L.names ++ [n] } : Line).nameCount = L.nameCount + if n = "" then 0 else 1 := by
  by_cases empty : n = "" <;> simp [nameCount, empty]

theorem utf8ByteSize_space : " ".utf8ByteSize = 1 := rfl

/-! What one name does to the line it is written on. -/

theorem put_first (W : Nat) (n : String) : put W n 0 = (.name .none n, n.utf8ByteSize) := by
  simp [put]

theorem put_wrapped {W c : Nat} {n : String} (started : 0 < c) (passes : W > 0 ∧ c + n.utf8ByteSize > W) :
    put W n c = (.name .continuation n, 1 + n.utf8ByteSize) := by
  rw [put, if_pos started, if_pos passes]

theorem put_spaced {W c : Nat} {n : String} (started : 0 < c) (within : ¬(W > 0 ∧ c + n.utf8ByteSize > W)) :
    put W n c = (.name .space n, c + 1 + n.utf8ByteSize) := by
  rw [put, if_pos started, if_neg within]

theorem putAll_cons (W : Nat) (n : String) (ns : List String) (c : Nat) :
    putAll W (n :: ns) c = ((put W n c).1 :: (putAll W ns (put W n c).2).1, (putAll W ns (put W n c).2).2) := rfl

theorem rule_eq (W : Nat) (before : List String) (sep : String) (after : List String) :
    rule W before sep after =
      (putAll W before 0).1 ++ .text sep :: (putAll W after ((putAll W before 0).2 + 1)).1 ++ [.text "\n"] := rfl

namespace Lines

variable {W B c : Nat} {s : Lines}

structure Closed (W : Nat) (s : Lines) : Prop where
  done : ∀ L ∈ s.done, L.Fits W
  empty : s.current = {}

/-- Inside a block, at the writer's column: the finished lines fit; the
current line is open, at least the column long and at most as much longer as
the bound `B` leaves slack for; it holds no name while the column is zero; and
with two names it is at most `B` bytes. -/
structure Tracks (W B column : Nat) (s : Lines) : Prop where
  done : ∀ L ∈ s.done, L.Fits W
  opened : s.Open
  behind : column ≤ s.current.text.utf8ByteSize
  slack : s.current.text.utf8ByteSize + W + 1 ≤ column + B
  bound : B ≤ W + 2
  fresh : column = 0 → s.current.nameCount = 0
  fits : 2 ≤ s.current.nameCount → s.current.text.utf8ByteSize ≤ B

theorem Tracks.current_fits (tracks : Tracks W B c s) : s.current.Fits W :=
  fun two => Nat.le_trans (tracks.fits two) tracks.bound

theorem Closed.tracks (closed : Closed W s) : Tracks W (W + 1) 0 s where
  done := closed.done
  opened := by simp [Open, closed.empty]
  behind := Nat.zero_le _
  slack := by simp [closed.empty]
  bound := by omega
  fresh _ := by simp [closed.empty, Line.nameCount]
  fits := by simp [closed.empty, Line.nameCount]

-- A wrapped name ends the line, which fits by the bound, and starts the next
-- one space in; since the line was at least the column long, `B` leaves one
-- byte of slack past the width.
theorem Tracks.wrap (tracks : Tracks W B c s) (n : String) :
    Tracks W B (1 + n.utf8ByteSize) (s.piece (.name .continuation n)) where
  done L mem := by
    simp only [piece_continuation, List.mem_append, List.mem_singleton] at mem
    rcases mem with old | rfl
    · exact tracks.done L old
    · exact tracks.current_fits
  opened := rfl
  behind := by simp [String.utf8ByteSize_append, utf8ByteSize_space]
  slack := by
    have := tracks.behind
    have := tracks.slack
    simp only [piece_continuation, String.utf8ByteSize_append, utf8ByteSize_space]
    omega
  bound := tracks.bound
  fresh := by omega
  fits two := by
    by_cases empty : n = "" <;> simp [Line.nameCount, empty] at two

theorem Tracks.space (tracks : Tracks W B c s) {n : String} (within : c + n.utf8ByteSize ≤ W) :
    Tracks W B (c + 1 + n.utf8ByteSize) (s.piece (.name .space n)) where
  done := tracks.done
  opened := tracks.opened
  behind := by
    have := tracks.behind
    simp only [piece_space, String.utf8ByteSize_append, utf8ByteSize_space]
    omega
  slack := by
    have := tracks.slack
    simp only [piece_space, String.utf8ByteSize_append, utf8ByteSize_space]
    omega
  bound := tracks.bound
  fresh := by omega
  fits _ := by
    have := tracks.slack
    simp only [piece_space, String.utf8ByteSize_append, utf8ByteSize_space]
    omega

-- At column zero a name goes on with no gap; it is the line's first non-empty
-- name, since an empty one leaves the column at zero.
theorem Tracks.first (tracks : Tracks W B 0 s) (n : String) :
    Tracks W B n.utf8ByteSize (s.piece (.name .none n)) where
  done := tracks.done
  opened := tracks.opened
  behind := by simp [String.utf8ByteSize_append]
  slack := by
    have := tracks.slack
    simp only [piece_none, String.utf8ByteSize_append]
    omega
  bound := tracks.bound
  fresh none := by
    rw [piece_none, Line.nameCount_push, tracks.fresh rfl, if_pos (String.utf8ByteSize_eq_zero_iff.mp none)]
  fits two := by
    rw [piece_none, Line.nameCount_push, tracks.fresh rfl] at two
    split at two <;> omega

theorem Tracks.put (wraps : 0 < W) (tracks : Tracks W B c s) (n : String) :
    Tracks W B (Make.put W n c).2 (s.piece (Make.put W n c).1) := by
  by_cases started : 0 < c
  · by_cases passes : W > 0 ∧ c + n.utf8ByteSize > W
    · rw [put_wrapped started passes]
      exact tracks.wrap n
    · rw [put_spaced started passes]
      exact tracks.space (by omega)
  · obtain rfl : c = 0 := by omega
    rw [put_first]
    exact tracks.first n

theorem Tracks.putAll (wraps : 0 < W) (tracks : Tracks W B c s) (ns : List String) :
    Tracks W B (Make.putAll W ns c).2 ((Make.putAll W ns c).1.foldl piece s) := by
  induction ns generalizing c s with
  | nil => exact tracks
  | cons n ns ih =>
    rw [putAll_cons, List.foldl_cons]
    exact ih (tracks.put wraps n)

theorem nameCount_put_le (W c : Nat) (n : String) (s : Lines) :
    (s.piece (Make.put W n c).1).current.nameCount ≤ s.current.nameCount + 1 := by
  unfold Make.put
  split
  · split
    · by_cases empty : n = "" <;> simp [Line.nameCount, empty]
    · simp only [piece_space, Line.nameCount_push]
      split <;> omega
  · simp only [piece_none, Line.nameCount_push]
    split <;> omega

theorem nameCount_putAll_le (W : Nat) (ns : List String) (c : Nat) (s : Lines) :
    ((Make.putAll W ns c).1.foldl piece s).current.nameCount ≤ s.current.nameCount + ns.length := by
  induction ns generalizing c s with
  | nil => simp [Make.putAll]
  | cons n ns ih =>
    rw [putAll_cons, List.foldl_cons]
    have := ih (Make.put W n c).2 (s.piece (Make.put W n c).1)
    have := nameCount_put_le W c n s
    simp only [List.length_cons]
    omega

-- The separator goes on without a test: a colon after names that reached
-- `W + 1`, or the two bytes of `:|` after a single name, which the writer
-- counts as one.
theorem Tracks.sep (tracks : Tracks W (W + 1) c s) {sep : String} (unbroken : '\n' ∉ sep.toList)
    (short : 0 < sep.utf8ByteSize ∧ sep.utf8ByteSize ≤ 2)
    (fits : 2 ≤ s.current.nameCount → s.current.text.utf8ByteSize + sep.utf8ByteSize ≤ W + 2) :
    Tracks W (W + 2) (c + 1) (s.piece (.text sep)) := by
  rw [piece_text, foldl_char_of_unbroken _ unbroken, String.ofList_toList]
  have := tracks.behind
  have := tracks.slack
  exact {
    done := tracks.done
    opened := tracks.opened
    behind := by simp only [String.utf8ByteSize_append]; omega
    slack := by simp only [String.utf8ByteSize_append]; omega
    bound := by omega
    fresh := by omega
    fits := fun two => by rw [String.utf8ByteSize_append]; exact fits two }

theorem Tracks.close (tracks : Tracks W B c s) : Closed W (s.piece (.text "\n")) where
  done L mem := by
    simp only [piece_text, show "\n".toList = ['\n'] from rfl, List.foldl_cons, List.foldl_nil, char_newline,
      List.mem_append, List.mem_singleton] at mem
    rcases mem with old | rfl
    · exact tracks.done L old
    · exact tracks.current_fits
  empty := by simp [show "\n".toList = ['\n'] from rfl]

theorem Closed.label (closed : Closed W s) {label : String} (unbroken : '\n' ∉ label.toList) :
    Tracks W (W + 1) label.utf8ByteSize (s.piece (.text label)) := by
  rw [piece_text, foldl_char_of_unbroken _ unbroken, String.ofList_toList]
  exact {
    done := closed.done
    opened := by simp [Open, closed.empty]
    behind := by simp [closed.empty]
    slack := by
      have size : (s.current.text ++ label).utf8ByteSize = label.utf8ByteSize := by simp [closed.empty]
      simp only [size]
      omega
    bound := by omega
    fresh := fun _ => by simp [closed.empty, Line.nameCount]
    fits := by simp [closed.empty, Line.nameCount] }

def Quiet (W : Nat) (s : Lines) : Prop := (∀ L ∈ s.done, L.Fits W) ∧ s.current.nameCount = 0

theorem Quiet.foldl_char {s : Lines} (quiet : Quiet W s) (cs : List Char) : Quiet W (cs.foldl char s) := by
  induction cs generalizing s with
  | nil => exact quiet
  | cons c cs ih =>
    apply ih
    by_cases newline : c = '\n'
    · subst newline
      refine ⟨fun L mem => ?_, by simp [Line.nameCount]⟩
      simp only [char_newline, List.mem_append, List.mem_singleton] at mem
      rcases mem with old | rfl
      · exact quiet.1 L old
      · intro two
        rw [quiet.2] at two
        omega
    · rw [char_other s newline]
      exact ⟨quiet.1, quiet.2⟩

-- A phony rule is a name and a colon written as fixed text, ending its line:
-- it leaves a line without names in the line view, and an empty line after.
theorem Closed.phony (closed : Closed W s) (t : String) : Closed W (s.piece (.text (t ++ ":\n"))) := by
  have quiet : Quiet W s := ⟨closed.done, by simp [closed.empty, Line.nameCount]⟩
  have split : (t ++ ":\n").toList = (t.toList ++ [':']) ++ ['\n'] := by simp
  rw [piece_text, split]
  refine ⟨fun L mem => ?_, foldl_char_newline _ s⟩
  exact (quiet.foldl_char ((t.toList ++ [':']) ++ ['\n'])).1 L mem

end Lines

/-! The blocks of the layout. -/

open Lines

/-- The blocks rules are written in, their names drawn from `word`: a rule
(whose `:|` separator follows a single name), a labelled line, and a phony rule. -/
inductive Block (W : Nat) (word : String → Prop) : List Piece → Prop
  | rule (before after : List String) (sep : String) (words : ∀ n ∈ before ++ after, word n)
      (shape : sep = ":" ∨ (sep = ":|" ∧ before.length ≤ 1)) : Block W word (Make.rule W before sep after)
  | labelled (label : String) (names : List String) (unbroken : '\n' ∉ label.toList) (words : ∀ n ∈ names, word n) :
      Block W word (Make.labelled W label names)
  | phony (name : String) : Block W word [.text (name ++ ":\n")]

def Blocks (W : Nat) (word : String → Prop) (ps : List Piece) : Prop :=
  ∃ bs : List (List Piece), ps = bs.flatten ∧ ∀ b ∈ bs, Block W word b

variable {W : Nat} {word : String → Prop}

theorem Blocks.nil : Blocks W word [] := ⟨[], rfl, by simp⟩

theorem Blocks.single {ps : List Piece} (block : Block W word ps) : Blocks W word ps :=
  ⟨[ps], by simp, by simpa using block⟩

theorem Blocks.append {ps qs : List Piece} (first : Blocks W word ps) (second : Blocks W word qs) :
    Blocks W word (ps ++ qs) := by
  obtain ⟨bs, rfl, each⟩ := first
  obtain ⟨cs, rfl, each'⟩ := second
  exact ⟨bs ++ cs, by simp, fun b mem => (List.mem_append.mp mem).elim (each b) (each' b)⟩

theorem Block.keeps (wraps : 0 < W) {ps : List Piece} (block : Block W word ps) {s : Lines} (closed : Closed W s) :
    Closed W (ps.foldl piece s) := by
  cases block with
  | rule before after sep words shape =>
    rw [rule_eq]
    simp only [List.foldl_append, List.foldl_cons, List.foldl_nil]
    have named := closed.tracks.putAll wraps before
    have sepBytes : sep.utf8ByteSize = 1 ∨ (sep.utf8ByteSize = 2 ∧ before.length ≤ 1) := by
      rcases shape with rfl | ⟨rfl, single⟩
      · exact .inl rfl
      · exact .inr ⟨rfl, single⟩
    have unbroken : '\n' ∉ sep.toList := by rcases shape with rfl | ⟨rfl, -⟩ <;> decide
    -- Names before `:|` are a single one, so no line of two names meets it.
    have fits : 2 ≤ ((putAll W before 0).1.foldl piece s).current.nameCount →
        ((putAll W before 0).1.foldl piece s).current.text.utf8ByteSize + sep.utf8ByteSize ≤ W + 2 := by
      intro two
      have counted := nameCount_putAll_le W before 0 s
      have := named.fits two
      have empty : ({} : Line).nameCount = 0 := rfl
      rw [closed.empty, empty] at counted
      omega
    exact ((named.sep unbroken (by omega) fits).putAll wraps after).close
  | labelled label names unbroken words =>
    simp only [Make.labelled, List.foldl_cons, List.foldl_append, List.foldl_nil]
    exact ((closed.label unbroken).putAll wraps names).close
  | phony name =>
    exact closed.phony name

theorem Blocks.keeps (wraps : 0 < W) {ps : List Piece} (blocks : Blocks W word ps) {s : Lines}
    (closed : Closed W s) : Closed W (ps.foldl piece s) := by
  obtain ⟨bs, rfl, each⟩ := blocks
  induction bs generalizing s with
  | nil => exact closed
  | cons b bs ih =>
    rw [List.flatten_cons, List.foldl_append]
    have first := (each b List.mem_cons_self).keeps wraps closed
    exact ih first (fun b' mem => each b' (List.mem_cons_of_mem b mem))

theorem mem_putAll {ns : List String} {c : Nat} {p : Piece} (mem : p ∈ (putAll W ns c).1) :
    ∃ g, ∃ n ∈ ns, p = .name g n := by
  induction ns generalizing c with
  | nil => simp [putAll] at mem
  | cons n ns ih =>
    rw [putAll_cons, List.mem_cons] at mem
    rcases mem with rfl | later
    · unfold put
      split
      · split
        · exact ⟨_, n, List.mem_cons_self, rfl⟩
        · exact ⟨_, n, List.mem_cons_self, rfl⟩
      · exact ⟨_, n, List.mem_cons_self, rfl⟩
    · obtain ⟨g, m, mem, rfl⟩ := ih later
      exact ⟨g, m, List.mem_cons_of_mem n mem, rfl⟩

theorem Blocks.unbroken {ps : List Piece} (blocks : Blocks W (fun n => '\n' ∉ n.toList) ps) :
    ∀ p ∈ ps, p.Unbroken := by
  obtain ⟨bs, rfl, each⟩ := blocks
  intro p mem
  obtain ⟨b, inBlocks, inBlock⟩ := List.mem_flatten.mp mem
  have named : ∀ {ns : List String} {c : Nat}, (∀ n ∈ ns, '\n' ∉ n.toList) → p ∈ (putAll W ns c).1 → p.Unbroken := by
    intro ns c words inNames
    obtain ⟨g, n, listed, rfl⟩ := mem_putAll inNames
    exact words n listed
  cases each b inBlocks with
  | rule before after sep words shape =>
    rw [rule_eq] at inBlock
    simp only [List.mem_append, List.mem_cons, List.not_mem_nil, or_false] at inBlock
    rcases inBlock with (early | rfl | late) | rfl
    · exact named (fun n mem => words n (List.mem_append_left after mem)) early
    · trivial
    · exact named (fun n mem => words n (List.mem_append_right before mem)) late
    · trivial
  | labelled label names unbroken words =>
    simp only [Make.labelled, List.mem_cons, List.mem_append, List.not_mem_nil, or_false] at inBlock
    rcases inBlock with (rfl | inNames) | rfl
    · trivial
    · exact named words inNames
    · trivial
  | phony name =>
    simp only [List.mem_singleton] at inBlock
    subst inBlock
    trivial

theorem Blocks.phonies {α : Type} (f : α → String) (xs : List α) :
    Blocks W word (xs.map fun x => .text (f x ++ ":\n")) := by
  induction xs with
  | nil => exact Blocks.nil
  | cons x xs ih => exact (Blocks.single (.phony (f x))).append ih

section Layout

variable {l : Ledger} (raw : ∀ n ∈ l.targets, word n)
  (quoted : ∀ n ∈ l.makeNames, word (quote n none) ∧ word (quote n (some moduleSuffix)))
include raw quoted

theorem targetWords_words : ∀ n ∈ targetWords l, word n := by
  intro n mem
  obtain ⟨i, inside, rfl⟩ := List.mem_mapIdx.mp mem
  have target : l.targets[i] ∈ l.targets := List.getElem_mem inside
  split
  · exact (quoted _ (by simp [Ledger.makeNames, target])).1
  · exact raw _ target

omit raw in
theorem moduleTarget_words {mt : ModuleTarget} (exported : l.moduleTarget = some mt) :
    word (quote mt.cmi none) ∧ word (quote mt.name (some moduleSuffix)) :=
  ⟨(quoted mt.cmi (by simp [Ledger.makeNames, exported])).1, (quoted mt.name (by simp [Ledger.makeNames, exported])).2⟩

theorem dependencyRules_blocks (o : Options) : Blocks o.effectiveWidth word (dependencyRules o l) := by
  unfold dependencyRules
  split
  · exact Blocks.nil
  · refine (Blocks.single (.rule _ _ _ ?_ (.inl rfl))).append ?_
    · intro n mem
      simp only [List.mem_append, List.mem_map] at mem
      rcases mem with (target | cmi) | ⟨d, dep, rfl⟩
      · exact targetWords_words raw quoted n target
      · split at cmi
        · next mt exported =>
          rw [List.mem_singleton.mp cmi]
          exact (moduleTarget_words quoted exported).1
        · simp at cmi
      · exact (quoted d (by simp [Ledger.makeNames, dep])).1
    · split
      · exact Blocks.phonies (quote · none) _
      · exact Blocks.nil

theorem moduleRules_blocks (o : Options) : Blocks o.effectiveWidth word (moduleRules o l) := by
  have imports : ∀ n ∈ l.modules.map (quote · (some moduleSuffix)), word n := by
    intro n mem
    obtain ⟨m, imported, rfl⟩ := List.mem_map.mp mem
    exact (quoted m (by simp [Ledger.makeNames, imported])).2
  have cmis : ∀ n ∈ (l.moduleTarget.map fun mt => quote mt.cmi none).toList, word n := by
    intro n mem
    obtain ⟨mt, exported, rfl⟩ : ∃ mt, l.moduleTarget = some mt ∧ quote mt.cmi none = n := by simpa using mem
    exact (moduleTarget_words quoted exported).1
  dsimp only [moduleRules]
  refine ((?_ : Blocks _ word _).append ?_).append ?_
  · split
    · exact Blocks.nil
    · refine Blocks.single (.rule _ _ _ (fun n mem => ?_) (.inl rfl))
      rcases List.mem_append.mp mem with target | module
      · rcases List.mem_append.mp target with target | cmi
        · exact targetWords_words raw quoted n target
        · exact cmis n cmi
      · exact imports n module
  · split
    · exact Blocks.nil
    · next mt exported =>
      have ⟨cmi, name⟩ := moduleTarget_words quoted exported
      refine (((Blocks.single (.rule _ _ _ ?_ (.inl rfl))).append
        (Blocks.single (.labelled _ _ (by decide) ?_))).append ?_)
      · simpa using ⟨name, cmi⟩
      · simpa using name
      · split
        · next first rest headerUnit targets =>
          refine Blocks.single (.rule _ _ _ ?_ (.inr ⟨rfl, by simp⟩))
          have firstWord : word (quote first none) :=
            (quoted first (by simp [Ledger.makeNames, targets])).1
          simpa using ⟨cmi, firstWord⟩
        · exact Blocks.nil
  · split
    · exact Blocks.nil
    · exact Blocks.single (.labelled _ _ (by decide) imports)

theorem layout_blocks (o : Options) : Blocks o.effectiveWidth word (layout o l) := by
  refine (dependencyRules_blocks raw quoted o).append ?_
  split
  · exact moduleRules_blocks raw quoted o
  · exact Blocks.nil

end Layout

-- The written text splits at its line feeds into the lines of the layout, and
-- every line of two or more names keeps within two bytes past the width.
theorem wrapped_rules_keep_width (o : Options) (l : Ledger) (wraps : 0 < o.effectiveWidth)
    (oneLine : ∀ n ∈ l.makeNames, '\n' ∉ n.toList) :
    (rules o l).toList.splitOn '\n' = (lines (layout o l)).map (fun L => L.written.toList) ∧
    ∀ L ∈ lines (layout o l), 2 ≤ L.nameCount → L.text.utf8ByteSize ≤ o.effectiveWidth + 2 := by
  have raw : ∀ n ∈ l.targets, '\n' ∉ n.toList := fun n mem =>
    oneLine n (by simp [Ledger.makeNames, mem])
  have quoted : ∀ n ∈ l.makeNames, '\n' ∉ (quote n none).toList ∧ '\n' ∉ (quote n (some moduleSuffix)).toList :=
    fun n mem => ⟨quote_unbroken (oneLine n mem) (by simp), quote_unbroken (oneLine n mem) (by decide)⟩
  have blocks := layout_blocks raw quoted o
  refine ⟨splitOn_render blocks.unbroken, ?_⟩
  have closed := blocks.keeps wraps (s := {}) ⟨by simp, rfl⟩
  intro L mem two
  simp only [lines, Lines.all, List.mem_append, List.mem_singleton] at mem
  rcases mem with finished | rfl
  · exact closed.done L finished two
  · rw [closed.empty] at two
    exact absurd two (by decide)

theorem wrapped_rules_at_minimum_width :
    0 < ({ columnWidth := 10 } : Options).effectiveWidth ∧
    (∀ n ∈ ({ targets := ["obj/main.o"], deps := ["src/main.c", "include/config.h"] } : Ledger).makeNames,
      '\n' ∉ n.toList) ∧
    (rules { columnWidth := 10 } { targets := ["obj/main.o"], deps := ["src/main.c", "include/config.h"] }).toList.splitOn
        '\n' =
      (lines (layout { columnWidth := 10 } { targets := ["obj/main.o"], deps := ["src/main.c", "include/config.h"] })).map
        (fun L => L.written.toList) ∧
    ∀ L ∈ lines (layout { columnWidth := 10 } { targets := ["obj/main.o"], deps := ["src/main.c", "include/config.h"] }),
      2 ≤ L.nameCount → L.text.utf8ByteSize ≤ ({ columnWidth := 10 } : Options).effectiveWidth + 2 := by
  have wraps : 0 < ({ columnWidth := 10 } : Options).effectiveWidth := by decide
  have oneLine : ∀ n ∈ ({ targets := ["obj/main.o"], deps := ["src/main.c", "include/config.h"] } : Ledger).makeNames,
      '\n' ∉ n.toList := by
    decide
  exact ⟨wraps, oneLine, wrapped_rules_keep_width _ _ wraps oneLine⟩

end Provenance.Make
