import Provenance.Make.Quote
import Mathlib.Algebra.Ring.Parity
/-!
Quoting for Make loses nothing. Reading a quoted text back left to right, a
doubled `$` is one `$`, a run of backslashes before a blank gives back the
half of it that was there before quoting, a run before `#` sheds the one
backslash quoting added, and everything else stands. That reading undoes
quoting, so distinct names are always distinct Make words. A name with a
trail is quoted as the two quoted one after the other, and the quoted text
keeps Make's rules: `$` only in pairs, `#` only after a backslash, a blank
only after an odd run of backslashes.

Both directions carry the number of backslashes just passed. Quoting copies
a run of backslashes as it reads it, so the run pending in the quoted text is
the run pending in the name, and one induction along the name carries it.
-/

namespace Provenance.Make

def unquoteChars : Nat → List Char → List Char
  | run, [] => List.replicate run '\\'
  | run, '\\' :: rest => unquoteChars (run + 1) rest
  | run, '$' :: '$' :: rest => List.replicate run '\\' ++ '$' :: unquoteChars 0 rest
  | run, ' ' :: rest => List.replicate ((run - 1) / 2) '\\' ++ ' ' :: unquoteChars 0 rest
  | run, '\t' :: rest => List.replicate ((run - 1) / 2) '\\' ++ '\t' :: unquoteChars 0 rest
  | run, '#' :: rest => List.replicate (run - 1) '\\' ++ '#' :: unquoteChars 0 rest
  | run, c :: rest => List.replicate run '\\' ++ c :: unquoteChars 0 rest

def unquote (s : String) : String := String.ofList (unquoteChars 0 s.toList)

theorem unquoteChars_replicate (run k : Nat) (rest : List Char) :
    unquoteChars run (List.replicate k '\\' ++ rest) = unquoteChars (run + k) rest := by
  induction k generalizing run with
  | zero => rfl
  | succ k ih =>
    rw [List.replicate_succ, List.cons_append, unquoteChars, ih]
    congr 1
    omega

-- The run pending in the quoted text is the run pending in the name, so
-- reading back a quoted suffix gives that run and the suffix.
theorem unquoteChars_quoteChars (run : Nat) (name : List Char) :
    unquoteChars run (quoteChars run name) = List.replicate run '\\' ++ name := by
  fun_induction quoteChars run name with
  | case1 run => rw [unquoteChars, List.append_nil]
  | case2 run rest ih =>
    rw [unquoteChars, ih, List.replicate_succ', List.append_assoc]
    rfl
  | case3 run rest ih => rw [unquoteChars, ih, List.replicate_zero, List.nil_append]
  | case4 run rest ih =>
    rw [unquoteChars_replicate, unquoteChars, ih, List.replicate_zero, List.nil_append]
    congr 2
    omega
  | case5 run rest ih =>
    rw [unquoteChars_replicate, unquoteChars, ih, List.replicate_zero, List.nil_append]
    congr 2
    omega
  | case6 run rest ih =>
    rw [show '\\' :: '#' :: quoteChars 0 rest = List.replicate 1 '\\' ++ '#' :: quoteChars 0 rest from rfl,
      unquoteChars_replicate, unquoteChars, ih, List.replicate_zero, List.nil_append]
    rfl
  | case7 run c rest backslash dollar space tab hash ih =>
    rw [unquoteChars.eq_7 run c _ backslash (fun _ h _ => dollar h) space tab hash, ih, List.replicate_zero,
      List.nil_append]

@[simp] theorem quoteChars_nil (run : Nat) : quoteChars run [] = [] := rfl

theorem unquote_quote (s : String) : unquote (quote s none) = s := by
  simp [unquote, quote, unquoteChars_quoteChars]

theorem quote_injective : Function.Injective (quote · none) := fun s s' same => by
  rw [← unquote_quote s, ← unquote_quote s']
  exact congrArg unquote same

theorem quote_some (s t : String) : quote s (some t) = quote s none ++ quote t none := by
  simp [quote, String.ofList_append]

-- Quoting adds only backslashes and dollars.
theorem mem_quoteChars {run : Nat} {name : List Char} {x : Char} (mem : x ∈ quoteChars run name) :
    x ∈ name ∨ x = '\\' ∨ x = '$' := by
  fun_induction quoteChars run name with
  | case1 run => simp at mem
  | case2 run rest ih =>
    rcases List.mem_cons.mp mem with rfl | later
    · simp
    · grind
  | case3 run rest ih =>
    simp only [List.mem_cons] at mem
    rcases mem with rfl | rfl | later
    · simp
    · simp
    · grind
  | case4 run rest ih =>
    simp only [List.mem_append, List.mem_replicate, List.mem_cons] at mem
    grind
  | case5 run rest ih =>
    simp only [List.mem_append, List.mem_replicate, List.mem_cons] at mem
    grind
  | case6 run rest ih =>
    simp only [List.mem_cons] at mem
    rcases mem with rfl | rfl | later
    · simp
    · simp
    · grind
  | case7 run c rest backslash dollar space tab hash ih =>
    rcases List.mem_cons.mp mem with rfl | later
    · simp
    · grind

theorem quoteChars_unbroken {run : Nat} {name : List Char} (clean : '\n' ∉ name) : '\n' ∉ quoteChars run name := by
  intro mem
  rcases mem_quoteChars mem with inside | backslash | dollar
  · exact clean inside
  · exact absurd backslash (by decide)
  · exact absurd dollar (by decide)

theorem quote_unbroken {name : String} {trail : Option String} (clean : '\n' ∉ name.toList)
    (cleanTrail : '\n' ∉ (trail.getD "").toList) : '\n' ∉ (quote name trail).toList := by
  simp only [quote, String.toList_ofList, List.mem_append, not_or]
  exact ⟨quoteChars_unbroken clean, quoteChars_unbroken cleanTrail⟩

/-! The rules a quoted text keeps. -/

def runBefore (c : Char) (p : List Char) : Nat := (p.reverse.takeWhile (· == c)).length

@[simp] theorem runBefore_nil (c : Char) : runBefore c [] = 0 := rfl

@[simp] theorem runBefore_concat (c x : Char) (p : List Char) :
    runBefore c (p ++ [x]) = if x = c then runBefore c p + 1 else 0 := by
  by_cases same : x = c <;> simp [runBefore, same]

/-- Make's rules for quoted text: every maximal run of `$` is even, every `#`
follows a backslash, and every blank follows an odd run of backslashes. -/
structure Escaped (out : List Char) : Prop where
  dollars_paired : ∀ p q, out = p ++ q → q.head? ≠ some '$' → Even (runBefore '$' p)
  hash_escaped : ∀ p q, out = p ++ '#' :: q → 0 < runBefore '\\' p
  blank_escaped : ∀ p x q, x = ' ' ∨ x = '\t' → out = p ++ x :: q → Odd (runBefore '\\' p)

def EscapedBefore (p : List Char) (x : Char) : Prop :=
  (x ≠ '$' → Even (runBefore '$' p)) ∧ (x = '#' → 0 < runBefore '\\' p) ∧
    (x = ' ' ∨ x = '\t' → Odd (runBefore '\\' p))

def EscapedAll (out : List Char) : Prop := ∀ p x q, out = p ++ x :: q → EscapedBefore p x

theorem EscapedAll.nil : EscapedAll [] := fun p x q split => by simp at split

theorem EscapedAll.concat {out : List Char} {x : Char} (all : EscapedAll out) (last : EscapedBefore out x) :
    EscapedAll (out ++ [x]) := by
  intro p y q split
  rcases List.eq_nil_or_concat q with rfl | ⟨q', z, rfl⟩
  · obtain ⟨rfl, same⟩ := List.append_inj' split rfl
    obtain rfl : x = y := by simpa using same
    exact last
  · have split' : out ++ [x] = (p ++ y :: q') ++ [z] := by simpa using split
    obtain ⟨earlier, -⟩ := List.append_inj' split' rfl
    exact all p y q' earlier

/-- What quoting keeps along a name: the rules at every character, an even run
of `$` at the end, and the run of backslashes at the end as counted. -/
structure QuotedSoFar (out : List Char) (run : Nat) : Prop where
  all : EscapedAll out
  dollars : Even (runBefore '$' out)
  backslashes : runBefore '\\' out = run

theorem QuotedSoFar.backslash {out : List Char} {run : Nat} (sofar : QuotedSoFar out run) :
    QuotedSoFar (out ++ ['\\']) (run + 1) where
  all := sofar.all.concat ⟨fun _ => sofar.dollars, by simp, by simp⟩
  dollars := by simp
  backslashes := by simp [sofar.backslashes]

theorem QuotedSoFar.push {out : List Char} {run : Nat} {x : Char} (sofar : QuotedSoFar out run)
    (notBackslash : x ≠ '\\') (notDollar : x ≠ '$') (hash : x = '#' → 0 < run)
    (blank : x = ' ' ∨ x = '\t' → Odd run) : QuotedSoFar (out ++ [x]) 0 where
  all := sofar.all.concat ⟨fun _ => sofar.dollars, fun h => sofar.backslashes ▸ hash h,
    fun h => sofar.backslashes ▸ blank h⟩
  dollars := by simp [notDollar]
  backslashes := by simp [notBackslash]

theorem QuotedSoFar.pair {out : List Char} {run : Nat} (sofar : QuotedSoFar out run) :
    QuotedSoFar (out ++ ['$'] ++ ['$']) 0 where
  all := (sofar.all.concat ⟨by simp, by simp, by simp⟩).concat ⟨by simp, by simp, by simp⟩
  dollars := by
    rw [runBefore_concat, runBefore_concat, if_pos rfl, if_pos rfl]
    simpa [Nat.even_add_one] using sofar.dollars
  backslashes := by rw [runBefore_concat, if_neg (by decide)]

theorem QuotedSoFar.backslashes_append {out : List Char} {run : Nat} (sofar : QuotedSoFar out run) (k : Nat) :
    QuotedSoFar (out ++ List.replicate k '\\') (run + k) := by
  induction k with
  | zero => simpa using sofar
  | succ k ih =>
    rw [List.replicate_succ', ← List.append_assoc, ← Nat.add_assoc]
    exact ih.backslash

-- Before a blank quoting doubles the pending run and adds one more, so the
-- blank follows an odd run.
theorem QuotedSoFar.blank {out : List Char} {run : Nat} {x : Char} (sofar : QuotedSoFar out run)
    (isBlank : x = ' ' ∨ x = '\t') : QuotedSoFar (out ++ List.replicate (run + 1) '\\' ++ [x]) 0 := by
  have plain : x ≠ '\\' ∧ x ≠ '$' ∧ x ≠ '#' := by rcases isBlank with rfl | rfl <;> decide
  exact (sofar.backslashes_append (run + 1)).push plain.1 plain.2.1 (fun hash => absurd hash plain.2.2)
    fun _ => ⟨run, by omega⟩

-- Each character of the name appends its quoted form, which keeps the rules.
theorem QuotedSoFar.append_quoteChars {out : List Char} {run : Nat} (sofar : QuotedSoFar out run)
    (name : List Char) :
    EscapedAll (out ++ quoteChars run name) ∧ Even (runBefore '$' (out ++ quoteChars run name)) := by
  fun_induction quoteChars run name generalizing out with
  | case1 run => simpa using ⟨sofar.all, sofar.dollars⟩
  | case2 run rest ih => simpa using ih sofar.backslash
  | case3 run rest ih => simpa using ih sofar.pair
  | case4 run rest ih => simpa using ih (sofar.blank (.inl rfl))
  | case5 run rest ih => simpa using ih (sofar.blank (.inr rfl))
  | case6 run rest ih =>
    have hashed : QuotedSoFar (out ++ ['\\'] ++ ['#']) 0 :=
      sofar.backslash.push (by decide) (by decide) (fun _ => by omega) (by simp)
    simpa using ih hashed
  | case7 run c rest backslash dollar space tab hash ih =>
    simpa using ih (sofar.push backslash dollar (fun h => absurd h hash) (fun h => by simp_all))

theorem Escaped.of_all {out : List Char} (all : EscapedAll out) (dollars : Even (runBefore '$' out)) :
    Escaped out where
  dollars_paired p q split notDollar := by
    cases q with
    | nil =>
      rw [List.append_nil] at split
      exact split ▸ dollars
    | cons x q => exact (all p x q split).1 (by simpa using notDollar)
  hash_escaped p q split := (all p '#' q split).2.1 rfl
  blank_escaped p x q blank split := (all p x q split).2.2 blank

theorem escaped_quote (s : String) : Escaped (quote s none).toList := by
  have sofar : QuotedSoFar [] 0 := ⟨EscapedAll.nil, by simp, rfl⟩
  obtain ⟨all, dollars⟩ := sofar.append_quoteChars s.toList
  simpa [quote] using Escaped.of_all all dollars

-- Reading back undoes quoting, so quoting is injective; a trail is quoted on
-- its own; and the quoted text keeps Make's rules.
theorem quoting_loses_nothing (s t : String) :
    unquote (quote s none) = s ∧ Function.Injective (quote · none) ∧
      quote s (some t) = quote s none ++ quote t none ∧ Escaped (quote s none).toList :=
  ⟨unquote_quote s, quote_injective, quote_some s t, escaped_quote s⟩

example : unquote (quote "a\\ b$#" none) = "a\\ b$#" := by decide

end Provenance.Make
