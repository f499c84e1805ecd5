import Provenance.Make.Rules
/-!
The lines of written rules. Reading the pieces of a layout in order, fixed
text goes onto the current line character by character and a line feed in it
ends the line; a name goes onto the current line after its gap, except that a
continuation gap ends the line with ` \` and starts the next with one space.
Each line so read keeps its text, the names written on it and whether it ends
in a continuation.

These are the lines of the written text: the text is the lines, each as
written (its continuation marker included), joined by line feeds; and when no
name holds a line feed, splitting the text at its line feeds gives exactly
those lines.
-/

namespace Provenance.Make

/-- A line of written rules: its text without the line feed that ends it or a
continuation marker, the names written on it, and whether it continues. -/
structure Line where
  text : String := ""
  names : List String := []
  continued : Bool := false

def Line.written (L : Line) : String := if L.continued then L.text ++ " \\" else L.text

def Line.nameCount (L : Line) : Nat := (L.names.filter (· ≠ "")).length

structure Lines where
  done : List Line := []
  current : Line := {}

namespace Lines

def char (s : Lines) (c : Char) : Lines :=
  if c = '\n' then { done := s.done ++ [s.current], current := {} }
  else { s with current := { s.current with text := s.current.text.push c } }

def piece (s : Lines) : Piece → Lines
  | .text t => t.toList.foldl char s
  | .name .none n => { s with current := { s.current with text := s.current.text ++ n, names := s.current.names ++ [n] } }
  | .name .space n =>
    { s with current := { s.current with text := s.current.text ++ " " ++ n, names := s.current.names ++ [n] } }
  | .name .continuation n =>
    { done := s.done ++ [{ s.current with continued := true }], current := { text := " " ++ n, names := [n] } }

def all (s : Lines) : List Line := s.done ++ [s.current]

end Lines

def lines (ps : List Piece) : List Line := (ps.foldl Lines.piece {}).all

/-! Small lemmas of the line view. -/

namespace Lines

@[simp] theorem char_newline (s : Lines) : s.char '\n' = { done := s.done ++ [s.current], current := {} } := by
  simp [char]

theorem char_other (s : Lines) {c : Char} (other : c ≠ '\n') :
    s.char c = { s with current := { s.current with text := s.current.text.push c } } := by
  simp [char, other]

@[simp] theorem piece_text (s : Lines) (t : String) : s.piece (.text t) = t.toList.foldl char s := rfl

@[simp] theorem piece_none (s : Lines) (n : String) :
    s.piece (.name .none n) =
      { s with current := { s.current with text := s.current.text ++ n, names := s.current.names ++ [n] } } := rfl

@[simp] theorem piece_space (s : Lines) (n : String) :
    s.piece (.name .space n) =
      { s with current := { s.current with text := s.current.text ++ " " ++ n, names := s.current.names ++ [n] } } :=
  rfl

@[simp] theorem piece_continuation (s : Lines) (n : String) :
    s.piece (.name .continuation n) =
      { done := s.done ++ [{ s.current with continued := true }], current := { text := " " ++ n, names := [n] } } :=
  rfl

-- Fixed text without a line feed only lengthens the current line.
theorem foldl_char_of_unbroken (cs : List Char) (unbroken : '\n' ∉ cs) (s : Lines) :
    cs.foldl char s = { s with current := { s.current with text := s.current.text ++ String.ofList cs } } := by
  induction cs generalizing s with
  | nil => simp
  | cons c cs ih =>
    have other : c ≠ '\n' := fun same => unbroken (same ▸ List.mem_cons_self)
    rw [List.foldl_cons, char_other s other, ih (fun mem => unbroken (List.mem_cons_of_mem c mem))]
    simp [← String.toList_inj]

-- Fixed text that ends in a line feed leaves an empty line to write on.
theorem foldl_char_newline (cs : List Char) (s : Lines) : ((cs ++ ['\n']).foldl char s).current = {} := by
  rw [List.foldl_append, List.foldl_cons, List.foldl_nil, char_newline]

end Lines

/-! The lines are the lines of the text. -/

theorem intercalate_concat_append (sep : String) (ls : List String) (a b : String) :
    sep.intercalate (ls ++ [a ++ b]) = sep.intercalate (ls ++ [a]) ++ b := by
  rcases List.eq_nil_or_concat ls with rfl | ⟨init, last, rfl⟩
  · simp
  · rw [String.intercalate_append_of_ne_nil (by simp) (by simp),
      String.intercalate_append_of_ne_nil (by simp) (by simp)]
    simp [String.append_assoc]

namespace Lines

def rendered (s : Lines) : String := "\n".intercalate (s.all.map Line.written)

def Open (s : Lines) : Prop := s.current.continued = false

theorem rendered_push {s : Lines} (opened : s.Open) (t : String) (names : List String) :
    ({ s with current := { s.current with text := s.current.text ++ t, names } } : Lines).rendered =
      s.rendered ++ t := by
  have written : ({ s.current with text := s.current.text ++ t, names } : Line).written = s.current.written ++ t := by
    simp [Line.written, show s.current.continued = false from opened]
  simp only [rendered, all, List.map_append, List.map_cons, List.map_nil, written, intercalate_concat_append]

theorem rendered_char {s : Lines} (opened : s.Open) (c : Char) :
    (s.char c).rendered = s.rendered.push c ∧ (s.char c).Open := by
  by_cases newline : c = '\n'
  · subst newline
    refine ⟨?_, rfl⟩
    rw [char_newline, rendered, rendered, all, all, List.map_append, List.map_append,
      String.intercalate_append_of_ne_nil (by simp) (by simp)]
    simp [String.push_eq_append, Line.written]
  · rw [char_other s newline, String.push_eq_append]
    exact ⟨rendered_push opened _ s.current.names, opened⟩

theorem rendered_foldl_char (cs : List Char) {s : Lines} (opened : s.Open) :
    (cs.foldl char s).rendered = s.rendered ++ String.ofList cs ∧ (cs.foldl char s).Open := by
  induction cs generalizing s with
  | nil => simpa using opened
  | cons c cs ih =>
    obtain ⟨pushed, opened'⟩ := rendered_char opened c
    obtain ⟨rest, final⟩ := ih opened'
    refine ⟨?_, final⟩
    rw [List.foldl_cons, rest, pushed]
    simp [← String.toList_inj]

-- Each piece adds its own text to the rendered lines: a continuation's ` \`
-- goes onto the line it ends, its line feed between the lines, its space onto
-- the next.
theorem rendered_piece {s : Lines} (opened : s.Open) (p : Piece) :
    (s.piece p).rendered = s.rendered ++ p.render ∧ (s.piece p).Open := by
  match p with
  | .text t =>
    obtain ⟨rest, final⟩ := rendered_foldl_char t.toList opened
    exact ⟨by rw [piece_text, rest, String.ofList_toList]; rfl, final⟩
  | .name .none n =>
    refine ⟨?_, opened⟩
    simpa [Piece.render, Gap.text] using rendered_push opened n (s.current.names ++ [n])
  | .name .space n =>
    refine ⟨?_, opened⟩
    simpa [Piece.render, Gap.text, String.append_assoc] using rendered_push opened (" " ++ n) (s.current.names ++ [n])
  | .name .continuation n =>
    refine ⟨?_, rfl⟩
    have marked : ({ s.current with continued := true } : Line).written = s.current.written ++ " \\" := by
      simp [Line.written, show s.current.continued = false from opened]
    rw [piece_continuation, rendered, rendered, all, all, List.map_append, List.map_append,
      String.intercalate_append_of_ne_nil (by simp) (by simp), List.map_append, List.map_singleton, marked,
      intercalate_concat_append]
    simp [Piece.render, Gap.text, Line.written, ← String.toList_inj]

theorem rendered_foldl (ps : List Piece) {s : Lines} (opened : s.Open) :
    (ps.foldl piece s).rendered = s.rendered ++ render ps := by
  induction ps generalizing s with
  | nil => simp [render]
  | cons p ps ih =>
    obtain ⟨first, opened'⟩ := rendered_piece opened p
    rw [List.foldl_cons, ih opened', first]
    simp [render, String.append_assoc]

end Lines

theorem render_eq_lines (ps : List Piece) : render ps = "\n".intercalate ((lines ps).map Line.written) := by
  have run := Lines.rendered_foldl ps (s := {}) rfl
  rw [show ({} : Lines).rendered = "" from rfl, String.empty_append] at run
  exact run.symm

/-! No line holds a line feed when no name does. -/

def Piece.Unbroken : Piece → Prop
  | .text _ => True
  | .name _ n => '\n' ∉ n.toList

namespace Lines

def Unbroken (s : Lines) : Prop := ∀ L ∈ s.all, '\n' ∉ L.written.toList

theorem Unbroken.push {s : Lines} (unbroken : s.Unbroken) (opened : s.Open) {t : String} (clean : '\n' ∉ t.toList)
    (names : List String) :
    ({ s with current := { s.current with text := s.current.text ++ t, names } } : Lines).Unbroken := by
  intro L mem
  simp only [all, List.mem_append, List.mem_singleton] at mem
  rcases mem with old | rfl
  · exact unbroken L (by simp [all, old])
  · have current := unbroken s.current (by simp [all])
    simp_all [Line.written, Open]

theorem Unbroken.char {s : Lines} (unbroken : s.Unbroken) (opened : s.Open) (c : Char) : (s.char c).Unbroken := by
  by_cases newline : c = '\n'
  · subst newline
    intro L mem
    simp only [char_newline, all, List.mem_append, List.mem_singleton] at mem
    rcases mem with (old | rfl) | rfl
    · exact unbroken L (by simp [all, old])
    · exact unbroken _ (by simp [all])
    · simp [Line.written]
  · rw [char_other s newline, String.push_eq_append]
    exact unbroken.push opened (by simpa using Ne.symm newline) s.current.names

theorem Unbroken.foldl_char {s : Lines} (unbroken : s.Unbroken) (opened : s.Open) (cs : List Char) :
    (cs.foldl Lines.char s).Unbroken := by
  induction cs generalizing s with
  | nil => exact unbroken
  | cons c cs ih => exact ih (unbroken.char opened c) (rendered_char opened c).2

theorem Unbroken.piece {s : Lines} (unbroken : s.Unbroken) (opened : s.Open) {p : Piece} (clean : p.Unbroken) :
    (s.piece p).Unbroken := by
  match p, clean with
  | .text t, _ => exact unbroken.foldl_char opened t.toList
  | .name .none n, clean => simpa using unbroken.push opened clean (s.current.names ++ [n])
  | .name .space n, clean =>
    have clean' : '\n' ∉ (" " ++ n).toList := by simpa [Piece.Unbroken] using clean
    simpa [String.append_assoc] using unbroken.push opened clean' (s.current.names ++ [n])
  | .name .continuation n, clean =>
    simp only [Piece.Unbroken] at clean
    intro L mem
    simp only [piece_continuation, all, List.mem_append, List.mem_singleton] at mem
    rcases mem with (old | rfl) | rfl
    · exact unbroken L (by simp [all, old])
    · have current := unbroken s.current (by simp [all])
      simp_all [Line.written, Open]
    · simpa [Line.written] using clean

theorem Unbroken.foldl {s : Lines} (unbroken : s.Unbroken) (opened : s.Open) {ps : List Piece}
    (clean : ∀ p ∈ ps, p.Unbroken) : (ps.foldl Lines.piece s).Unbroken := by
  induction ps generalizing s with
  | nil => exact unbroken
  | cons p ps ih =>
    exact ih (unbroken.piece opened (clean p List.mem_cons_self)) (rendered_piece opened p).2
      (fun q mem => clean q (List.mem_cons_of_mem p mem))

end Lines

-- Splitting the text at its line feeds gives the lines, each as written.
theorem splitOn_render {ps : List Piece} (clean : ∀ p ∈ ps, p.Unbroken) :
    (render ps).toList.splitOn '\n' = (lines ps).map fun L => L.written.toList := by
  have unbroken : (ps.foldl Lines.piece {}).Unbroken :=
    Lines.Unbroken.foldl (s := {}) (by simp [Lines.Unbroken, Lines.all, Line.written]) rfl clean
  rw [render_eq_lines, String.toList_intercalate, List.map_map]
  refine List.splitOn_intercalate '\n' ?_ (by simp [lines, Lines.all])
  intro l mem
  obtain ⟨L, written, rfl⟩ := List.mem_map.mp mem
  exact unbroken L written

end Provenance.Make
