/-!
Reading TOML 1.0 documents. The reader accepts the whole language (strings in
four forms, integers with bases and separators, floats, booleans, dates and
times, arrays, inline tables, table headers, arrays of tables, dotted keys)
and refuses what the language forbids: a key defined twice, a table defined
twice, a dotted key reaching into a table defined by a header, control
characters in strings and comments. Values that callers need are kept; the
value of a float or a date is not.
-/

namespace Provenance.Toml

inductive Value where
  | str (s : String)
  | int (i : Int)
  | float
  | bool (b : Bool)
  | datetime
  | arr (items : List Value)
  | table (entries : List (String × Value))
  | tables (items : List (List (String × Value)))
  deriving Repr, Inhabited

/-- How a table came to exist: named by a header, created on the way to a
header, or created by a dotted key. -/
inductive Origin where
  | header
  | implicit
  | dotted
  deriving DecidableEq, Repr

/-- A table under construction. Inline tables and arrays are finished values. -/
inductive Node where
  | value (v : Value)
  | table (origin : Origin) (entries : List (String × Node))
  | tables (items : List (List (String × Node)))
  deriving Inhabited

inductive TomlError where
  | malformed (left : Nat)
  | duplicate (key : String)
  deriving DecidableEq, Repr

def fail (rest : List Char) : Except TomlError α := .error (.malformed rest.length)

section Lexical

def isControl (c : Char) : Bool := (c.toNat < 0x20 && c ≠ '\t') || c.toNat = 0x7f

def isBareKeyChar (c : Char) : Bool := c.isAlphanum || c = '_' || c = '-'

def skipWs (cs : List Char) : List Char := cs.dropWhile fun c => c = ' ' || c = '\t'

def skipComment (cs : List Char) : Except TomlError (List Char) :=
  match cs with
  | '#' :: rest =>
    let body := rest.takeWhile fun c => c ≠ '\n' && c ≠ '\r'
    if body.any isControl then fail cs else .ok (rest.drop body.length)
  | _ => .ok cs

def skipNewline : List Char → Option (List Char)
  | '\n' :: rest => some rest
  | '\r' :: '\n' :: rest => some rest
  | _ => none

def skipArrayGap (fuel : Nat) (cs : List Char) : Except TomlError (List Char) :=
  match fuel with
  | 0 => fail cs
  | fuel + 1 => do
    let cs ← skipComment (skipWs cs)
    match skipNewline cs with
    | some rest => skipArrayGap fuel rest
    | none => .ok cs

def hexValue (c : Char) : Option Nat :=
  if c.isDigit then some (c.toNat - 48)
  else if 'a' ≤ c && c ≤ 'f' then some (c.toNat - 87)
  else if 'A' ≤ c && c ≤ 'F' then some (c.toNat - 55)
  else none

def hexNumber (cs : List Char) : Option Nat :=
  cs.foldlM (fun acc c => (hexValue c).map (acc * 16 + ·)) 0

def escape (cs : List Char) : Except TomlError (Char × List Char) :=
  match cs with
  | 'b' :: rest => .ok ('\x08', rest)
  | 't' :: rest => .ok ('\t', rest)
  | 'n' :: rest => .ok ('\n', rest)
  | 'f' :: rest => .ok ('\x0c', rest)
  | 'r' :: rest => .ok ('\r', rest)
  | '"' :: rest => .ok ('"', rest)
  | '\\' :: rest => .ok ('\\', rest)
  | 'u' :: rest => scalar 4 rest
  | 'U' :: rest => scalar 8 rest
  | _ => fail cs
where
  scalar (n : Nat) (rest : List Char) : Except TomlError (Char × List Char) :=
    match hexNumber (rest.take n) with
    | some v =>
      if rest.length ≥ n ∧ (v < 0xd800 ∨ (0xdfff < v ∧ v ≤ 0x10ffff)) then
        .ok (Char.ofNat v, rest.drop n)
      else fail rest
    | none => fail rest

def basicString (fuel : Nat) (acc : List Char) (cs : List Char) : Except TomlError (String × List Char) :=
  match fuel with
  | 0 => fail cs
  | fuel + 1 =>
    match cs with
    | '"' :: rest => .ok (String.ofList acc.reverse, rest)
    | '\\' :: rest => do
      let (c, rest) ← escape rest
      basicString fuel (c :: acc) rest
    | c :: rest => if isControl c then fail cs else basicString fuel (c :: acc) rest
    | [] => fail cs

def literalString (cs : List Char) : Except TomlError (String × List Char) :=
  let body := cs.takeWhile (· ≠ '\'')
  match cs.drop body.length with
  | '\'' :: rest => if body.any isControl then fail cs else .ok (String.ofList body, rest)
  | _ => fail cs

def trimFirstNewline (cs : List Char) : List Char := (skipNewline cs).getD cs

def skipContinuation (fuel : Nat) (cs : List Char) : List Char :=
  match fuel with
  | 0 => cs
  | fuel + 1 =>
    match cs with
    | ' ' :: rest => skipContinuation fuel rest
    | '\t' :: rest => skipContinuation fuel rest
    | '\n' :: rest => skipContinuation fuel rest
    | '\r' :: '\n' :: rest => skipContinuation fuel rest
    | _ => cs

/-- The rest of a multi-line string after its opening quotes; `q` is the quote,
`escapes` tells whether backslash escapes apply. Up to two quotes before the
closing three belong to the string. -/
def multilineString (q : Char) (escapes : Bool) (fuel : Nat) (acc : List Char) (cs : List Char) :
    Except TomlError (String × List Char) :=
  match fuel with
  | 0 => fail cs
  | fuel + 1 =>
    if cs.take 3 = [q, q, q] then
      let extra := ((cs.drop 3).takeWhile (· = q)).length
      if extra > 2 then fail cs
      else .ok (String.ofList (acc.reverse ++ List.replicate extra q), cs.drop (3 + extra))
    else
      match cs with
      | '\\' :: rest =>
        if escapes then
          let afterWs := skipWs rest
          match skipNewline afterWs with
          | some _ => multilineString q escapes fuel acc (skipContinuation (rest.length + 1) rest)
          | none => do
            let (c, rest) ← escape rest
            multilineString q escapes fuel (c :: acc) rest
        else multilineString q escapes fuel ('\\' :: acc) rest
      | '\n' :: rest => multilineString q escapes fuel ('\n' :: acc) rest
      | '\r' :: '\n' :: rest => multilineString q escapes fuel ('\n' :: acc) rest
      | c :: rest => if isControl c then fail cs else multilineString q escapes fuel (c :: acc) rest
      | [] => fail cs

def simpleKey (cs : List Char) : Except TomlError (String × List Char) :=
  match cs with
  | '"' :: rest => basicString (rest.length + 1) [] rest
  | '\'' :: rest => literalString rest
  | _ =>
    let bare := cs.takeWhile isBareKeyChar
    if bare = [] then fail cs else .ok (String.ofList bare, cs.drop bare.length)

/-- A dotted key: simple keys joined by dots, blanks allowed around the dots. -/
def dottedKeyParts (fuel : Nat) (cs : List Char) : Except TomlError (List String × List Char) :=
  match fuel with
  | 0 => fail cs
  | fuel + 1 => do
    let (k, rest) ← simpleKey cs
    match skipWs rest with
    | '.' :: more => do
      let (ks, rest) ← dottedKeyParts fuel (skipWs more)
      .ok (k :: ks, rest)
    | _ => .ok ([k], rest)

/-- The most parts a key, and the most arrays and inline tables one value
nests, may have (exclusive). -/
def nestingLimit : Nat := 80

/-- A dotted key of fewer than `nestingLimit` parts. -/
def dottedKey (fuel : Nat) (cs : List Char) : Except TomlError (List String × List Char) := do
  let (ks, rest) ← dottedKeyParts fuel cs
  if ks.length < nestingLimit then .ok (ks, rest) else fail cs

end Lexical

section Scalars

def digitsOk (isDigit : Char → Bool) (cs : List Char) : Bool :=
  cs ≠ [] && cs.head? ≠ some '_' && cs.getLast? ≠ some '_' &&
  cs.all (fun c => isDigit c || c = '_') &&
  !((cs.zip (cs.drop 1)).any fun (a, b) => a = '_' && b = '_')

def digitsValue (base : Nat) (cs : List Char) : Nat :=
  (cs.filter (· ≠ '_')).foldl (fun acc c => acc * base + ((hexValue c).getD 0)) 0

def splitSign : List Char → Int × List Char
  | '+' :: rest => (1, rest)
  | '-' :: rest => (-1, rest)
  | cs => (1, cs)

def decimalOk (cs : List Char) : Bool :=
  digitsOk Char.isDigit cs && (cs.head? ≠ some '0' || cs.length = 1)

def fits64 (i : Int) : Bool := -9223372036854775808 ≤ i && i ≤ 9223372036854775807

def integer? (cs : List Char) : Option Int :=
  let base? : Option (Nat × (Char → Bool)) := match cs.take 2 with
    | ['0', 'x'] => some (16, fun c => (hexValue c).isSome)
    | ['0', 'o'] => some (8, fun c => '0' ≤ c && c ≤ '7')
    | ['0', 'b'] => some (2, fun c => c = '0' || c = '1')
    | _ => none
  match base? with
  | some (base, ok) =>
    let ds := cs.drop 2
    if digitsOk ok ds then
      let v : Int := digitsValue base ds
      if fits64 v then some v else none
    else none
  | none =>
    let (sign, ds) := splitSign cs
    if decimalOk ds then
      let v := sign * (digitsValue 10 ds : Int)
      if fits64 v then some v else none
    else none

/-- Whether the number `mantissa × 10^exp` reaches `2^1024 - 2^970`, halfway
between the largest finite double and `2^1024`; a decimal text at or above it
rounds to infinity. Only the bounds by the digit count are used unless they
leave the question open. -/
def roundsToInfinity (mantissa : Nat) (exp : Int) : Bool :=
  let limit := Nat.pow 2 1024 - Nat.pow 2 970
  let digits : Int := (Nat.toDigits 10 mantissa).length
  if mantissa = 0 ∨ digits + exp ≤ 308 then false
  else if digits + exp ≥ 310 then true
  else if exp ≥ 0 then mantissa * Nat.pow 10 exp.toNat ≥ limit
  else mantissa ≥ limit * Nat.pow 10 (-exp).toNat

/-- The mantissa and the power of ten of a decimal float text without sign:
digits before and after the point, then an optional exponent. -/
def decimalParts (ds : List Char) : Nat × Int :=
  let digit (c : Char) : Bool := c.isDigit || c = '_'
  let intPart := ds.takeWhile digit
  let rest := ds.drop intPart.length
  let frac := match rest with
    | '.' :: more => more.takeWhile digit
    | _ => []
  let afterFrac := match rest with
    | '.' :: more => more.drop frac.length
    | _ => rest
  let exp : Int := match afterFrac with
    | e :: more =>
      if e = 'e' || e = 'E' then
        let (sign, eds) := splitSign more
        sign * (digitsValue 10 eds : Int)
      else 0
    | [] => 0
  let fracDigits := frac.filter (· ≠ '_')
  (digitsValue 10 (intPart ++ fracDigits), exp - fracDigits.length)

/-- Whether a token is a float. A decimal float that rounds to positive
infinity is refused; one that rounds to negative infinity is not. -/
def isFloat (cs : List Char) : Bool :=
  let (sign, ds) := splitSign cs
  isFloatText ds &&
    (ds = ['i', 'n', 'f'] || ds = ['n', 'a', 'n'] || sign < 0 ||
      let (m, e) := decimalParts ds
      !roundsToInfinity m e)
where
  isFloatText (ds : List Char) : Bool :=
    if ds = ['i', 'n', 'f'] || ds = ['n', 'a', 'n'] then true
    else
      let intPart := ds.takeWhile fun c => c.isDigit || c = '_'
      let rest := ds.drop intPart.length
      let expOk (e : List Char) : Bool :=
        let (_, eds) := splitSign e
        digitsOk Char.isDigit eds
      decimalOk intPart &&
      match rest with
      | '.' :: frac =>
        let f := frac.takeWhile fun c => c.isDigit || c = '_'
        digitsOk Char.isDigit f &&
        match frac.drop f.length with
        | [] => true
        | 'e' :: e => expOk e
        | 'E' :: e => expOk e
        | _ => false
      | 'e' :: e => expOk e
      | 'E' :: e => expOk e
      | _ => false

def twoDigits : List Char → Option Nat
  | [a, b] => if a.isDigit && b.isDigit then some ((a.toNat - 48) * 10 + (b.toNat - 48)) else none
  | _ => none

def daysIn (year month : Nat) : Nat :=
  if month = 2 then
    if year % 4 = 0 ∧ (year % 100 ≠ 0 ∨ year % 400 = 0) then 29 else 28
  else if month = 4 ∨ month = 6 ∨ month = 9 ∨ month = 11 then 30
  else 31

def isDate (cs : List Char) : Bool :=
  match cs with
  | [y1, y2, y3, y4, '-', m1, m2, '-', d1, d2] =>
    [y1, y2, y3, y4].all Char.isDigit &&
    match twoDigits [m1, m2], twoDigits [d1, d2] with
    | some m, some d =>
      let y := ([y1, y2, y3, y4].foldl (fun a c => a * 10 + (c.toNat - 48)) 0)
      1 ≤ m && m ≤ 12 && 1 ≤ d && d ≤ daysIn y m
    | _, _ => false
  | _ => false

def isTime (cs : List Char) : Bool :=
  match cs with
  | h1 :: h2 :: ':' :: m1 :: m2 :: ':' :: s1 :: s2 :: frac =>
    (match twoDigits [h1, h2], twoDigits [m1, m2], twoDigits [s1, s2] with
      | some h, some m, some s => h ≤ 23 && m ≤ 59 && s ≤ 60
      | _, _, _ => false) &&
    match frac with
    | [] => true
    | '.' :: ds => ds ≠ [] && ds.all Char.isDigit
    | _ => false
  | _ => false

def isOffset (cs : List Char) : Bool :=
  match cs with
  | ['Z'] | ['z'] => true
  | [s, h1, h2, ':', m1, m2] =>
    (s = '+' || s = '-') &&
    match twoDigits [h1, h2], twoDigits [m1, m2] with
    | some h, some m => h ≤ 23 && m ≤ 59
    | _, _ => false
  | _ => false

def isDatetime (cs : List Char) : Bool :=
  isDate cs || isTime cs ||
  (cs.length > 11 && isDate (cs.take 10) &&
    (cs[10]? = some 'T' || cs[10]? = some 't' || cs[10]? = some ' ') &&
    let t := cs.drop 11
    let time := t.takeWhile fun c => c.isDigit || c = ':' || c = '.'
    isTime time && (t.length = time.length || isOffset (t.drop time.length)))

def isTokenChar (c : Char) : Bool :=
  c.isAlphanum || c = '_' || c = '+' || c = '-' || c = '.' || c = ':'

def scalar (cs : List Char) : Except TomlError (Value × List Char) :=
  let tok := cs.takeWhile isTokenChar
  let rest := cs.drop tok.length
  -- a date may be followed by a blank and a time
  let (tok, rest) := match rest with
    | ' ' :: more =>
      let time := more.takeWhile isTokenChar
      if isDate tok && isTime (time.takeWhile fun c => c.isDigit || c = ':' || c = '.') then
        (tok ++ ' ' :: time, more.drop time.length)
      else (tok, rest)
    | _ => (tok, rest)
  if tok = [] then fail cs
  else match integer? tok with
    | some i => .ok (.int i, rest)
    | none =>
      if isFloat tok then .ok (.float, rest)
      else if isDatetime tok then .ok (.datetime, rest)
      else fail cs

end Scalars

section Tables

def find? (k : String) (es : List (String × Node)) : Option Node :=
  (es.find? (·.1 = k)).map (·.2)

def replace (k : String) (n : Node) (es : List (String × Node)) : List (String × Node) :=
  es.map fun e => if e.1 = k then (k, n) else e

/-- Inserts a value under a dotted key. Missing tables on the way are created
as dotted ones; a table named by a header may not be entered, and an array of
tables leads into its last table. `admits` tells whether the table at hand may
take the key: the table a key starts from may, a table reached through the
key only if dotted keys made it. -/
def insertDotted (v : Node) (admits : Bool) : List String → List (String × Node) →
    Except TomlError (List (String × Node))
  | [], es => .ok es
  | [k], es =>
    if !admits then .error (.duplicate k)
    else
      match find? k es with
      | none => .ok (es ++ [(k, v)])
      | some _ => .error (.duplicate k)
  | d :: ds, es =>
    match find? d es with
    | none => do
      let sub ← insertDotted v true ds []
      .ok (es ++ [(d, .table .dotted sub)])
    | some (.table .header _) => .error (.duplicate d)
    | some (.table o sub) => do
      let sub ← insertDotted v (o = .dotted) ds sub
      .ok (replace d (.table o sub) es)
    | some (.tables items) =>
      match items.getLast? with
      | some last => do
        let last ← insertDotted v false ds last
        .ok (replace d (.tables (items.dropLast ++ [last])) es)
      | none => .error (.duplicate d)
    | some (.value _) => .error (.duplicate d)

/-- An inline table under construction: each entry is a finished value or a
table, and a table remembers whether dotted keys made it. -/
inductive Inline where
  | value (v : Value)
  | table (dotted : Bool) (entries : List (String × Inline))
  deriving Inhabited

mutual

/-- A finished value as part of an inline table under construction; its
tables count as written out, not made by dotted keys. -/
def Inline.ofValue : Value → Inline
  | .table es => .table false (inlineEntriesOf es)
  | v => .value v

def inlineEntriesOf : List (String × Value) → List (String × Inline)
  | [] => []
  | (k, v) :: rest => (k, Inline.ofValue v) :: inlineEntriesOf rest

end

mutual

def Inline.toValue : Inline → Value
  | .value v => v
  | .table _ es => .table (inlineEntriesValue es)

def inlineEntriesValue : List (String × Inline) → List (String × Value)
  | [] => []
  | (k, n) :: rest => (k, n.toValue) :: inlineEntriesValue rest

end

/-- Inserts a value under a dotted key into an inline table. Missing tables on
the way are created as dotted ones; any table may be entered, but the table
that takes the key must be the inline table itself or one dotted keys made. -/
def insertInline (v : Inline) (admits : Bool) : List String → List (String × Inline) →
    Except TomlError (List (String × Inline))
  | [], es => .ok es
  | [k], es =>
    if !admits then .error (.duplicate k)
    else
      match (es.find? (·.1 = k)) with
      | none => .ok (es ++ [(k, v)])
      | some _ => .error (.duplicate k)
  | d :: ds, es =>
    match (es.find? (·.1 = d)).map (·.2) with
    | none => do
      let sub ← insertInline v true ds []
      .ok (es ++ [(d, .table true sub)])
    | some (.table dotted sub) => do
      let sub ← insertInline v dotted ds sub
      .ok (es.map fun e => if e.1 = d then (d, .table dotted sub) else e)
    | some (.value _) => .error (.duplicate d)

/-- Changes the entries of the table at a path, creating missing tables on the
way as implicit ones; an array of tables leads into its last table. -/
def modifyAt (f : List (String × Node) → Except TomlError (List (String × Node))) :
    List String → List (String × Node) → Except TomlError (List (String × Node))
  | [], es => f es
  | k :: ks, es =>
    match find? k es with
    | none => do
      let sub ← modifyAt f ks []
      .ok (es ++ [(k, .table .implicit sub)])
    | some (.table o sub) => do
      let sub ← modifyAt f ks sub
      .ok (replace k (.table o sub) es)
    | some (.tables items) =>
      match items.getLast? with
      | some last => do
        let last ← modifyAt f ks last
        .ok (replace k (.tables (items.dropLast ++ [last])) es)
      | none => .error (.duplicate k)
    | some (.value _) => .error (.duplicate k)

/-- Defines the table a header `[a.b.c]` names. A table that was only made
on the way to an earlier header moves to the end of its parent, where a new
one would go. -/
def defineTable (path : List String) (root : List (String × Node)) :
    Except TomlError (List (String × Node)) :=
  match path.getLast? with
  | none => .error (.duplicate "")
  | some k =>
    modifyAt (fun es =>
      match find? k es with
      | none => .ok (es ++ [(k, .table .header [])])
      | some (.table .implicit sub) => .ok (es.filter (·.1 ≠ k) ++ [(k, .table .header sub)])
      | some _ => .error (.duplicate k)) path.dropLast root

def appendTable (path : List String) (root : List (String × Node)) :
    Except TomlError (List (String × Node)) :=
  match path.getLast? with
  | none => .error (.duplicate "")
  | some k =>
    modifyAt (fun es =>
      match find? k es with
      | none => .ok (es ++ [(k, .tables [[]])])
      | some (.tables items) => .ok (replace k (.tables (items ++ [[]])) es)
      | some _ => .error (.duplicate k)) path.dropLast root

mutual

def Node.toValue : Node → Value
  | .value v => v
  | .table _ es => .table (entriesValue es)
  | .tables items => .tables (itemsValue items)

def entriesValue : List (String × Node) → List (String × Value)
  | [] => []
  | (k, n) :: rest => (k, n.toValue) :: entriesValue rest

def itemsValue : List (List (String × Node)) → List (List (String × Value))
  | [] => []
  | es :: rest => entriesValue es :: itemsValue rest

end

end Tables

section Values

mutual

/-- A value inside `depth` arrays and inline tables. -/
def value (fuel depth : Nat) (cs : List Char) : Except TomlError (Value × List Char) :=
  match fuel with
  | 0 => fail cs
  | fuel + 1 =>
    match cs with
    | '"' :: '"' :: '"' :: rest =>
      (multilineString '"' true (rest.length + 1) [] (trimFirstNewline rest)).map
        fun (s, r) => (.str s, r)
    | '"' :: rest => (basicString (rest.length + 1) [] rest).map fun (s, r) => (.str s, r)
    | '\'' :: '\'' :: '\'' :: rest =>
      (multilineString '\'' false (rest.length + 1) [] (trimFirstNewline rest)).map
        fun (s, r) => (.str s, r)
    | '\'' :: rest => (literalString rest).map fun (s, r) => (.str s, r)
    | 't' :: 'r' :: 'u' :: 'e' :: rest => .ok (.bool true, rest)
    | 'f' :: 'a' :: 'l' :: 's' :: 'e' :: rest => .ok (.bool false, rest)
    | '[' :: rest => if depth + 1 < nestingLimit then arrayItems fuel (depth + 1) [] rest else fail cs
    | '{' :: rest => if depth + 1 < nestingLimit then inlineTable fuel (depth + 1) rest else fail cs
    | _ => scalar cs

def arrayItems (fuel depth : Nat) (acc : List Value) (cs : List Char) :
    Except TomlError (Value × List Char) :=
  match fuel with
  | 0 => fail cs
  | fuel + 1 => do
    let cs ← skipArrayGap (cs.length + 1) cs
    match cs with
    | ']' :: rest => .ok (.arr acc.reverse, rest)
    | _ => do
      let (v, rest) ← value fuel depth cs
      let rest ← skipArrayGap (rest.length + 1) rest
      match rest with
      | ',' :: more => arrayItems fuel depth (v :: acc) more
      | ']' :: more => .ok (.arr (v :: acc).reverse, more)
      | _ => fail rest

def inlineTable (fuel depth : Nat) (cs : List Char) : Except TomlError (Value × List Char) :=
  match fuel with
  | 0 => fail cs
  | fuel + 1 =>
    match skipWs cs with
    | '}' :: rest => .ok (.table [], rest)
    | _ => inlineEntries fuel depth [] cs

def inlineEntries (fuel depth : Nat) (es : List (String × Inline)) (cs : List Char) :
    Except TomlError (Value × List Char) :=
  match fuel with
  | 0 => fail cs
  | fuel + 1 => do
    let (ks, rest) ← dottedKey (cs.length + 1) (skipWs cs)
    match skipWs rest with
    | '=' :: more => do
      let (v, rest) ← value fuel depth (skipWs more)
      let es ← insertInline (Inline.ofValue v) true ks es
      match skipWs rest with
      | ',' :: more => inlineEntries fuel depth es more
      | '}' :: more => .ok ((Inline.table false es).toValue, more)
      | r => fail r
    | r => fail r

end

end Values

def endLine (cs : List Char) : Except TomlError (List Char) := do
  let cs ← skipComment (skipWs cs)
  match cs with
  | [] => .ok []
  | _ => match skipNewline cs with
    | some rest => .ok rest
    | none => fail cs

def lines (fuel : Nat) (root : List (String × Node)) (current : List String) (cs : List Char) :
    Except TomlError (List (String × Node)) :=
  match fuel with
  | 0 => fail cs
  | fuel + 1 =>
    match skipWs cs with
    | [] => .ok root
    | '[' :: '[' :: rest => do
      let (path, rest) ← dottedKey (rest.length + 1) (skipWs rest)
      match skipWs rest with
      | ']' :: ']' :: rest => do
        let root ← appendTable path root
        lines fuel root path (← endLine rest)
      | r => fail r
    | '[' :: rest => do
      let (path, rest) ← dottedKey (rest.length + 1) (skipWs rest)
      match skipWs rest with
      | ']' :: rest => do
        let root ← defineTable path root
        lines fuel root path (← endLine rest)
      | r => fail r
    | line =>
      match skipNewline line, line with
      | some rest, _ => lines fuel root current rest
      | none, '#' :: _ => do lines fuel root current (← endLine line)
      | none, _ => do
        let (ks, rest) ← dottedKey (line.length + 1) line
        match skipWs rest with
        | '=' :: more => do
          let (v, rest) ← value (more.length + 1) 0 (skipWs more)
          let root ← modifyAt (insertDotted (.value v) true ks) current root
          lines fuel root current (← endLine rest)
        | r => fail r

/-- Reads a TOML document: the entries of its root table. A byte order mark
at the start is skipped. -/
def parse (text : String) : Except TomlError (List (String × Value)) := do
  let cs := match text.toList with
    | '\uFEFF' :: rest => rest
    | cs => cs
  let root ← lines (cs.length + 1) [] [] cs
  match (Node.table .header root).toValue with
  | .table es => .ok es
  | _ => .ok []

end Provenance.Toml
