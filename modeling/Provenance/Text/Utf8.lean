/-!
Reading UTF-8. A byte string is read left to right; the first ill-formed
sequence stops it. The error tells how many bytes were good before it and,
unless the input simply ended inside a sequence, how many bytes the bad
sequence spans (1 to 3). Overlong forms, surrogates and code points above
U+10FFFF are ill-formed.
-/

namespace Provenance.Text.Utf8

/-- Where reading stopped: `validUpTo` good bytes, then a bad sequence of
`badLength` bytes, or the end of input inside a sequence when it is `none`. -/
structure Utf8Error where
  validUpTo : Nat
  badLength : Option Nat
  deriving DecidableEq, Repr

def Utf8Error.message (e : Utf8Error) : String :=
  match e.badLength with
  | some n =>
    "invalid utf-8 sequence of " ++ toString n ++ " bytes from index " ++ toString e.validUpTo
  | none => "incomplete utf-8 byte sequence from index " ++ toString e.validUpTo

def isCont (b : UInt8) : Bool := 0x80 ≤ b.toNat && b.toNat ≤ 0xbf

def low6 (b : UInt8) : Nat := b.toNat % 64

def secondRange (b : UInt8) : Nat × Nat :=
  if b.toNat = 0xe0 then (0xa0, 0xbf)
  else if b.toNat = 0xed then (0x80, 0x9f)
  else if b.toNat = 0xf0 then (0x90, 0xbf)
  else if b.toNat = 0xf4 then (0x80, 0x8f)
  else (0x80, 0xbf)

def secondOk (first second : UInt8) : Bool :=
  (secondRange first).1 ≤ second.toNat && second.toNat ≤ (secondRange first).2

def width (b : UInt8) : Nat :=
  if b.toNat < 0x80 then 1
  else if 0xc2 ≤ b.toNat ∧ b.toNat ≤ 0xdf then 2
  else if 0xe0 ≤ b.toNat ∧ b.toNat ≤ 0xef then 3
  else if 0xf0 ≤ b.toNat ∧ b.toNat ≤ 0xf4 then 4
  else 0

def decodeFrom (pos : Nat) : List UInt8 → Except Utf8Error (List Char)
  | [] => .ok []
  | b :: rest =>
    if width b = 1 then (decodeFrom (pos + 1) rest).map (Char.ofNat b.toNat :: ·)
    else if width b = 2 then
      match rest with
      | [] => .error ⟨pos, none⟩
      | c :: rest' =>
        if isCont c then
          (decodeFrom (pos + 2) rest').map
            (Char.ofNat ((b.toNat % 32) * 64 + low6 c) :: ·)
        else .error ⟨pos, some 1⟩
    else if width b = 3 then
      match rest with
      | [] => .error ⟨pos, none⟩
      | [c] => if secondOk b c then .error ⟨pos, none⟩ else .error ⟨pos, some 1⟩
      | c :: d :: rest' =>
        if !secondOk b c then .error ⟨pos, some 1⟩
        else if !isCont d then .error ⟨pos, some 2⟩
        else
          (decodeFrom (pos + 3) rest').map
            (Char.ofNat ((b.toNat % 16) * 4096 + low6 c * 64 + low6 d) :: ·)
    else if width b = 4 then
      match rest with
      | [] => .error ⟨pos, none⟩
      | [c] => if secondOk b c then .error ⟨pos, none⟩ else .error ⟨pos, some 1⟩
      | [c, d] =>
        if !secondOk b c then .error ⟨pos, some 1⟩
        else if !isCont d then .error ⟨pos, some 2⟩
        else .error ⟨pos, none⟩
      | c :: d :: e :: rest' =>
        if !secondOk b c then .error ⟨pos, some 1⟩
        else if !isCont d then .error ⟨pos, some 2⟩
        else if !isCont e then .error ⟨pos, some 3⟩
        else
          (decodeFrom (pos + 4) rest').map
            (Char.ofNat ((b.toNat % 8) * 262144 + low6 c * 4096 + low6 d * 64 + low6 e) :: ·)
    else .error ⟨pos, some 1⟩

def decode (bs : List UInt8) : Except Utf8Error String :=
  (decodeFrom 0 bs).map String.ofList

def encode (s : String) : List UInt8 :=
  s.toUTF8.toList

end Provenance.Text.Utf8
